import MeshControl.Text.Decimal
import MeshControl.Text.Hex
/-!
IPv6 addresses as text: eight groups of sixteen bits in hexadecimal with colons between. Written
text has no zeros in front of a group and replaces the first longest run of at least two zero
groups by a double colon. Read text may replace any groups, at least one, and may spell the last
two groups as four decimal octets.

The writer never uses the decimal form of the last two groups. That form is due only to addresses
whose sixth group is not zero, and the addresses written here end in four zero groups.
-/

namespace MeshControl.Text

namespace Ipv6

abbrev Groups := List Nat

/-! ## Writing -/

/-- Groups with single colons between. -/
def joined (groups : Groups) : String :=
  ":".intercalate (groups.map fun group => String.ofList (Nat.toDigits 16 group))

/-- The number of zero groups at the front. -/
def leadingZeros (groups : Groups) : Nat :=
  (groups.takeWhile (· = 0)).length

/-- Start and length of the first longest run of zero groups, counting from `index`. -/
def longestZeros (index : Nat) : Groups → Nat × Nat
  | [] => (index, 0)
  | group :: rest =>
    let here := leadingZeros (group :: rest)
    let later := longestZeros (index + 1) rest
    if later.2 ≤ here then (index, here) else later

def render (groups : Groups) : String :=
  let (start, length) := longestZeros 0 groups
  if 2 ≤ length then
    joined (groups.take start) ++ "::" ++ joined (groups.drop (start + length))
  else joined groups

/-! ## Reading

Each reader takes text and returns a value with the text after it, or nothing. -/

/-- The digits at the front of the text, and the text after them. -/
def digits (value? : Char → Option Nat) : List Char → List Nat × List Char
  | [] => ([], [])
  | c :: rest =>
    match value? c with
    | some d => let (ds, after) := digits value? rest; (d :: ds, after)
    | none => ([], c :: rest)

/-- A group: one to four hexadecimal digits. -/
def group (text : List Char) : Option (Nat × List Char) :=
  let (ds, rest) := digits Hex.value? text
  if 1 ≤ ds.length ∧ ds.length ≤ 4 then some (ds.foldl (16 * · + ·) 0, rest) else none

/-- A decimal octet: one to three digits without zeros in front, at most 255. -/
def octet (text : List Char) : Option (Nat × List Char) :=
  let (ds, rest) := digits Decimal.digit? text
  let value := ds.foldl (10 * · + ·) 0
  if 1 ≤ ds.length ∧ ds.length ≤ 3 ∧ (ds.head? = some 0 → ds.length = 1) ∧ value ≤ 255 then
    some (value, rest)
  else none

/-- The text after a character that must stand first. -/
def expect (c : Char) : List Char → Option (List Char)
  | d :: rest => if d = c then some rest else none
  | [] => none

/-- The last two groups as four decimal octets with points between. -/
def dotted (text : List Char) : Option ((Nat × Nat) × List Char) := do
  let (a, text) ← octet text
  let (b, text) ← octet (← expect '.' text)
  let (c, text) ← octet (← expect '.' text)
  let (d, text) ← octet (← expect '.' text)
  return ((256 * a + b, 256 * c + d), text)

/-- Up to `slots` groups with colons between, as many as the text holds, and whether the last two
were spelled as decimal octets. Every group but the first of the address side needs its colon. -/
def run : (slots : Nat) → (isFirst : Bool) → List Char → Groups × Bool × List Char
  | 0, _, text => ([], false, text)
  | slots + 1, isFirst, text =>
    let start := if isFirst then some text else expect ':' text
    match if slots = 0 then none else start.bind dotted with
    | some ((high, low), rest) => ([high, low], true, rest)
    | none =>
      match start.bind group with
      | some (value, rest) =>
        let (values, isDotted, rest) := run slots false rest
        (value :: values, isDotted, rest)
      | none => ([], false, text)

/-- The groups of an address, if the whole text is one. -/
def read (text : String) : Option Groups :=
  let (front, isDotted, rest) := run 8 true text.toList
  if front.length = 8 then
    if rest.isEmpty then some front else none
  else if isDotted then none
  else
    match rest with
    | ':' :: ':' :: rest =>
      let (back, _, rest) := run (7 - front.length) true rest
      if rest.isEmpty then
        some (front ++ List.replicate (8 - front.length - back.length) 0 ++ back)
      else none
    | _ => none

end Ipv6

end MeshControl.Text
