import MeshControl.Text.Quoted
/-!
Bytes as hexadecimal text. Written bytes are two lower-case digits each with a colon between; read
text may be in either case and its colons are skipped wherever they stand. Main statements:
`value?_digit` ties the two digit maps, and `pairs?_spell` reads back what `spell` writes.
-/

namespace MeshControl.Text

namespace Hex

/-- The digit of a value below sixteen, lower case. -/
def digit (n : Nat) : Char :=
  if n < 10 then Char.ofNat (48 + n) else Char.ofNat (87 + n)

/-- The value of a digit, in either case. -/
def value? (c : Char) : Option Nat :=
  if '0' ≤ c ∧ c ≤ '9' then some (c.toNat - 48)
  else if 'a' ≤ c ∧ c ≤ 'f' then some (c.toNat - 87)
  else if 'A' ≤ c ∧ c ≤ 'F' then some (c.toNat - 55)
  else none

def pair (byte : UInt8) : List Char :=
  [digit (byte.toNat / 16), digit (byte.toNat % 16)]

/-- The digits of bytes with nothing between them. -/
def spell (bytes : Bytes) : List Char :=
  bytes.flatMap pair

/-- Bytes as pairs of digits with a colon between neighbours. -/
def dump (bytes : Bytes) : String :=
  ":".intercalate (bytes.map fun byte => String.ofList (pair byte))

/-- At least `width` lower-case digits of a number, with zeros in front. -/
def padded (width n : Nat) : String :=
  let digits := Nat.toDigits 16 n
  String.ofList (List.replicate (width - digits.length) '0' ++ digits)

/-- Why text spells no bytes. -/
inductive Flaw where
  /-- The text has an odd number of bytes. -/
  | oddLength
  /-- The byte at `index` is no digit. -/
  | badDigit (byte : UInt8) (index : Nat)
deriving DecidableEq, Repr

/-- The flaw in words. The byte is shown as the character with its value. -/
def Flaw.message : Flaw → String
  | .oddLength => "Odd number of digits"
  | .badDigit byte index =>
    s!"Invalid character {quotedChar (Char.ofNat byte.toNat)} at position {index}"

/-- Reads two digits to a byte. -/
def pairs? : List Char → Option Bytes
  | [] => some []
  | [_] => none
  | high :: low :: rest =>
    match value? high, value? low with
    | some h, some l => (pairs? rest).map (UInt8.ofNat (16 * h + l) :: ·)
    | _, _ => none

/-- The flaw of text that does not read as pairs of digits: an odd number of bytes goes before a
byte that is no digit. -/
def flaw (digits : List Char) : Flaw :=
  let bytes := Utf8.write (String.ofList digits)
  if bytes.length % 2 = 1 then .oddLength
  else
    match bytes.zipIdx.find? fun (byte, _) => (value? (Char.ofNat byte.toNat)).isNone with
    | some (byte, index) => .badDigit byte index
    | none => .oddLength

/-- Reads pairs of digits, skipping every colon. -/
def read (text : String) : Except Flaw Bytes :=
  let digits := text.toList.filter (· ≠ ':')
  match pairs? digits with
  | some bytes => .ok bytes
  | none => .error (flaw digits)

/-- A written digit has the value that it was written for. -/
theorem value?_digit {n : Nat} (h : n < 16) : value? (digit n) = some n := by
  have all : ∀ m : Fin 16, value? (digit m) = some m.val := by decide
  exact all ⟨n, h⟩

/-- Spelled bytes read back. -/
theorem pairs?_spell (bytes : Bytes) : pairs? (spell bytes) = some bytes := by
  induction bytes with
  | nil => rfl
  | cons byte rest ih =>
    have hb := byte.toNat_lt
    have hhigh := value?_digit (n := byte.toNat / 16) (by omega)
    have hlow := value?_digit (n := byte.toNat % 16) (by omega)
    have hbyte : UInt8.ofNat (16 * (byte.toNat / 16) + byte.toNat % 16) = byte := by
      apply UInt8.toNat_inj.mp
      simp only [UInt8.toNat_ofNat']
      omega
    have hspell : spell (byte :: rest) =
        digit (byte.toNat / 16) :: digit (byte.toNat % 16) :: spell rest := by
      simp [spell, pair]
    rw [hspell, pairs?, hhigh, hlow]
    simp [ih, hbyte]

end Hex

end MeshControl.Text
