/-!
Decimal numerals as arguments spell them: ASCII digits after an optional sign. Reading runs from
the left, so of two faults the leftmost is reported, and within one step a character that is no
digit goes before a value that has grown too large.
-/

namespace MeshControl.Text

namespace Decimal

/-- Why text is not a numeral in range. -/
inductive Flaw where
  | empty
  | badDigit
  | tooLarge
deriving DecidableEq, Repr

def Flaw.message : Flaw → String
  | .empty => "cannot parse integer from empty string"
  | .badDigit => "invalid digit found in string"
  | .tooLarge => "number too large to fit in target type"

def digit? (c : Char) : Option Nat :=
  if '0' ≤ c ∧ c ≤ '9' then some (c.toNat - 48) else none

/-- Continues a numeral with value `sum` over further digits, up to the limit. -/
def digitsUpTo (limit : Nat) (sum : Nat) : List Char → Except Flaw Nat
  | [] => .ok sum
  | c :: rest =>
    match digit? c with
    | none => .error .badDigit
    | some d =>
      if sum * 10 + d ≤ limit then digitsUpTo limit (sum * 10 + d) rest else .error .tooLarge

/-- Reads a numeral of at most `limit`, with an optional plus sign. -/
def readUpTo (limit : Nat) (text : String) : Except Flaw Nat :=
  match text.toList with
  | [] => .error .empty
  | ['+'] => .error .badDigit
  | '+' :: digits => digitsUpTo limit 0 digits
  | digits => digitsUpTo limit 0 digits

/-- Reads a numeral with an optional sign whose value, the sign counted in, is from zero up to
`limit`: after a minus only zero is left. -/
def readSignedUpTo (limit : Nat) (text : String) : Except Flaw Nat :=
  match text.toList with
  | '-' :: c :: digits => digitsUpTo 0 0 (c :: digits)
  | _ => readUpTo limit text

end Decimal

end MeshControl.Text
