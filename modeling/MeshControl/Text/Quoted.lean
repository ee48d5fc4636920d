import MeshControl.Text.Hidden
import MeshControl.Text.Utf8
/-!
Text between quotes, as it stands inside messages. The delimiting quote, the backslash and the
usual controls are written with a backslash, and every hidden character by its code point in
hexadecimal between braces.
-/

namespace MeshControl.Text

/-- A character inside quotes of the given kind. -/
def escaped (quote c : Char) : List Char :=
  if c = '\x00' then ['\\', '0']
  else if c = '\t' then ['\\', 't']
  else if c = '\r' then ['\\', 'r']
  else if c = '\n' then ['\\', 'n']
  else if c = '\\' ∨ c = quote then ['\\', c]
  else if isHidden c then
    ['\\', 'u', '\x7b'] ++ Nat.toDigits 16 c.toNat ++ ['\x7d']
  else [c]

def quoted (text : String) : String :=
  String.ofList ('"' :: text.toList.flatMap (escaped '"') ++ ['"'])

def quotedChar (c : Char) : String :=
  String.ofList ('\'' :: escaped '\'' c ++ ['\''])

end MeshControl.Text
