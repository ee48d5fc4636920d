import MeshControl.Text.Decimal
import MeshControl.Text.Ipv6
/-!
Mesh prefixes: the first eight bytes of an address, and their text form with a length behind a
slash. Reading takes any address text, keeps its first half and reads a missing length as 64.
-/

namespace MeshControl

/-- The first eight bytes of an IPv6 address. -/
structure MeshPrefix where
  bytes : Bytes
  length_bytes : bytes.length = 8
deriving DecidableEq

/-- A prefix with the number of its bits that count, and how it is to be used on the mesh. -/
structure OnMeshPrefix where
  meshPrefix : MeshPrefix
  length : UInt8
  /-- Nodes may configure their own addresses from it. -/
  slaac : Bool
  /-- Its addresses are on the mesh. -/
  onMesh : Bool
  /-- It belongs to the stable network data. -/
  stable : Bool
deriving DecidableEq

namespace MeshPrefix

/-- The number of bytes of a mesh prefix. -/
def size : Nat := 8

/-- The longest length that a mesh prefix can have. -/
def maxLength : Nat := 64

def ofBytes? (bytes : Bytes) : Option MeshPrefix :=
  if h : bytes.length = size then some ⟨bytes, h⟩ else none

@[simp] theorem ofBytes?_bytes (meshPrefix : MeshPrefix) :
    ofBytes? meshPrefix.bytes = some meshPrefix := by
  simp [ofBytes?, meshPrefix.length_bytes, size]

/-- Bytes that make a prefix are its bytes. -/
theorem bytes_of_ofBytes? {bytes : Bytes} {meshPrefix : MeshPrefix}
    (h : ofBytes? bytes = some meshPrefix) : meshPrefix.bytes = bytes := by
  unfold ofBytes? at h
  split at h
  · simp only [Option.some.injEq] at h
    subst h
    rfl
  · simp at h

/-- The words of two bytes that bytes are made of. -/
def words : Bytes → List Nat
  | high :: low :: rest => BigEndian.value [high, low] :: words rest
  | _ => []

/-- The groups of the address that a prefix begins and zeros fill up. -/
def groups (meshPrefix : MeshPrefix) : Text.Ipv6.Groups :=
  words meshPrefix.bytes ++ [0, 0, 0, 0]

/-- The prefix that an address begins with. -/
def ofGroups? (groups : Text.Ipv6.Groups) : Option MeshPrefix :=
  ofBytes? ((groups.take 4).flatMap (BigEndian.digits 2))

def render (meshPrefix : MeshPrefix) (length : UInt8) : String :=
  Text.Ipv6.render meshPrefix.groups ++ "/" ++ toString length.toNat

/-- Why text is no prefix with a length. -/
inductive Flaw where
  | badAddress (text : String)
  | badLength (text : String) (flaw : Text.Decimal.Flaw)
  | tooLong (length : Nat)
deriving DecidableEq, Repr

def Flaw.message : Flaw → String
  | .badAddress text => s!"Invalid IPv6 prefix: {text}"
  | .badLength text _ => s!"Invalid prefix length: {text}"
  | .tooLong length => s!"Prefix length {length} is longer than a mesh prefix ({maxLength})"

def Flaw.causes : Flaw → List String
  | .badAddress _ => ["invalid IPv6 address syntax"]
  | .badLength _ flaw => [flaw.message]
  | .tooLong _ => []

/-- The text before the first slash, and the text after it. -/
def splitLength (text : String) : String × String :=
  match text.toList.dropWhile (· ≠ '/') with
  | [] => (text, "64")
  | _ :: length => (String.ofList (text.toList.takeWhile (· ≠ '/')), String.ofList length)

/-- Reads an address and a length into the prefix and its length. -/
def read (text : String) : Except Flaw (MeshPrefix × UInt8) :=
  let (address, length) := splitLength text
  match (Text.Ipv6.read address).bind ofGroups? with
  | none => .error (.badAddress address)
  | some meshPrefix =>
    match Text.Decimal.readUpTo 255 length with
    | .error flaw => .error (.badLength length flaw)
    | .ok bits =>
      if maxLength < bits then .error (.tooLong bits)
      else .ok (meshPrefix, UInt8.ofNat bits)

end MeshPrefix

end MeshControl
