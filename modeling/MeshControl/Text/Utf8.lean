import MeshControl.Bytes.BigEndian
/-!
UTF-8 text among bytes. `Utf8.read` accepts exactly the encodings of texts; for any other bytes it
tells where the first sequence starts that spells no character, and how much of it could still have
been the beginning of one.
-/

namespace MeshControl

namespace Utf8

/-- Why bytes are not the encoding of a text. -/
inductive Flaw where
  /-- The `length` bytes from `index` on begin no character whatever follows them. -/
  | malformed (index length : Nat)
  /-- The bytes from `index` on begin a character that the end cuts off. -/
  | cutOff (index : Nat)
deriving DecidableEq, Repr

def Flaw.message : Flaw → String
  | .malformed index length => s!"invalid utf-8 sequence of {length} bytes from index {index}"
  | .cutOff index => s!"incomplete utf-8 byte sequence from index {index}"

/-- The ranges that the bytes after a leading byte must lie in, or `none` for a byte that leads no
character. The narrow second ranges exclude overlong forms, surrogates and code points past the
last one. -/
def followers (lead : UInt8) : Option (List (UInt8 × UInt8)) :=
  if lead < 0x80 then some []
  else if lead < 0xc2 then none
  else if lead < 0xe0 then some [(0x80, 0xbf)]
  else if lead = 0xe0 then some [(0xa0, 0xbf), (0x80, 0xbf)]
  else if lead = 0xed then some [(0x80, 0x9f), (0x80, 0xbf)]
  else if lead < 0xf0 then some [(0x80, 0xbf), (0x80, 0xbf)]
  else if lead = 0xf0 then some [(0x90, 0xbf), (0x80, 0xbf), (0x80, 0xbf)]
  else if lead < 0xf4 then some [(0x80, 0xbf), (0x80, 0xbf), (0x80, 0xbf)]
  else if lead = 0xf4 then some [(0x80, 0x8f), (0x80, 0xbf), (0x80, 0xbf)]
  else none

/-- The first flaw, given that a character started at `start`, that `taken` of its bytes were seen
and that `pending` are the ranges of the bytes it still lacks. -/
def scan (start taken : Nat) : List (UInt8 × UInt8) → Bytes → Option Flaw
  | [], [] => none
  | _ :: _, [] => some (.cutOff start)
  | [], byte :: rest =>
    match followers byte with
    | none => some (.malformed start 1)
    | some [] => scan (start + 1) 0 [] rest
    | some pending => scan start 1 pending rest
  | (low, high) :: pending, byte :: rest =>
    if low ≤ byte ∧ byte ≤ high then
      match pending with
      | [] => scan (start + taken + 1) 0 [] rest
      | _ => scan start (taken + 1) pending rest
    else some (.malformed start taken)

/-- The first flaw of bytes that encode no text. -/
def flaw (bytes : Bytes) : Flaw :=
  (scan 0 0 [] bytes).getD (.cutOff bytes.length)

/-- The text that bytes encode. -/
def read (bytes : Bytes) : Except Flaw String :=
  match String.fromUTF8? ⟨bytes.toArray⟩ with
  | some text => .ok text
  | none => .error (flaw bytes)

/-- The encoding of a text. -/
def write (text : String) : Bytes :=
  text.toByteArray.data.toList

/-- A written text reads back. -/
@[simp] theorem read_write (text : String) : read (write text) = .ok text := by
  have h : (⟨(write text).toArray⟩ : ByteArray) = text.toByteArray := by
    simp [write]
  simp [read, h, String.fromUTF8?, String.fromUTF8, text.isValidUTF8]

/-- Bytes that read as a text are its encoding. -/
theorem write_eq_of_read {bytes : Bytes} {text : String} (h : read bytes = .ok text) :
    write text = bytes := by
  unfold read at h
  split at h
  · rename_i found hfound
    obtain rfl : found = text := by simpa using h
    unfold String.fromUTF8? at hfound
    split at hfound
    · simp only [Option.some.injEq] at hfound
      subst hfound
      simp [write, String.fromUTF8]
    · simp at hfound
  · simp at h

end Utf8

end MeshControl
