/-!
# Buffers

Bytes that are collected piece by piece.  They are kept in reverse, so that adding a piece takes no
longer than the piece is.
-/

set_option autoImplicit false

namespace OpcodeTable

/-- Collected bytes, the last one first. -/
structure Buffer where
  reversed : List UInt8 := []
deriving DecidableEq, Repr

namespace Buffer

/-- The bytes in order. -/
def bytes (buffer : Buffer) : List UInt8 :=
  buffer.reversed.reverse

/-- The number of bytes. -/
def size (buffer : Buffer) : Nat :=
  buffer.reversed.length

/-- The buffer that holds these bytes. -/
def ofBytes (bytes : List UInt8) : Buffer :=
  ⟨bytes.reverse⟩

/-- Adds bytes behind the others. -/
def add (buffer : Buffer) (bytes : List UInt8) : Buffer :=
  ⟨bytes.reverse ++ buffer.reversed⟩

@[simp] theorem bytes_empty : ({} : Buffer).bytes = [] := rfl

@[simp] theorem bytes_ofBytes (bytes : List UInt8) : (ofBytes bytes).bytes = bytes := by
  simp [ofBytes, Buffer.bytes]

@[simp] theorem bytes_add (buffer : Buffer) (bytes : List UInt8) :
    (buffer.add bytes).bytes = buffer.bytes ++ bytes := by
  simp [add, Buffer.bytes]

theorem size_eq_length (buffer : Buffer) : buffer.size = buffer.bytes.length := by
  simp [size, Buffer.bytes]

end Buffer

end OpcodeTable
