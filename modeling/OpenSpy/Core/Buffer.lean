import OpenSpy.Library.Ascii

/-!
# `OS::Buffer`

A buffer is the list of bytes before its read cursor and the list of bytes from there to its
write cursor, so the cursors are never out of order.
-/

namespace OpenSpy

/-- `OS::Buffer`: the bytes written, cut at the read cursor. The allocation is not modelled. -/
structure Buffer where
  read : Bytes
  unread : Bytes
  deriving DecidableEq, Repr

namespace Buffer

/-- `Buffer::Buffer()` and `resetCursors`: no bytes. -/
def empty : Buffer := ⟨[], []⟩

/-- `Buffer::readRemaining`. -/
def readRemaining (buffer : Buffer) : Nat :=
  buffer.unread.length

/-- `Buffer::WriteBuffer`. -/
def writeBuffer (buffer : Buffer) (bytes : Bytes) : Buffer :=
  { buffer with unread := buffer.unread ++ bytes }

/-- `Buffer::SkipRead`. -/
def skipRead (buffer : Buffer) (len : Nat) : Buffer :=
  { read := buffer.read ++ buffer.unread.take len
    unread := buffer.unread.drop len }

/-- `Buffer::ReadShort` on a little-endian host: 0, without moving the cursor, if fewer than
two bytes are left. -/
def readShort (buffer : Buffer) : Nat × Buffer :=
  match buffer.unread with
  | first :: second :: _ => (first.toNat + 256 * second.toNat, buffer.skipRead 2)
  | _ => (0, buffer)

/-- `Buffer::ReadByte`. -/
def readByte (buffer : Buffer) : UInt8 × Buffer :=
  match buffer.unread with
  | byte :: _ => (byte, buffer.skipRead 1)
  | [] => (0, buffer)

/-- `Buffer::ReadInt`: the four bytes as they lie in memory. -/
def readInt (buffer : Buffer) : Bytes × Buffer :=
  if buffer.readRemaining < 4 then ([0, 0, 0, 0], buffer)
  else (buffer.unread.take 4, buffer.skipRead 4)

theorem read_byte_unread (buffer : Buffer) : buffer.readByte.2.unread = buffer.unread.drop 1 := by
  obtain ⟨read, unread⟩ := buffer
  cases unread <;> rfl

theorem read_int_length (buffer : Buffer) : buffer.readInt.1.length = 4 := by
  unfold readInt readRemaining
  split
  · rfl
  · rw [List.length_take]
    omega

/-- An integer that is not there is not read. -/
theorem read_int_unread_length (buffer : Buffer) :
    buffer.readInt.2.unread.length =
      if buffer.unread.length < 4 then buffer.unread.length else buffer.unread.length - 4 := by
  unfold readInt readRemaining
  split
  · rfl
  · rw [skipRead, List.length_drop]

/-- `Buffer::ReadBuffer`: the bytes for the target, which is left as it is if there are too
few. -/
def readBuffer (buffer : Buffer) (len : Nat) : Option Bytes × Buffer :=
  if buffer.readRemaining < len then (none, buffer)
  else (some (buffer.unread.take len), buffer.skipRead len)

/-- `Buffer::ReadNTS`. The loop only stops at a NUL, which may be `behind` the bytes that were
written. -/
def readNTS (buffer : Buffer) (behind : Bytes) : Bytes × Buffer :=
  if buffer.readRemaining < 1 then ([], buffer)
  else
    let ret := (buffer.unread ++ behind).takeWhile (· ≠ 0)
    (ret, buffer.skipRead (ret.length + 1))

end Buffer

/-- `htons` on a little-endian host: the two bytes are swapped. -/
def htons (value : Nat) : Nat :=
  value % 256 * 256 + value / 256 % 256

end OpenSpy
