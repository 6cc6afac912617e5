import OpenSpy.Core.Buffer
import OpenSpy.Library.Decimal
import OpenSpy.Library.LittleEndian
import OpenSpy.Library.Runs

/-!
# The storage of `OS::Buffer`

A `Storage` is an `OS::Buffer` with its block of memory and its cursors into the block, as offsets
from `_head`. `view` is the `Buffer` that it stands for while the cursors are in order. Two things
break the order: a block that grows gets its read cursor from what is left to read
(`Ordered.realloc_buffer`), and a string is read up to a NUL, which has to be in what is left
(`Ordered.read_nts_stops`).
-/

namespace OpenSpy

open Bytes Runs

/-- `OS::Buffer` and its `BufferCtx`. `memory` is what can be read from `_head` on: the block of
`alloc_size` bytes, and what lies behind it. -/
structure Storage where
  memory : Bytes
  allocSize : Nat
  pointerOwner : Bool
  readCursor : Nat
  writeCursor : Nat
  writeCursorLast : Nat
  deriving DecidableEq

namespace Storage

variable (s : Storage)

/-- `Buffer::Buffer(alloc_size)`, for what `malloc` finds in the memory. -/
def ofSize (memory : Bytes) (allocSize : Nat) : Storage :=
  ⟨memory, allocSize, true, 0, 0, 0⟩

/-- `Buffer::bytesWritten`. -/
def bytesWritten : Nat :=
  s.writeCursor

/-- `Buffer::readRemaining`: the difference of two addresses as a `size_t`. -/
def readRemaining : Nat :=
  if s.readCursor ≤ s.bytesWritten then s.bytesWritten - s.readCursor
  else 2 ^ 64 - (s.readCursor - s.bytesWritten)

/-- `Buffer::resetCursors`. -/
def resetCursors : Storage :=
  { s with writeCursor := 0, writeCursorLast := 0, readCursor := 0 }

/-- `Buffer::SetReadCursor`. -/
def setReadCursor (len : Nat) : Storage :=
  if len > s.allocSize then s else { s with readCursor := len }

/-- `Buffer::SetWriteCursor`. -/
def setWriteCursor (len : Nat) : Storage :=
  if len > s.allocSize then s else { s with writeCursor := len }

/-- `Buffer::IncReadCursor`. -/
def incReadCursor (len : Nat) : Storage :=
  { s with readCursor := s.readCursor + len }

/-- `Buffer::realloc_buffer`. The block is kept, and `fresh` is found behind it. -/
def reallocBuffer (fresh : Bytes) (newSize : Nat) : Storage :=
  if !s.pointerOwner then s
  else
    let writeOffset := s.bytesWritten
    -- what is left to read, not what has been read
    let readOffset := s.readRemaining
    let grown :=
      { s with
        memory := s.memory.take s.allocSize ++ fresh
        allocSize := writeOffset + newSize }
    (grown.resetCursors.setWriteCursor writeOffset).setReadCursor readOffset

/-- `Buffer::IncWriteCursor`. -/
def incWriteCursor (fresh : Bytes) (len : Nat) : Storage :=
  let s := if s.bytesWritten + len ≥ s.allocSize then s.reallocBuffer fresh (512 + len) else s
  { s with writeCursorLast := s.writeCursor, writeCursor := s.writeCursor + len }

/-- A store at `_write_cursor_last`. -/
def store (bytes : Bytes) : Storage :=
  { s with
    memory := s.memory.take s.writeCursorLast ++ bytes ++
      s.memory.drop (s.writeCursorLast + bytes.length) }

/-- `Buffer::WriteBuffer`. `fresh` is what a block that has to grow finds behind it. -/
def writeBuffer (fresh bytes : Bytes) : Storage :=
  (s.incWriteCursor fresh bytes.length).store bytes

/-- `Buffer::WriteByte`. -/
def writeByte (fresh : Bytes) (byte : UInt8) : Storage :=
  (s.incWriteCursor fresh 1).store [byte]

/-- `Buffer::WriteShort`, for a little-endian host. -/
def writeShort (fresh : Bytes) (value : UInt16) : Storage :=
  (s.incWriteCursor fresh 2).store (LittleEndian.toBytes 2 value.toNat)

/-- `Buffer::WriteInt`. -/
def writeInt (fresh : Bytes) (value : UInt32) : Storage :=
  (s.incWriteCursor fresh 4).store (LittleEndian.toBytes 4 value.toNat)

/-- `Buffer::WriteLong`. -/
def writeLong (fresh : Bytes) (value : UInt64) : Storage :=
  (s.incWriteCursor fresh 8).store (LittleEndian.toBytes 8 value.toNat)

/-- `Buffer::WriteFloat`, for the bits of the number. -/
def writeFloat (fresh : Bytes) (bits : UInt32) : Storage :=
  (s.incWriteCursor fresh 4).store (LittleEndian.toBytes 4 bits.toNat)

/-- `Buffer::WriteDouble`, for the bits of the number. -/
def writeDouble (fresh : Bytes) (bits : UInt64) : Storage :=
  (s.incWriteCursor fresh 8).store (LittleEndian.toBytes 8 bits.toNat)

/-- `Buffer::WriteNTS`. -/
def writeNTS (fresh str : Bytes) : Storage :=
  if str.length ≠ 0 then (s.incWriteCursor fresh (str.length + 1)).store (str ++ [0])
  else s.writeByte fresh 0

/-- The reads of a type of the given size: its bytes, and none if there are too few. -/
def readFixed (size : Nat) : Option Bytes × Storage :=
  if s.readRemaining < size then (none, s)
  else (some ((s.memory.drop s.readCursor).take size), s.incReadCursor size)

/-- The number of the bytes that are read, and 0 if there are too few. -/
def readNumber (size : Nat) : Nat × Storage :=
  match s.readFixed size with
  | (none, s) => (0, s)
  | (some bytes, s) => (LittleEndian.toNat bytes, s)

/-- `Buffer::ReadByte`. -/
def readByte : UInt8 × Storage :=
  (.ofNat (s.readNumber 1).1, (s.readNumber 1).2)

/-- `Buffer::ReadShort`, for a little-endian host. -/
def readShort : UInt16 × Storage :=
  (.ofNat (s.readNumber 2).1, (s.readNumber 2).2)

/-- `Buffer::ReadInt`. -/
def readInt : UInt32 × Storage :=
  (.ofNat (s.readNumber 4).1, (s.readNumber 4).2)

/-- `Buffer::ReadLong`. -/
def readLong : UInt64 × Storage :=
  (.ofNat (s.readNumber 8).1, (s.readNumber 8).2)

/-- `Buffer::ReadFloat`, with the bits of the number. -/
def readFloat : UInt32 × Storage :=
  (.ofNat (s.readNumber 4).1, (s.readNumber 4).2)

/-- `Buffer::ReadDouble`, with the bits of the number. -/
def readDouble : UInt64 × Storage :=
  (.ofNat (s.readNumber 8).1, (s.readNumber 8).2)

/-- `Buffer::ReadNTS`. The loop does not move the cursor that `readRemaining` looks at, so that it
only stops at a NUL; there is no answer if the memory ends before one. -/
def readNTS : Option (Bytes × Storage) :=
  if s.readRemaining < 1 then some ([], s)
  else
    let rest := s.memory.drop s.readCursor
    if 0 ∈ rest then
      let ret := rest.takeWhile (· ≠ 0)
      some (ret, s.incReadCursor (ret.length + 1))
    else none

/-- `Buffer::ReadBuffer` into `out`, which is left as it is if there are too few bytes. -/
def readBuffer (out : Bytes) : Bytes × Storage :=
  match s.readFixed out.length with
  | (none, s) => (out, s)
  | (some bytes, s) => (bytes, s)

/-- The buffer that the cursors cut the memory into. -/
def view : Buffer :=
  ⟨s.memory.take s.readCursor, (s.memory.take s.writeCursor).drop s.readCursor⟩

/-- The cursors are in order, and the written part is there. -/
structure Ordered : Prop where
  read : s.readCursor ≤ s.writeCursor
  written : s.writeCursor ≤ s.memory.length

end Storage

/-- What can be written, with the bits of a `float` and of a `double`. -/
inductive BufferValue where
  | byte (value : UInt8)
  | short (value : UInt16)
  | int (value : UInt32)
  | long (value : UInt64)
  | float (bits : UInt32)
  | double (bits : UInt64)
  | nts (str : Bytes)
  | buffer (bytes : Bytes)
  deriving DecidableEq

/-- The reads, `ReadBuffer` with its target. -/
inductive BufferRead where
  | byte | short | int | long | float | double | nts
  | buffer (out : Bytes)
  deriving DecidableEq

/-- A read asks for the type of a value. -/
def BufferRead.asksFor : BufferRead → BufferValue → Bool
  | .byte, .byte _ => true
  | .short, .short _ => true
  | .int, .int _ => true
  | .long, .long _ => true
  | .float, .float _ => true
  | .double, .double _ => true
  | .nts, .nts _ => true
  | .buffer out, .buffer bytes => out.length == bytes.length
  | _, _ => false

/-- The bytes of a value. -/
def BufferValue.bytes : BufferValue → Bytes
  | .byte value => [value]
  | .short value => LittleEndian.toBytes 2 value.toNat
  | .int value => LittleEndian.toBytes 4 value.toNat
  | .long value => LittleEndian.toBytes 8 value.toNat
  | .float bits => LittleEndian.toBytes 4 bits.toNat
  | .double bits => LittleEndian.toBytes 8 bits.toNat
  | .nts str => str ++ [0]
  | .buffer bytes => bytes

/-- A string that ends where it is meant to. -/
def BufferValue.endsAtNul : BufferValue → Prop
  | .nts str => 0 ∉ str
  | _ => True

instance (value : BufferValue) : Decidable value.endsAtNul := by
  unfold BufferValue.endsAtNul
  split <;> infer_instance

/-- The `Write` of a value. -/
def Storage.write (s : Storage) (fresh : Bytes) : BufferValue → Storage
  | .byte value => s.writeByte fresh value
  | .short value => s.writeShort fresh value
  | .int value => s.writeInt fresh value
  | .long value => s.writeLong fresh value
  | .float bits => s.writeFloat fresh bits
  | .double bits => s.writeDouble fresh bits
  | .nts str => s.writeNTS fresh str
  | .buffer bytes => s.writeBuffer fresh bytes

/-- A read with what it returns. -/
def Storage.read (s : Storage) : BufferRead → Option (BufferValue × Storage)
  | .byte => some (.byte s.readByte.1, s.readByte.2)
  | .short => some (.short s.readShort.1, s.readShort.2)
  | .int => some (.int s.readInt.1, s.readInt.2)
  | .long => some (.long s.readLong.1, s.readLong.2)
  | .float => some (.float s.readFloat.1, s.readFloat.2)
  | .double => some (.double s.readDouble.1, s.readDouble.2)
  | .nts => s.readNTS.map fun (str, s) => (.nts str, s)
  | .buffer out => some (.buffer (s.readBuffer out).1, (s.readBuffer out).2)

namespace Storage

variable {s : Storage}

theorem read_remaining_eq (h : s.readCursor ≤ s.writeCursor) :
    s.readRemaining = s.writeCursor - s.readCursor :=
  if_pos h

/-- What is left to read is as long as it should be. -/
theorem Ordered.unread_length (h : s.Ordered) :
    s.view.unread.length = s.writeCursor - s.readCursor := by
  have hread := h.read
  have hwritten := h.written
  simp only [view, List.length_drop, List.length_take]
  omega

/-- The memory from the read cursor on begins with what is left to read. -/
theorem Ordered.memory_drop (h : s.Ordered) :
    s.memory.drop s.readCursor = s.view.unread ++ s.memory.drop s.writeCursor := by
  have hlen : s.readCursor ≤ (s.memory.take s.writeCursor).length := by
    rw [List.length_take]
    exact le_min h.read (h.read.trans h.written)
  conv_lhs => rw [← List.take_append_drop s.writeCursor s.memory]
  exact List.drop_append_of_le_length hlen

/-- Moving the read cursor, as in the buffer that it stands for. -/
theorem Ordered.inc_read_cursor (h : s.Ordered) {len : Nat}
    (hlen : len ≤ s.view.unread.length) :
    (s.incReadCursor len).Ordered ∧ (s.incReadCursor len).view = s.view.skipRead len := by
  have hread := h.read
  rw [h.unread_length] at hlen
  constructor
  · constructor
    · show s.readCursor + len ≤ s.writeCursor
      omega
    · exact h.written
  · have htake : s.memory.take (s.readCursor + len) =
        s.memory.take s.readCursor ++
          ((s.memory.take s.writeCursor).drop s.readCursor).take len := by
      rw [List.take_add, List.drop_take, List.take_take, min_eq_left hlen]
    simp only [view, incReadCursor, Buffer.skipRead, List.drop_drop, htake]

/-- A read of a size in an ordered buffer. -/
theorem Ordered.read_fixed (h : s.Ordered) (size : Nat) :
    s.readFixed size =
      if s.view.unread.length < size then (none, s)
      else (some (s.view.unread.take size), s.incReadCursor size) := by
  rw [readFixed, read_remaining_eq h.read, h.unread_length]
  split
  · rfl
  · next hlen =>
      rw [h.memory_drop, List.take_append_of_le_length (by rw [h.unread_length]; omega)]

/-- A number that is next is read. -/
theorem Ordered.read_number (h : s.Ordered) {width value : Nat} {rest : Bytes}
    (hvalue : value < 256 ^ width)
    (hnext : s.view.unread = LittleEndian.toBytes width value ++ rest) :
    s.readNumber width = (value, s.incReadCursor width) := by
  have hlen : ¬ s.view.unread.length < width := by
    rw [hnext, List.length_append, LittleEndian.to_bytes_length]
    omega
  rw [readNumber, h.read_fixed, if_neg hlen, hnext,
    List.take_left' (LittleEndian.to_bytes_length width value)]
  simp only [LittleEndian.to_nat_to_bytes hvalue]

/-- The bytes that are next are read into the target. -/
theorem Ordered.read_buffer (h : s.Ordered) {out bytes rest : Bytes}
    (hlen : out.length = bytes.length) (hnext : s.view.unread = bytes ++ rest) :
    s.readBuffer out = (bytes, s.incReadCursor bytes.length) := by
  have hle : ¬ s.view.unread.length < bytes.length := by simp [hnext]
  rw [readBuffer, hlen, h.read_fixed, if_neg hle, hnext, List.take_left' rfl]

/-- A string with its NUL that is next is read. -/
theorem Ordered.read_nts (h : s.Ordered) {str rest : Bytes} (hstr : 0 ∉ str)
    (hnext : s.view.unread = str ++ 0 :: rest) :
    s.readNTS = some (str, s.incReadCursor (str.length + 1)) := by
  have hlen : ¬ s.writeCursor - s.readCursor < 1 := by
    rw [← h.unread_length, hnext, List.length_append, List.length_cons]
    omega
  have htake (rest : Bytes) : (str ++ 0 :: rest).takeWhile (· ≠ 0) = str :=
    c_string_terminated hstr rest
  rw [readNTS, read_remaining_eq h.read, if_neg hlen, h.memory_drop, hnext, List.append_assoc,
    List.cons_append]
  simp only [htake]
  rw [if_pos (by simp)]

/-- A string that has a NUL somewhere in what is left to read ends at the first one. -/
theorem Ordered.read_nts_stops (h : s.Ordered) (hnul : 0 ∈ s.view.unread) :
    ∃ ret, s.readNTS = some (ret, s.incReadCursor (ret.length + 1)) ∧ 0 ∉ ret ∧
      ret.length < s.view.unread.length := by
  obtain ⟨before, after, hsplit, hbefore⟩ := List.eq_append_cons_of_mem hnul
  exact ⟨before, h.read_nts hbefore hsplit, hbefore, by simp [hsplit]⟩

/-- A value is written as its bytes. -/
theorem write_eq (s : Storage) (fresh : Bytes) (value : BufferValue) :
    s.write fresh value = (s.incWriteCursor fresh value.bytes.length).store value.bytes := by
  cases value with
  | nts str =>
      rw [write, writeNTS]
      split
      · simp [BufferValue.bytes]
      · next hempty =>
          obtain rfl : str = [] := by simpa using hempty
          rfl
  | byte value => rfl
  | short value => rfl
  | int value => rfl
  | long value => rfl
  | float bits => rfl
  | double bits => rfl
  | buffer bytes => rfl

/-- The block has no room for so many bytes. -/
def Grows (s : Storage) (len : Nat) : Prop :=
  s.bytesWritten + len ≥ s.allocSize

instance (s : Storage) (len : Nat) : Decidable (s.Grows len) :=
  inferInstanceAs (Decidable (_ ≥ _))

/-- A block that grows: what was written is kept, and the read cursor stands as far from the start
as it stood from the end. -/
theorem Ordered.realloc_buffer (h : s.Ordered) (howner : s.pointerOwner = true) (fresh : Bytes)
    (newSize : Nat) :
    s.reallocBuffer fresh newSize =
      { s with
        memory := s.memory.take s.allocSize ++ fresh
        allocSize := s.writeCursor + newSize
        readCursor := s.writeCursor - s.readCursor
        writeCursorLast := 0 } := by
  have hwrite : ¬ s.writeCursor > s.writeCursor + newSize := by omega
  have hread : ¬ s.writeCursor - s.readCursor > s.writeCursor + newSize := by omega
  simp only [reallocBuffer, howner, Bool.not_true, Bool.false_eq_true, if_false, bytesWritten,
    read_remaining_eq h.read, setWriteCursor, setReadCursor, resetCursors, if_neg hwrite,
    if_neg hread]

/-- The cursors where the bytes fit. -/
theorem inc_write_cursor_fits {len : Nat} (h : ¬ s.Grows len) (fresh : Bytes) :
    s.incWriteCursor fresh len =
      { s with writeCursorLast := s.writeCursor, writeCursor := s.writeCursor + len } := by
  have hfits : ¬ s.bytesWritten + len ≥ s.allocSize := h
  simp only [incWriteCursor, if_neg hfits]

/-- The cursors where the block has to grow. -/
theorem Ordered.inc_write_cursor_grows (h : s.Ordered) (howner : s.pointerOwner = true)
    {len : Nat} (hgrows : s.Grows len) (fresh : Bytes) :
    s.incWriteCursor fresh len =
      { s with
        memory := s.memory.take s.allocSize ++ fresh
        allocSize := s.writeCursor + (512 + len)
        readCursor := s.writeCursor - s.readCursor
        writeCursorLast := s.writeCursor
        writeCursor := s.writeCursor + len } := by
  have hfull : s.bytesWritten + len ≥ s.allocSize := hgrows
  simp only [incWriteCursor, if_pos hfull, h.realloc_buffer howner]

/-- A block that the buffer owns, with room for what is written. -/
structure Owning (s : Storage) : Prop extends s.Ordered where
  owner : s.pointerOwner = true
  room : s.writeCursor ≤ s.allocSize

/-- Writing behind what was written. -/
theorem Owning.write (h : s.Owning) (fresh : Bytes) (value : BufferValue) :
    (s.write fresh value).Owning ∧
      (s.write fresh value).writeCursor = s.writeCursor + value.bytes.length ∧
      (s.write fresh value).readCursor =
        (if s.Grows value.bytes.length then s.writeCursor - s.readCursor else s.readCursor) ∧
      (s.write fresh value).memory.take (s.writeCursor + value.bytes.length) =
        s.memory.take s.writeCursor ++ value.bytes := by
  have hread := h.read
  have hwritten := h.written
  have hroom := h.room
  rw [write_eq]
  generalize value.bytes = bytes
  -- the bytes behind the written part of a memory that begins as the old one did
  have hstore : ∀ memory : Bytes, s.memory.take s.writeCursor = memory.take s.writeCursor →
      s.writeCursor ≤ memory.length →
      (memory.take s.writeCursor ++ bytes ++ memory.drop (s.writeCursor + bytes.length)).take
          (s.writeCursor + bytes.length) = s.memory.take s.writeCursor ++ bytes ∧
        s.writeCursor + bytes.length ≤ (memory.take s.writeCursor ++ bytes ++
          memory.drop (s.writeCursor + bytes.length)).length := by
    intro memory hsame hlen
    have hfront : (memory.take s.writeCursor ++ bytes).length = s.writeCursor + bytes.length := by
      rw [List.length_append, List.length_take, min_eq_left hlen]
    rw [List.take_left' hfront, hsame]
    refine ⟨rfl, ?_⟩
    rw [List.length_append, hfront]
    exact Nat.le_add_right _ _
  by_cases hgrows : s.Grows bytes.length
  · have hkept : s.memory.take s.writeCursor =
        (s.memory.take s.allocSize ++ fresh).take s.writeCursor := by
      rw [List.take_append_of_le_length (by rw [List.length_take]; omega), List.take_take,
        min_eq_left hroom]
    have hlen : s.writeCursor ≤ (s.memory.take s.allocSize ++ fresh).length := by
      rw [List.length_append, List.length_take]
      omega
    obtain ⟨htake, hle⟩ := hstore _ hkept hlen
    rw [h.inc_write_cursor_grows h.owner hgrows, if_pos hgrows]
    refine ⟨⟨⟨?_, hle⟩, h.owner, ?_⟩, rfl, rfl, htake⟩
    · show s.writeCursor - s.readCursor ≤ s.writeCursor + bytes.length
      omega
    · show s.writeCursor + bytes.length ≤ s.writeCursor + (512 + bytes.length)
      omega
  · obtain ⟨htake, hle⟩ := hstore _ rfl hwritten
    rw [inc_write_cursor_fits hgrows, if_neg hgrows]
    refine ⟨⟨⟨?_, hle⟩, h.owner, ?_⟩, rfl, rfl, htake⟩
    · show s.readCursor ≤ s.writeCursor + bytes.length
      omega
    · show s.writeCursor + bytes.length ≤ s.allocSize
      exact Nat.le_of_lt (Nat.lt_of_not_le hgrows)

/-- How much is left to read behind a write. -/
theorem Owning.write_unread_length (h : s.Owning) (fresh : Bytes) (value : BufferValue) :
    (s.write fresh value).view.unread.length =
      (if s.Grows value.bytes.length then s.readCursor else s.writeCursor - s.readCursor) +
        value.bytes.length := by
  obtain ⟨howning, hwrite, hread, -⟩ := h.write fresh value
  have hle := h.read
  rw [howning.unread_length, hwrite, hread]
  split <;> omega

/-- Where the block does not grow, or as much is left to read as has been read, a write is one to
the buffer that the storage stands for. -/
theorem Owning.view_write (h : s.Owning) (fresh : Bytes) {value : BufferValue}
    (hgrown : s.Grows value.bytes.length → s.bytesWritten = 2 * s.readCursor) :
    (s.write fresh value).view = s.view.writeBuffer value.bytes := by
  obtain ⟨-, hwrite, hread, hmemory⟩ := h.write fresh value
  have hle := h.read
  have hsame : (s.write fresh value).readCursor = s.readCursor := by
    rw [hread]
    split
    · next hgrows =>
        have htwice : s.writeCursor = 2 * s.readCursor := hgrown hgrows
        omega
    · rfl
  have hlen : s.readCursor ≤ (s.memory.take s.writeCursor).length := by
    rw [List.length_take]
    exact le_min hle (hle.trans h.written)
  have htake : (s.write fresh value).memory.take s.readCursor = s.memory.take s.readCursor := by
    rw [← min_eq_left (hle.trans (Nat.le_add_right s.writeCursor value.bytes.length)),
      ← List.take_take, hmemory, List.take_append_of_le_length hlen, List.take_take,
      min_eq_left hle]
    congr 1
    omega
  simp only [view, Buffer.writeBuffer, hsame, hwrite, hmemory, htake,
    List.drop_append_of_le_length hlen]

end Storage

end OpenSpy
