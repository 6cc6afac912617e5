import Mathlib.Tactic.Common

/-!
# Tables of 256 bytes

An array of 256 bytes that is only indexed by bytes, as ciphers have them for their state.
-/

/-- A table of 256 bytes. -/
structure ByteTable where
  bytes : Vector UInt8 256

namespace ByteTable

/-- The table whose bytes a function gives. -/
def ofFn (f : UInt8 → UInt8) : ByteTable :=
  ⟨.ofFn fun i => f (UInt8.ofNat i)⟩

/-- `table[i]`. -/
def byte (table : ByteTable) (i : UInt8) : UInt8 :=
  table.bytes.get ⟨i.toNat, i.toNat_lt⟩

/-- `table[i] = value`. -/
def set (table : ByteTable) (i value : UInt8) : ByteTable :=
  ⟨table.bytes.set i.toNat value i.toNat_lt⟩

end ByteTable
