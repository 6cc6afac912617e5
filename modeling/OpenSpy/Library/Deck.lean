import Mathlib.Data.Fintype.EquivFin
import Mathlib.Logic.Equiv.Basic
import OpenSpy.Library.ByteTable

/-!
# Decks

A table of 256 bytes is a deck if each byte stands in it just once. The ciphers that shuffle
their tables only ever swap bytes, and a swap makes a deck of a deck.
-/

namespace ByteTable

variable {table : ByteTable}

/-- There are finitely many bytes. -/
theorem finite_bytes : Finite UInt8 :=
  Finite.of_injective UInt8.toFin fun _ _ h => UInt8.toFin_inj.mp h

theorem byte_eq (table : ByteTable) (i : UInt8) :
    table.byte i = getElem table.bytes i.toNat i.toNat_lt :=
  rfl

@[simp] theorem byte_ofFn (f : UInt8 → UInt8) (i : UInt8) : (ofFn f).byte i = f i := by
  simp [byte_eq, ofFn]

@[simp] theorem byte_set_self (table : ByteTable) (i value : UInt8) :
    (table.set i value).byte i = value := by
  simp [byte_eq, set]

theorem byte_set_of_ne {i k : UInt8} (h : k ≠ i) (value : UInt8) :
    (table.set i value).byte k = table.byte k := by
  have hne : i.toNat ≠ k.toNat := fun heq => h (UInt8.toNat_inj.mp heq.symm)
  simp [byte_eq, set, hne]

theorem byte_set (table : ByteTable) (i value k : UInt8) :
    (table.set i value).byte k = if k = i then value else table.byte k := by
  by_cases h : k = i
  · rw [h, byte_set_self, if_pos rfl]
  · rw [byte_set_of_ne h, if_neg h]

/-- Tables with the same bytes are equal. -/
theorem ext_byte {other : ByteTable} (h : ∀ i, table.byte i = other.byte i) : table = other := by
  obtain ⟨bytes⟩ := table
  obtain ⟨others⟩ := other
  congr 1
  refine Vector.ext fun i hi => ?_
  have hbyte := h (UInt8.ofNat i)
  have hmod : i % 256 = i := Nat.mod_eq_of_lt hi
  simpa [byte_eq, hmod] using hbyte

/-- The byte at one place and the byte at another change places. -/
def swap (table : ByteTable) (i j : UInt8) : ByteTable :=
  (table.set i (table.byte j)).set j (table.byte i)

theorem byte_swap (table : ByteTable) (i j k : UInt8) :
    (table.swap i j).byte k = table.byte (Equiv.swap i j k) := by
  rw [swap, byte_set, byte_set, Equiv.swap_apply_def]
  by_cases hj : k = j
  · by_cases hi : k = i <;> simp_all
  · by_cases hi : k = i <;> simp_all

/-- Writing back what stands at a place changes nothing. -/
@[simp] theorem set_byte (table : ByteTable) (i : UInt8) : table.set i (table.byte i) = table := by
  refine ext_byte fun k => ?_
  rw [byte_set]
  split
  · next h => rw [h]
  · rfl

/-- With one byte in the hand, its empty place is filled from the next, where the byte in the
hand is put down: a swap. -/
theorem set_swap (table : ByteTable) (i j value : UInt8) :
    (table.set i value).swap i j = (table.set i (table.byte j)).set j value := by
  refine ext_byte fun k => ?_
  simp only [swap, byte_set]
  by_cases hkj : k = j
  · simp [hkj]
  · by_cases hki : k = i
    · have hji : j ≠ i := fun h => hkj (hki.trans h.symm)
      simp [hki, hji]
    · simp [hkj, hki]

/-- The same along a chain of places. -/
theorem set_chain_eq_swap (table : ByteTable) (i j k l : UInt8) :
    let first := table.set i (table.byte j)
    let second := first.set j (first.byte k)
    let third := second.set k (second.byte l)
    third.set l (table.byte i) = ((table.swap i j).swap j k).swap k l := by
  intro first second third
  have hfirst : table.swap i j = first.set j (table.byte i) := rfl
  rw [hfirst, set_swap, set_swap]

/-- Each byte stands in the table once. -/
def IsDeck (table : ByteTable) : Prop :=
  Function.Bijective table.byte

/-- A deck only has to hold every byte in different places. -/
theorem is_deck_of_injective (h : Function.Injective table.byte) : table.IsDeck := by
  have := finite_bytes
  exact h.bijective_of_finite

/-- The table of a bijection is a deck. -/
theorem is_deck_of_fn {f : UInt8 → UInt8} (h : Function.Injective f) : (ofFn f).IsDeck := by
  refine is_deck_of_injective fun i j heq => h ?_
  simpa using heq

/-- A swap keeps a deck. -/
theorem IsDeck.swap (h : table.IsDeck) (i j : UInt8) : (table.swap i j).IsDeck := by
  have hbyte : (table.swap i j).byte = table.byte ∘ Equiv.swap i j :=
    funext fun k => byte_swap table i j k
  rw [IsDeck, hbyte]
  exact Function.Bijective.comp h (Equiv.swap i j).bijective

end ByteTable
