import Mathlib.Order.Lattice
import Mathlib.Data.List.Pairwise

/-!
# Ordered maps

A map that is walked in the order of its keys, as the list of its entries. The keys increase, so
no key has two entries.
-/

/-- A map as its entries in the order of their keys. -/
structure OrderedMap (κ ν : Type*) [LinearOrder κ] where
  entries : List (κ × ν)
  sorted : entries.Pairwise fun entry other => entry.1 < other.1

namespace OrderedMap

variable {κ ν : Type*} [LinearOrder κ]

/-- The map without entries. -/
def empty : OrderedMap κ ν :=
  ⟨[], .nil⟩

/-- The keys of the entries. -/
def keys (map : OrderedMap κ ν) : List κ :=
  map.entries.map Prod.fst

/-- The value of a key. -/
def find? (map : OrderedMap κ ν) (key : κ) : Option ν :=
  (map.entries.find? fun entry => decide (entry.1 = key)).map Prod.snd

/-- The entries once a key has a value. -/
def insertEntry (key : κ) (value : ν) : List (κ × ν) → List (κ × ν)
  | [] => [(key, value)]
  | (other, old) :: rest =>
      if key < other then (key, value) :: (other, old) :: rest
      else if key = other then (key, value) :: rest
      else (other, old) :: insertEntry key value rest

theorem mem_insert_entry {key : κ} {value : ν} {entry : κ × ν} {entries : List (κ × ν)}
    (h : entry ∈ insertEntry key value entries) : entry = (key, value) ∨ entry ∈ entries := by
  induction entries with
  | nil => simpa [insertEntry] using h
  | cons first rest ih =>
      obtain ⟨other, old⟩ := first
      rw [insertEntry] at h
      split_ifs at h <;> grind

theorem mem_keys_insert_entry {key other : κ} {value : ν} {entries : List (κ × ν)} :
    other ∈ (insertEntry key value entries).map Prod.fst ↔
      other = key ∨ other ∈ entries.map Prod.fst := by
  induction entries with
  | nil => simp [insertEntry]
  | cons first rest ih =>
      obtain ⟨first, old⟩ := first
      rw [insertEntry]
      split_ifs with hlt heq
      · simp
      · simp [heq]
      · rw [List.map_cons, List.map_cons, List.mem_cons, List.mem_cons, ih, or_left_comm]

theorem sorted_insert_entry (key : κ) (value : ν) {entries : List (κ × ν)}
    (h : entries.Pairwise fun entry other => entry.1 < other.1) :
    (insertEntry key value entries).Pairwise fun entry other => entry.1 < other.1 := by
  induction entries with
  | nil => simp [insertEntry]
  | cons first rest ih =>
      obtain ⟨other, old⟩ := first
      obtain ⟨hfirst, hrest⟩ := List.pairwise_cons.mp h
      rw [insertEntry]
      split_ifs with hlt heq
      · refine List.pairwise_cons.mpr ⟨fun entry hmem => ?_, h⟩
        rcases List.mem_cons.mp hmem with rfl | hmem
        · exact hlt
        · exact hlt.trans (hfirst entry hmem)
      · exact List.pairwise_cons.mpr ⟨fun entry hmem => heq ▸ hfirst entry hmem, hrest⟩
      · refine List.pairwise_cons.mpr ⟨fun entry hmem => ?_, ih hrest⟩
        rcases mem_insert_entry hmem with rfl | hmem
        · exact lt_of_le_of_ne (not_lt.mp hlt) (Ne.symm heq)
        · exact hfirst entry hmem

/-- `map[key] = value`. -/
def insert (map : OrderedMap κ ν) (key : κ) (value : ν) : OrderedMap κ ν :=
  ⟨insertEntry key value map.entries, sorted_insert_entry key value map.sorted⟩

/-- The map without a key. -/
def erase (map : OrderedMap κ ν) (key : κ) : OrderedMap κ ν :=
  ⟨map.entries.filter fun entry => decide (entry.1 ≠ key), map.sorted.filter _⟩

@[simp] theorem keys_empty : (empty : OrderedMap κ ν).keys = [] :=
  rfl

@[simp] theorem mem_keys_insert {map : OrderedMap κ ν} {key other : κ} {value : ν} :
    other ∈ (map.insert key value).keys ↔ other = key ∨ other ∈ map.keys :=
  mem_keys_insert_entry

@[simp] theorem mem_keys_erase {map : OrderedMap κ ν} {key other : κ} :
    other ∈ (map.erase key).keys ↔ other ∈ map.keys ∧ other ≠ key := by
  simp only [keys, erase, List.mem_map, List.mem_filter, decide_eq_true_eq]
  grind

/-- A key has a value exactly if it has an entry. -/
@[simp] theorem find_is_some {map : OrderedMap κ ν} {key : κ} :
    (map.find? key).isSome = true ↔ key ∈ map.keys := by
  simp [find?, keys]

/-- A key without an entry has no value. -/
theorem find_eq_none {map : OrderedMap κ ν} {key : κ} : map.find? key = none ↔ key ∉ map.keys := by
  rw [← find_is_some, Bool.not_eq_true, Option.isSome_eq_false_iff, Option.isNone_iff_eq_none]

end OrderedMap
