import Mathlib.Data.List.Nodup

/-!
# Maps to lists

A map from keys to lists, as the list of its entries. A key without an entry has the empty
list, and pushing a value for a key makes an entry for it if it has none.
-/

/-- The entries of a map to lists. -/
abbrev MultiMap (κ ν : Type*) := List (κ × List ν)

namespace MultiMap

variable {κ ν : Type*} [DecidableEq κ]

/-- The values of a key. -/
def find : MultiMap κ ν → κ → List ν
  | [], _ => []
  | (key, values) :: rest, wanted => if key = wanted then values else find rest wanted

/-- `map[key].push_back(value)`. -/
def push (key : κ) (value : ν) : MultiMap κ ν → MultiMap κ ν
  | [] => [(key, [value])]
  | (other, values) :: rest =>
      if other = key then (other, values ++ [value]) :: rest
      else (other, values) :: push key value rest

/-- The keys of the entries are distinct. -/
def Distinct (map : MultiMap κ ν) : Prop :=
  (map.map Prod.fst).Nodup

omit [DecidableEq κ] in
@[simp] theorem distinct_nil : Distinct ([] : MultiMap κ ν) :=
  List.nodup_nil

/-- Only the key that is pushed to gets the value, at its end. -/
theorem find_push (map : MultiMap κ ν) (key wanted : κ) (value : ν) :
    find (push key value map) wanted =
      find map wanted ++ if key = wanted then [value] else [] := by
  induction map with
  | nil =>
      show (if key = wanted then [value] else []) = _
      rfl
  | cons entry rest ih =>
      obtain ⟨other, values⟩ := entry
      by_cases hother : other = key
      · subst hother
        by_cases hwanted : other = wanted <;> simp [push, find, hwanted]
      · by_cases hwanted : other = wanted
        · subst hwanted
          simp [push, find, hother, Ne.symm hother]
        · simp [push, find, hother, hwanted, ih]

/-- The keys behind a push. -/
theorem mem_keys_push {map : MultiMap κ ν} {key other : κ} {value : ν} :
    other ∈ (push key value map).map Prod.fst ↔ other ∈ map.map Prod.fst ∨ other = key := by
  induction map with
  | nil => simp [push]
  | cons entry rest ih =>
      obtain ⟨first, values⟩ := entry
      by_cases hfirst : first = key
      · simp only [push, hfirst, if_true, List.map_cons, List.mem_cons]
        tauto
      · simp only [push, hfirst, if_false, List.map_cons, List.mem_cons, ih]
        tauto

/-- A push keeps the keys distinct. -/
theorem distinct_push {map : MultiMap κ ν} (h : Distinct map) (key : κ) (value : ν) :
    Distinct (push key value map) := by
  induction map with
  | nil => simp [push, Distinct]
  | cons entry rest ih =>
      obtain ⟨first, values⟩ := entry
      obtain ⟨hnot, hrest⟩ := List.nodup_cons.mp h
      by_cases hfirst : first = key
      · simpa [push, hfirst, Distinct] using List.nodup_cons.mpr ⟨hfirst ▸ hnot, hrest⟩
      · have hpush : push key value ((first, values) :: rest) =
            (first, values) :: push key value rest := by simp [push, hfirst]
        rw [hpush]
        refine List.nodup_cons.mpr ⟨fun hmem => ?_, ih hrest⟩
        rcases mem_keys_push.mp hmem with hmem | heq
        · exact hnot hmem
        · exact hfirst heq

/-- A key without an entry has no values. -/
theorem find_of_not_mem {map : MultiMap κ ν} {key : κ} (h : key ∉ map.map Prod.fst) :
    find map key = [] := by
  induction map with
  | nil => rfl
  | cons entry rest ih =>
      obtain ⟨first, values⟩ := entry
      simp only [List.map_cons, List.mem_cons, not_or] at h
      simp [find, Ne.symm h.1, ih h.2]

end MultiMap
