import Mathlib.Data.Finset.Card
import OpenSpy.Library.Commands
import OpenSpy.Library.MultiMap

/-!
# Columns that are filled row by row

A map to lists is a table: each key is a column. `put` stores a value at a row that the column has,
and otherwise at the column's end, which is the row only if the column has been filled up to it. A
run of puts whose rows each come behind the one before them fills the table as it is told
(`cell_put_all`), with as many cells as different ones were put (`total_put_all`).
-/

namespace MultiMap

open Commands

variable {κ ν : Type} [DecidableEq κ]

/-- `map[key][row] = value`, for a row that is there. -/
def set (key : κ) (row : Nat) (value : ν) : MultiMap κ ν → MultiMap κ ν
  | [] => []
  | (other, values) :: rest =>
      if other = key then (other, values.set row value) :: rest
      else (other, values) :: set key row value rest

/-- `map[key].size() <= row ? map[key].push_back(value) : map[key][row] = value`. -/
def put (key : κ) (row : Nat) (value : ν) (map : MultiMap κ ν) : MultiMap κ ν :=
  if (find map key).length ≤ row then push key value map else set key row value map

/-- The value at a row of a column. -/
def cell (map : MultiMap κ ν) (key : κ) (row : Nat) : Option ν :=
  (find map key)[row]?

/-- The number of cells. -/
def total : MultiMap κ ν → Nat
  | [] => 0
  | (_, values) :: rest => values.length + total rest

/-- A value for a row of a column. -/
structure Put (κ ν : Type) where
  key : κ
  row : Nat
  value : ν
  deriving DecidableEq

/-- A run of puts into an empty map. -/
def putAll (puts : List (Put κ ν)) : MultiMap κ ν :=
  puts.foldl (fun map p => put p.key p.row p.value map) []

/-- The value that was put last for a row of a column. -/
def given (puts : List (Put κ ν)) (key : κ) (row : Nat) : Option ν :=
  (puts.reverse.find? fun p => p.key = key ∧ p.row = row).map Put.value

/-- The first row, or one behind a row that was put. -/
def Follows (puts : List (Put κ ν)) (p : Put κ ν) : Prop :=
  p.row = 0 ∨ (given puts p.key (p.row - 1)).isSome

instance (puts : List (Put κ ν)) (p : Put κ ν) : Decidable (Follows puts p) :=
  inferInstanceAs (Decidable (_ ∨ _))

variable {map : MultiMap κ ν} {puts : List (Put κ ν)} {key wanted : κ} {row wantedRow : Nat}
  {value : ν}

theorem find_set (map : MultiMap κ ν) (key wanted : κ) (row : Nat) (value : ν) :
    find (set key row value map) wanted =
      if key = wanted then (find map key).set row value else find map wanted := by
  induction map with
  | nil => simp [set, find]
  | cons entry rest ih =>
      obtain ⟨other, values⟩ := entry
      by_cases hother : other = key
      · subst hother
        by_cases hwanted : other = wanted
        · simp [set, find, hwanted]
        · simp [set, find, hwanted]
      · by_cases hwanted : other = wanted
        · subst hwanted
          simp [set, find, hother, Ne.symm hother]
        · simp [set, find, hother, hwanted, ih]

/-- A push makes a cell. -/
theorem total_push (map : MultiMap κ ν) (key : κ) (value : ν) :
    total (push key value map) = total map + 1 := by
  induction map with
  | nil => rfl
  | cons entry rest ih =>
      obtain ⟨other, values⟩ := entry
      by_cases hother : other = key
      · simp only [push, hother, if_true, total, List.length_append, List.length_singleton]
        omega
      · simp only [push, hother, if_false, total, ih]
        omega

theorem total_set (map : MultiMap κ ν) (key : κ) (row : Nat) (value : ν) :
    total (set key row value map) = total map := by
  induction map with
  | nil => rfl
  | cons entry rest ih =>
      obtain ⟨other, values⟩ := entry
      by_cases hother : other = key
      · simp only [set, hother, if_true, total, List.length_set]
      · simp only [set, hother, if_false, total, ih]

theorem find_put (map : MultiMap κ ν) (key wanted : κ) (row : Nat) (value : ν) :
    find (put key row value map) wanted =
      if key = wanted then
        if (find map key).length ≤ row then find map key ++ [value]
        else (find map key).set row value
      else find map wanted := by
  rw [put]
  split
  · rw [find_push]
    by_cases hkey : key = wanted
    · subst hkey
      simp
    · simp [hkey]
  · rw [find_set]

/-- Where the column has been filled up to the row, the value is put there and nowhere else. -/
theorem cell_put (h : row ≤ (find map key).length) (value : ν) (wanted : κ) (wantedRow : Nat) :
    cell (put key row value map) wanted wantedRow =
      if key = wanted ∧ row = wantedRow then some value else cell map wanted wantedRow := by
  rw [cell, find_put]
  by_cases hkey : key = wanted
  · subst hkey
    simp only [true_and, if_true, cell]
    split
    · next hlen =>
        obtain rfl : row = (find map key).length := Nat.le_antisymm h hlen
        rw [List.getElem?_append]
        grind
    · rw [List.getElem?_set]
      grind
  · simp only [hkey, false_and, if_false, cell]

theorem cell_is_some_iff : (cell map key row).isSome ↔ row < (find map key).length := by
  simp [cell]

@[simp] theorem put_all_nil : putAll ([] : List (Put κ ν)) = [] :=
  rfl

@[simp] theorem put_all_concat (puts : List (Put κ ν)) (p : Put κ ν) :
    putAll (puts ++ [p]) = put p.key p.row p.value (putAll puts) := by
  simp [putAll]

@[simp] theorem given_nil : given ([] : List (Put κ ν)) key row = none :=
  rfl

theorem given_concat (puts : List (Put κ ν)) (p : Put κ ν) (key : κ) (row : Nat) :
    given (puts ++ [p]) key row =
      if p.key = key ∧ p.row = row then some p.value else given puts key row := by
  rw [given, List.reverse_append, List.reverse_singleton, List.singleton_append, List.find?_cons]
  by_cases hp : p.key = key ∧ p.row = row
  · simp [hp]
  · rw [decide_eq_false hp, if_neg hp]
    rfl

/-- What was put is given. -/
theorem given_is_some_iff :
    (given puts key row).isSome ↔ (key, row) ∈ puts.map fun p => (p.key, p.row) := by
  simp [given]

/-- Where the cells are the ones that were given, a row follows if the column has been filled up to
it. -/
theorem follows_iff (h : ∀ key row, cell map key row = given puts key row) (p : Put κ ν) :
    Follows puts p ↔ p.row ≤ (find map p.key).length := by
  rw [Follows, ← h, cell_is_some_iff]
  omega

/-- A row that follows in a run follows in a longer one. -/
theorem Follows.append {p : Put κ ν} (h : Follows puts p) (before : List (Put κ ν)) :
    Follows (before ++ puts) p := by
  refine h.imp_right fun hgiven => ?_
  rw [given_is_some_iff] at hgiven ⊢
  rw [List.map_append]
  exact List.mem_append_right _ hgiven

/-- One run after another. -/
theorem follows_append {before : List (Put κ ν)} (hbefore : AtEvery Follows before)
    (h : AtEvery Follows puts) : AtEvery Follows (before ++ puts) := by
  induction puts using List.reverseRecOn with
  | nil => rwa [List.append_nil]
  | append_singleton puts p ih =>
      obtain ⟨hputs, hp⟩ := at_every_append.mp h
      rw [← List.append_assoc]
      exact at_every_append.mpr ⟨ih hputs, hp.append before⟩

/-- Some of the columns by themselves. -/
theorem follows_filter (keep : κ → Bool) (h : AtEvery Follows puts) :
    AtEvery Follows (puts.filter fun p => keep p.key) := by
  induction puts using List.reverseRecOn with
  | nil => exact at_every_nil
  | append_singleton puts p ih =>
      obtain ⟨hputs, hp⟩ := at_every_append.mp h
      rw [List.filter_append]
      by_cases hkeep : keep p.key = true
      · rw [List.filter_singleton, hkeep, cond_true]
        refine at_every_append.mpr ⟨ih hputs, hp.imp_right fun hgiven => ?_⟩
        rw [given_is_some_iff, List.mem_map] at hgiven ⊢
        obtain ⟨q, hmem, heq⟩ := hgiven
        have hkey : q.key = p.key := congrArg Prod.fst heq
        exact ⟨q, List.mem_filter.mpr ⟨hmem, hkey ▸ hkeep⟩, heq⟩
      · rw [List.filter_singleton, Bool.eq_false_iff.mpr hkeep, cond_false, List.append_nil]
        exact ih hputs

/-- Behind a run in which each row follows, the cells are the values that were given. -/
theorem cell_put_all (h : AtEvery Follows puts) (key : κ) (row : Nat) :
    cell (putAll puts) key row = given puts key row := by
  induction puts using List.reverseRecOn generalizing key row with
  | nil => rfl
  | append_singleton puts p ih =>
      obtain ⟨hbefore, hp⟩ := at_every_append.mp h
      have hle := (follows_iff (ih hbefore) p).mp hp
      rw [put_all_concat, cell_put hle, given_concat, ih hbefore]

/-- A column has no more values than were put. -/
theorem find_put_all_length_le (puts : List (Put κ ν)) (key : κ) :
    (find (putAll puts) key).length ≤ puts.length := by
  induction puts using List.reverseRecOn with
  | nil => exact Nat.le_refl _
  | append_singleton puts p ih =>
      rw [put_all_concat, find_put, List.length_append, List.length_singleton]
      split
      · next hkey =>
          subst hkey
          split
          · rw [List.length_append, List.length_singleton]
            exact Nat.succ_le_succ ih
          · rw [List.length_set]
            exact Nat.le_succ_of_le ih
      · exact Nat.le_succ_of_le ih

/-- Where each row follows there are as many cells as different ones were put. -/
theorem total_put_all (h : AtEvery Follows puts) :
    total (putAll puts) = (puts.map fun p => (p.key, p.row)).toFinset.card := by
  induction puts using List.reverseRecOn with
  | nil => rfl
  | append_singleton puts p ih =>
      obtain ⟨hbefore, hp⟩ := at_every_append.mp h
      have hle := (follows_iff (cell_put_all hbefore) p).mp hp
      have hnew : (find (putAll puts) p.key).length ≤ p.row ↔
          (p.key, p.row) ∉ (puts.map fun p => (p.key, p.row)).toFinset := by
        rw [List.mem_toFinset, ← given_is_some_iff, ← cell_put_all hbefore, cell_is_some_iff]
        exact Nat.not_lt.symm
      rw [put_all_concat, put, List.map_append, List.map_singleton, List.toFinset_append,
        List.toFinset_cons, List.toFinset_nil, Finset.union_insert, Finset.union_empty]
      by_cases hmem : (p.key, p.row) ∈ (puts.map fun p => (p.key, p.row)).toFinset
      · rw [if_neg (fun hlen => hnew.mp hlen hmem), total_set, ih hbefore,
          Finset.insert_eq_of_mem hmem]
      · rw [if_pos (hnew.mpr hmem), total_push, ih hbefore, Finset.card_insert_of_notMem hmem]

end MultiMap
