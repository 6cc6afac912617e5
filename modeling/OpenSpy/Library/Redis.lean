import Mathlib.Data.List.Nodup
import Mathlib.Logic.Function.Basic
import OpenSpy.Library.Decimal

/-!
# Redis values

A hash maps field names to texts. A scan returns the fields of a hash in several replies, in no
particular order and possibly more than once, but every field that is there all the time in at
least one of them. With `MATCH` it returns only the fields that a pattern stands for. A sorted set
is here the list of its members, without their scores.
-/

namespace Redis

open Bytes

/-- The fields of a hash. -/
abbrev Hash := Bytes → Option Bytes

/-- `HMSET`. -/
def hmset (hash : Hash) (pairs : List (Bytes × Bytes)) : Hash :=
  pairs.foldl (fun hash pair => Function.update hash pair.1 (some pair.2)) hash

/-- The reply of `HMGET`, whose arguments are C strings. -/
def hmget (hash : Hash) (fields : List Bytes) : List (Option Bytes) :=
  fields.map fun field => hash (cString field)

/-- A reply of `HGETALL`. -/
def HGetAll (hash : Hash) (reply : List (Bytes × Bytes)) : Prop :=
  ∀ field value, (field, value) ∈ reply ↔ hash field = some value

/-- The replies of a complete `HSCAN`. -/
def HScan (hash : Hash) (replies : List (List Bytes)) : Prop :=
  ∀ field, (∃ reply ∈ replies, field ∈ reply) ↔ (hash field).isSome

/-- How `MATCH` compares a pattern with a field. A star stands for any text. -/
structure FieldPattern where
  stands : Bytes → Bytes → Bool
  star : ∀ field, stands (ascii "*") field = true

/-- The replies of a complete `HSCAN` with `MATCH`: the fields with their values, in batches. -/
structure MatchScan (glob : FieldPattern) (hash : Hash) (pattern : Bytes) where
  batches : List (List (Bytes × Bytes))
  complete : ∀ pair, (∃ batch ∈ batches, pair ∈ batch) ↔
    hash pair.1 = some pair.2 ∧ glob.stands pattern pair.1 = true

section SortedSet

variable {α : Type*} [DecidableEq α]

/-- `ZADD` and `ZINCRBY`. -/
def zadd (members : List α) (member : α) : List α :=
  if member ∈ members then members else members ++ [member]

/-- `ZREM`. -/
def zrem (members : List α) (member : α) : List α :=
  members.filter (· ≠ member)

@[simp] theorem mem_zadd {members : List α} {member other : α} :
    other ∈ zadd members member ↔ other ∈ members ∨ other = member := by
  by_cases h : member ∈ members
  · have hin : other = member → other ∈ members := fun heq => heq ▸ h
    simp [zadd, h, or_iff_left_of_imp hin]
  · simp [zadd, h]

@[simp] theorem mem_zrem {members : List α} {member other : α} :
    other ∈ zrem members member ↔ other ∈ members ∧ other ≠ member := by
  simp [zrem]

end SortedSet

/-- A field has the last value that was written for it, or else its old one. -/
theorem hmset_apply (hash : Hash) (pairs : List (Bytes × Bytes)) (field : Bytes) :
    hmset hash pairs field = (pairs.reverse.lookup field).or (hash field) := by
  induction pairs generalizing hash with
  | nil => rfl
  | cons pair pairs ih =>
      obtain ⟨key, value⟩ := pair
      have hstep : hmset hash ((key, value) :: pairs) =
          hmset (Function.update hash key (some value)) pairs := rfl
      rw [hstep, ih, List.reverse_cons, List.lookup_append]
      by_cases hfield : field = key
      · subst hfield
        cases pairs.reverse.lookup field <;> simp
      · have hne : (field == key) = false := by simpa using hfield
        simp [List.lookup_cons, hne, Function.update_of_ne hfield]

/-- A value that was written for a field is one of the pairs. -/
theorem mem_of_lookup_reverse {pairs : List (Bytes × Bytes)} {field value : Bytes}
    (h : pairs.reverse.lookup field = some value) : (field, value) ∈ pairs := by
  obtain ⟨before, after, hpairs, -⟩ := List.lookup_eq_some_iff.mp h
  have hmem : (field, value) ∈ pairs.reverse := by simp [hpairs]
  exact List.mem_reverse.mp hmem

/-- A field that was not written keeps its value. -/
theorem hmset_of_not_mem {hash : Hash} {pairs : List (Bytes × Bytes)} {field : Bytes}
    (h : ∀ value, (field, value) ∉ pairs) : hmset hash pairs field = hash field := by
  rw [hmset_apply]
  cases hlookup : pairs.reverse.lookup field with
  | none => rfl
  | some value => exact absurd (mem_of_lookup_reverse hlookup) (h value)

/-- A field is there if it was written, or was there before. -/
theorem hmset_isSome {hash : Hash} {pairs : List (Bytes × Bytes)} {field : Bytes} :
    (hmset hash pairs field).isSome ↔ (∃ value, (field, value) ∈ pairs) ∨ (hash field).isSome := by
  rw [hmset_apply, Option.isSome_or, Bool.or_eq_true]
  refine or_congr_left ?_
  constructor
  · intro h
    obtain ⟨value, hlookup⟩ := Option.isSome_iff_exists.mp h
    exact ⟨value, mem_of_lookup_reverse hlookup⟩
  · intro h
    obtain ⟨value, hmem⟩ := h
    rw [Option.isSome_iff_ne_none]
    intro hnone
    have hne := List.lookup_eq_none_iff.mp hnone (field, value) (List.mem_reverse.mpr hmem)
    simp at hne

/-- A field that was only ever written with one value has that value. -/
theorem hmset_of_mem {hash : Hash} {pairs : List (Bytes × Bytes)} {field value : Bytes}
    (hmem : (field, value) ∈ pairs) (hsame : ∀ other, (field, other) ∈ pairs → other = value) :
    hmset hash pairs field = some value := by
  rw [hmset_apply]
  cases hlookup : pairs.reverse.lookup field with
  | none =>
      have hne := List.lookup_eq_none_iff.mp hlookup (field, value) (List.mem_reverse.mpr hmem)
      simp at hne
  | some other =>
      rw [hsame other (mem_of_lookup_reverse hlookup), Option.some_or]

/-- Writing what a reply of `HGETALL` lists gives the hash again. -/
theorem hmset_hgetall {hash : Hash} {reply : List (Bytes × Bytes)} (h : HGetAll hash reply) :
    hmset (fun _ => none) reply = hash := by
  funext field
  cases hfield : hash field with
  | none =>
      refine hmset_of_not_mem fun value hmem => ?_
      rw [h, hfield] at hmem
      cases hmem
  | some value =>
      refine hmset_of_mem ((h field value).mpr hfield) fun other hother => ?_
      rw [h, hfield] at hother
      exact (Option.some.inj hother).symm

/-- The fields of a hash that are on a list, with their values. -/
def fieldsOf (glob : FieldPattern) (hash : Hash) (pattern : Bytes) (fields : List Bytes) :
    List (Bytes × Bytes) :=
  fields.filterMap fun field =>
    if glob.stands pattern field then (hash field).map (field, ·) else none

theorem mem_fields_of {glob : FieldPattern} {hash : Hash} {pattern : Bytes} {fields : List Bytes}
    {pair : Bytes × Bytes} :
    pair ∈ fieldsOf glob hash pattern fields ↔
      pair.1 ∈ fields ∧ hash pair.1 = some pair.2 ∧ glob.stands pattern pair.1 = true := by
  obtain ⟨field, value⟩ := pair
  simp only [fieldsOf, List.mem_filterMap, Option.ite_none_right_eq_some, Option.map_eq_some_iff,
    Prod.mk.injEq]
  constructor
  · intro h
    obtain ⟨other, hmem, hstands, _, hvalue, rfl, rfl⟩ := h
    exact ⟨hmem, hvalue, hstands⟩
  · intro h
    exact ⟨field, h.1, h.2.2, value, h.2.1, rfl, rfl⟩

/-- No field is listed twice. -/
theorem fields_of_nodup (glob : FieldPattern) (hash : Hash) (pattern : Bytes) {fields : List Bytes}
    (h : fields.Nodup) : (fieldsOf glob hash pattern fields).Nodup := by
  refine h.filterMap fun field other pair hfield hother => ?_
  simp only [Option.mem_def, Option.ite_none_right_eq_some, Option.map_eq_some_iff] at hfield hother
  obtain ⟨-, _, -, rfl⟩ := hfield
  obtain ⟨-, _, -, hpair⟩ := hother
  exact (Prod.mk.inj hpair).1.symm

namespace MatchScan

variable {glob : FieldPattern} {hash : Hash} {pattern : Bytes}

/-- The scan of a hash with all fields on a list, in one batch. -/
def ofFields (glob : FieldPattern) (pattern : Bytes) {fields : List Bytes}
    (h : ∀ field, (hash field).isSome → field ∈ fields) : MatchScan glob hash pattern where
  batches := [fieldsOf glob hash pattern fields]
  complete pair := by
    simp only [List.mem_singleton, exists_eq_left, mem_fields_of]
    refine and_iff_right_of_imp fun hpair => h pair.1 ?_
    rw [hpair.1]
    rfl

/-- A scan that returns every batch a second time. -/
def twice (scan : MatchScan glob hash pattern) : MatchScan glob hash pattern where
  batches := scan.batches ++ scan.batches
  complete pair := by simp only [List.mem_append, or_self, scan.complete]

theorem mem_flatten (scan : MatchScan glob hash pattern) (pair : Bytes × Bytes) :
    pair ∈ scan.batches.flatten ↔ hash pair.1 = some pair.2 ∧ glob.stands pattern pair.1 = true := by
  rw [List.mem_flatten, scan.complete]

/-- The scan of a hash that is not there finds nothing. -/
theorem flatten_eq_nil (scan : MatchScan glob hash pattern) (h : ∀ field, hash field = none) :
    scan.batches.flatten = [] := by
  rw [List.eq_nil_iff_forall_not_mem]
  intro pair hpair
  rw [scan.mem_flatten, h] at hpair
  cases hpair.1

end MatchScan

end Redis
