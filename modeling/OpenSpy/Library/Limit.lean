import Mathlib.Algebra.GroupWithZero.Nat
import Mathlib.Tactic.Common

/-!
# Limits

A limit on the size of a list, 0 for none, that is checked before each element joins, cuts
the list off. Where the results come in several lists with a limit on each, the total keeps to
the limit only in the cases of `sum_min_eq_iff`.
-/

namespace Limit

variable {α κ : Type*}

/-- An element joins a list that is shorter than the limit. -/
def pushWithin (limit : Nat) (list : List α) : Option α → List α
  | some a => if list.length < limit || limit = 0 then list ++ [a] else list
  | none => list

/-- Without a limit all elements join. -/
theorem foldl_push_unlimited (f : κ → Option α) (keys : List κ) (list : List α) :
    keys.foldl (fun list key => pushWithin 0 list (f key)) list = list ++ keys.filterMap f := by
  induction keys generalizing list with
  | nil => simp
  | cons key keys ih =>
      rw [List.foldl_cons, ih]
      cases hkey : f key <;> simp [pushWithin, hkey]

/-- With a limit the first elements join. -/
theorem foldl_push_within {limit : Nat} (hlimit : limit ≠ 0) (f : κ → Option α) (keys : List κ)
    (list : List α) :
    keys.foldl (fun list key => pushWithin limit list (f key)) list =
      list ++ (keys.filterMap f).take (limit - list.length) := by
  induction keys generalizing list with
  | nil => simp
  | cons key keys ih =>
      rw [List.foldl_cons, ih]
      cases hkey : f key with
      | none => simp [pushWithin, hkey]
      | some a =>
          by_cases hroom : list.length < limit
          · obtain ⟨room, hroom'⟩ : ∃ room, limit - list.length = room + 1 :=
              ⟨limit - list.length - 1, by omega⟩
            have hnext : limit - (list.length + 1) = room := by omega
            simp [pushWithin, hroom, hkey, hroom', hnext]
          · have hfull : limit - list.length = 0 := by omega
            simp [pushWithin, hroom, hlimit, hfull]

/-- Limits on the parts let at least as much through as one on the whole. -/
theorem min_sum_le (limit : Nat) (counts : List Nat) :
    min limit counts.sum ≤ (counts.map (min limit)).sum := by
  induction counts with
  | nil => simp
  | cons count counts ih =>
      rw [List.map_cons, List.sum_cons, List.sum_cons]
      omega

/-- They let everything through if the whole is within the limit. -/
theorem sum_min_of_le {limit : Nat} {counts : List Nat} (h : counts.sum ≤ limit) :
    (counts.map (min limit)).sum = counts.sum := by
  induction counts with
  | nil => rfl
  | cons count counts ih =>
      rw [List.sum_cons] at h
      rw [List.map_cons, List.sum_cons, List.sum_cons, ih (by omega)]
      omega

/-- They let as much through as one limit on the whole exactly if the whole is within the
limit, or there is only one part with anything in it. -/
theorem sum_min_eq_iff {limit : Nat} (hlimit : limit ≠ 0) (counts : List Nat) :
    (counts.map (min limit)).sum = min limit counts.sum ↔
      counts.sum ≤ limit ∨ (counts.filter (· ≠ 0)).length ≤ 1 := by
  induction counts with
  | nil => simp
  | cons count counts ih =>
      rw [List.map_cons, List.sum_cons, List.sum_cons]
      by_cases hcount : count = 0
      · simpa [hcount] using ih
      · have hrest := min_sum_le limit counts
        have hwithin := @sum_min_of_le limit counts
        have hzero : counts.sum = 0 ↔ counts.filter (· ≠ 0) = [] := by
          rw [List.sum_eq_zero_iff_forall_eq_nat, List.filter_eq_nil_iff]
          simp
        have hone : ((count :: counts).filter (· ≠ 0)).length ≤ 1 ↔ counts.sum = 0 := by
          simp [hcount, hzero]
        rw [hone]
        omega

end Limit
