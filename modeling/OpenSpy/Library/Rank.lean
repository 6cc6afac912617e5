import Mathlib.Data.List.Basic
import Mathlib.Tactic.Common

/-!
# Serving a queue rank by rank

Elements that are kept in one queue for each rank come out rank by rank. `by_rank_eq_iff` says
when this is the order in which they went in.
-/

namespace Rank

variable {α : Type*}

/-- The elements of the ranks below `n`, rank by rank. -/
def byRank (rank : α → Nat) (n : Nat) (l : List α) : List α :=
  (List.range n).flatMap fun r => l.filter (rank · = r)

variable {rank : α → Nat} {l : List α}

/-- The last rank comes at the end. -/
theorem by_rank_succ (rank : α → Nat) (n : Nat) (l : List α) :
    byRank rank (n + 1) l = byRank rank n l ++ l.filter (rank · = n) := by
  simp [byRank, List.range_succ]

/-- The elements of the lower ranks are those that are below. -/
theorem by_rank_filter (n : Nat) : byRank rank n (l.filter (rank · < n)) = byRank rank n l := by
  refine List.flatMap_congr fun r hr => ?_
  rw [List.filter_filter]
  refine List.filter_congr fun a _ => ?_
  have hlt := List.mem_range.mp hr
  grind

/-- Elements in the order of their ranks end with those of the last rank. -/
theorem filter_append_of_sorted {n : Nat} (hrank : ∀ a ∈ l, rank a < n + 1)
    (hsorted : l.Pairwise (rank · ≤ rank ·)) :
    l.filter (rank · < n) ++ l.filter (rank · = n) = l := by
  induction l with
  | nil => rfl
  | cons a l ih =>
      obtain ⟨hfirst, hrest⟩ := List.pairwise_cons.mp hsorted
      have hl := ih (fun b hb => hrank b (List.mem_cons_of_mem _ hb)) hrest
      by_cases ha : rank a < n
      · simp [ha, Nat.ne_of_lt ha, hl]
      · have hn : rank a = n := by
          have hlt := hrank a List.mem_cons_self
          omega
        -- No element behind one of the last rank is below it.
        have hnone : l.filter (rank · < n) = [] := by
          refine List.filter_eq_nil_iff.mpr fun b hb => ?_
          have hle := hfirst b hb
          simp only [decide_eq_true_eq]
          omega
        rw [hnone, List.nil_append] at hl
        simp [hn, hnone, hl]

/-- What comes out rank by rank is sorted. -/
theorem by_rank_sorted (rank : α → Nat) (n : Nat) (l : List α) :
    (byRank rank n l).Pairwise (rank · ≤ rank ·) := by
  induction n with
  | zero => exact List.Pairwise.nil
  | succ n ih =>
      rw [by_rank_succ, List.pairwise_append]
      refine ⟨ih, List.pairwise_of_forall_mem_list ?_, ?_⟩
      · intro a ha b hb
        simp only [List.mem_filter, decide_eq_true_eq] at ha hb
        omega
      · intro a ha b hb
        obtain ⟨r, hr, ha⟩ := List.mem_flatMap.mp ha
        simp only [List.mem_filter, decide_eq_true_eq] at ha hb
        have hlt := List.mem_range.mp hr
        omega

/-- The elements come out in the order in which they went in exactly if that is the order of
their ranks. -/
theorem by_rank_eq_iff {n : Nat} (hrank : ∀ a ∈ l, rank a < n) :
    byRank rank n l = l ↔ l.Pairwise (rank · ≤ rank ·) := by
  constructor
  · intro h
    rw [← h]
    exact by_rank_sorted rank n l
  · intro hsorted
    induction n generalizing l with
    | zero =>
        cases l with
        | nil => rfl
        | cons a l => exact absurd (hrank a List.mem_cons_self) (Nat.not_lt_zero _)
    | succ n ih =>
        have hbelow : byRank rank n (l.filter (rank · < n)) = l.filter (rank · < n) :=
          ih (fun a ha => of_decide_eq_true (List.mem_filter.mp ha).2) (hsorted.filter _)
        rw [by_rank_succ, ← by_rank_filter, hbelow, filter_append_of_sorted hrank hsorted]

/-- As many elements come out as went in. -/
theorem length_by_rank {n : Nat} (hrank : ∀ a ∈ l, rank a < n) :
    (byRank rank n l).length = l.length := by
  induction n generalizing l with
  | zero =>
      cases l with
      | nil => rfl
      | cons a l => exact absurd (hrank a List.mem_cons_self) (Nat.not_lt_zero _)
  | succ n ih =>
      have hbelow := ih (l := l.filter (rank · < n)) fun a ha =>
        of_decide_eq_true (List.mem_filter.mp ha).2
      have hrest : l.filter (rank · = n) = l.filter fun a => !decide (rank a < n) :=
        List.filter_congr fun a ha => by
          have hlt := hrank a ha
          grind
      rw [by_rank_succ, List.length_append, ← by_rank_filter, hbelow, hrest]
      exact (List.length_eq_length_filter_add _).symm

end Rank
