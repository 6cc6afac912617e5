import Mathlib.Algebra.Order.Group.Defs
import Mathlib.Algebra.BigOperators.Group.List.Basic
import Mathlib.Data.List.Induction
import Mathlib.Tactic.Abel

/-!
# Leaky buckets

A bucket takes a load and then leaks, but never below empty. How full it is behind some loads
depends on the heaviest window of the last of them: `le_level_iff`.
-/

namespace LeakyBucket

variable {α : Type*} [AddCommGroup α] [LinearOrder α]

/-- What is in the bucket after a load and its leak. -/
def settle (leak level load : α) : α :=
  max 0 (level + load - leak)

/-- What is in the bucket behind some loads. -/
def level (leak : α) (loads : List α) : α :=
  loads.foldl (settle leak) 0

variable {leak bound load : α} {loads : List α}

@[simp] theorem level_nil : level leak [] = 0 :=
  rfl

theorem level_concat : level leak (loads ++ [load]) = settle leak (level leak loads) load := by
  simp [level]

/-- A bucket is as full as a bound exactly if some window of the last loads weighs that much above
what leaks behind them. -/
theorem le_level_iff [IsOrderedAddMonoid α] : bound ≤ level leak loads ↔
    ∃ window, window <:+ loads ∧ bound + window.length • leak ≤ window.sum := by
  induction loads using List.reverseRecOn generalizing bound with
  | nil =>
      constructor
      · intro h
        exact ⟨[], List.suffix_refl _, by simpa using h⟩
      · rintro ⟨window, hwindow, h⟩
        obtain rfl := List.suffix_nil.mp hwindow
        simpa using h
  | append_singleton loads load ih =>
      have hshift : ∀ window : List α, bound + (window ++ [load]).length • leak ≤
            (window ++ [load]).sum ↔
          bound + leak - load + window.length • leak ≤ window.sum := by
        intro window
        rw [List.length_append, List.length_singleton, succ_nsmul, List.sum_append,
          List.sum_singleton, ← sub_le_iff_le_add]
        exact Iff.of_eq (congrArg (· ≤ window.sum) (by abel))
      have hlast : bound ≤ level leak loads + load - leak ↔
          bound + leak - load ≤ level leak loads := by
        rw [le_sub_iff_add_le, sub_le_iff_le_add]
      rw [level_concat, settle, le_max_iff, hlast, ih]
      constructor
      · rintro (hempty | ⟨window, hwindow, h⟩)
        · exact ⟨[], List.nil_suffix, by simpa using hempty⟩
        · obtain ⟨front, rfl⟩ := hwindow
          exact ⟨window ++ [load], ⟨front, by rw [List.append_assoc]⟩, (hshift window).mpr h⟩
      · rintro ⟨window, hwindow, h⟩
        obtain rfl | ⟨rest, rfl, hrest⟩ := List.suffix_concat_iff.mp hwindow
        · exact .inl (by simpa using h)
        · exact .inr ⟨rest, hrest, (hshift rest).mp h⟩

end LeakyBucket
