import Mathlib.Logic.Nontrivial.Defs
import Mathlib.Tactic.Common

/-!
# Undefined results

C and C++ leave a computation undefined that uses memory which was never set. Such a
computation is `none` here, and whatever the machine answers in its place is a parameter.
-/

namespace Undefined

variable {α σ : Type*}

/-- Two computations answer alike whatever takes the place of an undefined result exactly if
both are defined and have the same result. -/
theorem get_d_agree_iff [Nontrivial α] {r s : Option α} :
    (∀ a b, r.getD a = s.getD b) ↔ ∃ value, r = some value ∧ s = some value := by
  constructor
  · intro h
    cases r with
    | none =>
        obtain ⟨a, ha⟩ := exists_ne (s.getD (Classical.arbitrary α))
        exact absurd (h a (Classical.arbitrary α)) ha
    | some value =>
        cases s with
        | none =>
            obtain ⟨b, hb⟩ := exists_ne value
            exact absurd (h value b).symm hb
        | some other => exact ⟨value, rfl, congrArg some (h value value).symm⟩
  · rintro ⟨value, rfl, rfl⟩ a b
    rfl

/-- A run is undefined exactly if it comes to a step that is. -/
theorem foldl_m_eq_none_iff {step : σ → α → Option σ} {start : σ} {inputs : List α} :
    inputs.foldlM step start = none ↔
      ∃ before input after state, inputs = before ++ input :: after ∧
        before.foldlM step start = some state ∧ step state input = none := by
  constructor
  · intro h
    induction inputs generalizing start with
    | nil => simp at h
    | cons input inputs ih =>
        rw [List.foldlM_cons] at h
        cases hstep : step start input with
        | none => exact ⟨[], input, inputs, start, rfl, rfl, hstep⟩
        | some state =>
            rw [hstep] at h
            obtain ⟨before, bad, after, last, rfl, hbefore, hbad⟩ := ih h
            exact ⟨input :: before, bad, after, last, rfl, by simp [hstep, hbefore], hbad⟩
  · rintro ⟨before, input, after, state, rfl, hbefore, hstep⟩
    simp [hbefore, hstep]

/-- Steps that do the same on the inputs of a run give the same run. -/
theorem foldl_m_congr {step step' : σ → α → Option σ} {inputs : List α}
    (h : ∀ state, ∀ input ∈ inputs, step state input = step' state input) (start : σ) :
    inputs.foldlM step start = inputs.foldlM step' start := by
  induction inputs generalizing start with
  | nil => rfl
  | cons input inputs ih =>
      have hrest : ∀ state, ∀ other ∈ inputs, step state other = step' state other :=
        fun state other hother => h state other (List.mem_cons_of_mem _ hother)
      simp only [List.foldlM_cons, h start input List.mem_cons_self]
      cases step' start input with
      | none => rfl
      | some state => exact ih hrest state

end Undefined
