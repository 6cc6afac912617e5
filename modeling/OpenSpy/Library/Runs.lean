import OpenSpy.Library.Commands

/-!
# Runs of events

A component that takes one event after the other is a step function. `after` is the state that a
run of events leads to, `AtEach` says that every event of a run is met by a state that satisfies
a condition. An invariant of the steps holds after every run (`invariant`), and one that needs a
condition on the steps after every run that meets it (`invariant_of_at_each`).
-/

namespace Runs

open Commands

variable {σ ε : Type} {step : σ → ε → σ} {start : σ} {run : List ε} {next : ε}

/-- The state that a run leads to. -/
def after (step : σ → ε → σ) (start : σ) (run : List ε) : σ :=
  run.foldl step start

@[simp] theorem after_nil : after step start [] = start :=
  rfl

@[simp] theorem after_concat :
    after step start (run ++ [next]) = step (after step start run) next := by
  simp [after]

theorem after_append (more : List ε) :
    after step start (run ++ more) = after step (after step start run) more := by
  simp [after]

/-- At every event of a run the state before it meets a condition. -/
def AtEach (step : σ → ε → σ) (start : σ) (meets : σ → ε → Prop) (run : List ε) : Prop :=
  AtEvery (fun before next => meets (after step start before) next) run

section AtEach

variable {meets : σ → ε → Prop}

theorem at_each_nil : AtEach step start meets [] :=
  at_every_nil

theorem at_each_concat :
    AtEach step start meets (run ++ [next]) ↔
      AtEach step start meets run ∧ meets (after step start run) next :=
  at_every_append

theorem at_each_cons :
    AtEach step start meets (next :: run) ↔
      meets start next ∧ AtEach step (step start next) meets run := by
  constructor
  · intro h
    exact ⟨h [] next run rfl, fun before other after heq => h (next :: before) other after
      (by rw [heq, List.cons_append])⟩
  · rintro ⟨hfirst, hrest⟩ before other after heq
    cases before with
    | nil =>
        obtain ⟨rfl, -⟩ := List.cons.inj heq
        exact hfirst
    | cons first before =>
        obtain ⟨rfl, hrun⟩ := List.cons.inj heq
        exact hrest before other after hrun

instance instDecidableAtEach [∀ s next, Decidable (meets s next)] :
    (start : σ) → (run : List ε) → Decidable (AtEach step start meets run)
  | _, [] => isTrue at_each_nil
  | start, next :: run =>
      have : Decidable (AtEach step (step start next) meets run) :=
        instDecidableAtEach (step start next) run
      decidable_of_iff _ at_each_cons.symm

end AtEach

section Invariant

variable {holds : σ → Prop} {meets : σ → ε → Prop}

/-- What every event that meets a condition preserves holds after a run whose events meet it. -/
theorem invariant_of_at_each (hstart : holds start)
    (hstep : ∀ s next, holds s → meets s next → holds (step s next))
    (hrun : AtEach step start meets run) : holds (after step start run) := by
  induction run using List.reverseRecOn with
  | nil => exact hstart
  | append_singleton run next ih =>
      obtain ⟨hbefore, hnext⟩ := at_each_concat.mp hrun
      rw [after_concat]
      exact hstep _ next (ih hbefore) hnext

/-- What every event preserves holds after every run. -/
theorem invariant (hstart : holds start) (hstep : ∀ s next, holds s → holds (step s next))
    (run : List ε) : holds (after step start run) :=
  @invariant_of_at_each _ _ step start run holds (fun _ _ => True) hstart
    (fun s next h _ => hstep s next h) fun _ _ _ _ => trivial

/-- What an event that finds something brings about, and what stays then, is there after a run
exactly if some event of the run found it. -/
theorem shown_iff {shows : σ → Prop} {found : σ → ε → Prop} (hstart : ¬ shows start)
    (hstep : ∀ s next, shows (step s next) ↔ shows s ∨ found s next) (run : List ε) :
    shows (after step start run) ↔
      ∃ before next rest, run = before ++ next :: rest ∧ found (after step start before) next := by
  induction run using List.reverseRecOn with
  | nil => simp [hstart]
  | append_singleton run next ih =>
      rw [after_concat, hstep, ih]
      constructor
      · rintro (⟨before, first, rest, rfl, hfound⟩ | hfound)
        · exact ⟨before, first, rest ++ [next], by simp, hfound⟩
        · exact ⟨run, next, [], rfl, hfound⟩
      · rintro ⟨before, first, rest, heq, hfound⟩
        obtain rfl | ⟨rest, last, rfl⟩ := List.eq_nil_or_concat rest
        · obtain ⟨rfl, hlast⟩ := List.append_inj' heq rfl
          obtain rfl := List.singleton_inj.mp hlast
          exact .inr hfound
        · rw [List.concat_eq_append, ← List.cons_append, ← List.append_assoc] at heq
          exact .inl ⟨before, first, rest, (List.append_inj' heq rfl).1, hfound⟩

/-- What is kept by the allowed events that meet a condition, and what an allowed event shows only
if it meets it: all through a run of allowed events it is shown exactly if every event meets the
condition. -/
theorem shown_throughout_iff_of_allowed {shows : σ → Prop} {allowed : σ → ε → Prop}
    (hallowed : AtEach step start allowed run) (hstart : holds start)
    (hshow : ∀ s, holds s → shows s)
    (hstep : ∀ s next, allowed s next → holds s → meets s next → holds (step s next))
    (hneeds : ∀ s next, allowed s next → holds s → shows (step s next) → meets s next) :
    (∀ before, before <+: run → shows (after step start before)) ↔
      AtEach step start meets run := by
  have hkeeps : ∀ before, before <+: run → AtEach step start meets before →
      holds (after step start before) := by
    intro before hpre hmeets
    induction before using List.reverseRecOn with
    | nil => exact hstart
    | append_singleton before next ih =>
        obtain ⟨hbefore, hnext⟩ := at_each_concat.mp hmeets
        obtain ⟨-, hlast⟩ := at_each_concat.mp (hallowed.of_prefix hpre)
        rw [after_concat]
        exact hstep _ next hlast (ih ((List.prefix_append _ _).trans hpre) hbefore) hnext
  constructor
  · intro h
    have hall : ∀ before, before <+: run → AtEach step start meets before := by
      intro before hpre
      induction before using List.reverseRecOn with
      | nil => exact at_each_nil
      | append_singleton before next ih =>
          have hbefore : before <+: run := (List.prefix_append _ _).trans hpre
          obtain ⟨-, hlast⟩ := at_each_concat.mp (hallowed.of_prefix hpre)
          have hshown := h _ hpre
          rw [after_concat] at hshown
          exact at_each_concat.mpr ⟨ih hbefore,
            hneeds _ next hlast (hkeeps before hbefore (ih hbefore)) hshown⟩
    exact hall run (List.prefix_refl run)
  · intro h before hpre
    exact hshow _ (hkeeps before hpre (h.of_prefix hpre))

/-- The same where only the events of the run are allowed. -/
theorem shown_throughout_iff {shows : σ → Prop} (hstart : holds start)
    (hshow : ∀ s, holds s → shows s)
    (hstep : ∀ s, ∀ next ∈ run, holds s → meets s next → holds (step s next))
    (hneeds : ∀ s, ∀ next ∈ run, holds s → shows (step s next) → meets s next) :
    (∀ before, before <+: run → shows (after step start before)) ↔
      AtEach step start meets run := by
  have hallowed : AtEach step start (fun _ next => next ∈ run) run := by
    rintro before next rest heq
    simp [heq]
  exact shown_throughout_iff_of_allowed hallowed hstart hshow hstep hneeds

/-- Where a condition says of every event whether it keeps something, that holds all through a
run exactly if every event of the run meets the condition. -/
theorem throughout_iff (hstart : holds start)
    (hstep : ∀ s next, holds s → (holds (step s next) ↔ meets s next)) (run : List ε) :
    (∀ before, before <+: run → holds (after step start before)) ↔
      AtEach step start meets run :=
  shown_throughout_iff hstart (fun _ h => h) (fun s next _ h => (hstep s next h).mpr)
    fun s next _ h => (hstep s next h).mp

end Invariant

end Runs
