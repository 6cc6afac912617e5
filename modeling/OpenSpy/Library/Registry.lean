import Mathlib.Logic.Function.Basic
import Mathlib.Tactic.Common

/-!
# A registry of names

A registry files an id under a name. Each id is issued to one holder, and a holder goes by one
name. `Filed` says that an id is filed only under the name of its holder, and that a holder
finds one of its ids there unless it is away from its name or gone. A name may be shared: then
any holder may file an id under it. A name with an id has one holder (`one_holder`), an id has
one name (`one_name`) and that of a holder who is gone has none (`not_named_of_gone`).
-/

namespace Registry

variable {κ ι π : Type} {shared : κ → Prop} {names : κ → Option ι} {owner : ι → π}
  {target : π → κ} {gone away : π → Prop}

/-- The ids are filed under the names of their holders. -/
structure Filed (shared : κ → Prop) (names : κ → Option ι) (owner : ι → π) (target : π → κ)
    (gone away : π → Prop) : Prop where
  named : ∀ name id, names name = some id → target (owner id) = name ∧ ¬ gone (owner id)
  found : ∀ holder, ¬ gone holder → ¬ away holder → ¬ shared (target holder) →
    ∃ id, names (target holder) = some id ∧ owner id = holder

namespace Filed

/-- An id has one name. -/
theorem one_name (h : Filed shared names owner target gone away) {name other : κ} {id : ι}
    (hname : names name = some id) (hother : names other = some id) : name = other :=
  (h.named name id hname).1.symm.trans (h.named other id hother).1

/-- The id of a holder who is gone has no name. -/
theorem not_named_of_gone (h : Filed shared names owner target gone away) {id : ι}
    (hgone : gone (owner id)) (name : κ) : names name ≠ some id :=
  fun hname => (h.named name id hname).2 hgone

/-- A name has one holder. -/
theorem one_holder (h : Filed shared names owner target gone away) {holder other : π}
    (hgone : ¬ gone holder) (haway : ¬ away holder) (hgoneOther : ¬ gone other)
    (hawayOther : ¬ away other) (hsame : target holder = target other)
    (hshared : ¬ shared (target holder)) : holder = other := by
  obtain ⟨id, hid, rfl⟩ := h.found holder hgone haway hshared
  obtain ⟨otherId, hotherId, rfl⟩ := h.found other hgoneOther hawayOther (hsame ▸ hshared)
  rw [← hsame, hid] at hotherId
  rw [Option.some.inj hotherId]

/-- A holder who finds an id under a name that is not shared finds its own. -/
theorem owner_of_target (h : Filed shared names owner target gone away) {holder : π} {id : ι}
    (hgone : ¬ gone holder) (haway : ¬ away holder) (hshared : ¬ shared (target holder))
    (hname : names (target holder) = some id) : owner id = holder := by
  obtain ⟨own, hown, howner⟩ := h.found holder hgone haway hshared
  rw [hname] at hown
  rw [Option.some.inj hown, howner]

/-- The name of a holder who finds an id there is not that of another, under which there is no id
of a third. -/
theorem target_ne (h : Filed shared names owner target gone away) {holder other : π}
    (hne : other ≠ holder) (hgone : ¬ gone other) (haway : ¬ away other)
    (hshared : ¬ shared (target other))
    (hown : ∀ id, names (target holder) = some id → ¬ shared (target holder) →
      owner id = holder) : target other ≠ target holder := by
  intro heq
  obtain ⟨id, hid, howner⟩ := h.found other hgone haway hshared
  rw [heq] at hid hshared
  exact hne (howner.symm.trans (hown id hid hshared))

/-- More holders may be away. -/
theorem mono_away {away' : π → Prop} (h : Filed shared names owner target gone away)
    (haway : ∀ holder, away holder → away' holder) :
    Filed shared names owner target gone away' where
  named := h.named
  found holder hgone hnot := h.found holder hgone fun hold => hnot (haway holder hold)

/-- A new id is issued. -/
theorem issue [DecidableEq ι] (h : Filed shared names owner target gone away) {id : ι}
    (holder : π) (hnew : ∀ name, names name ≠ some id) :
    Filed shared names (Function.update owner id holder) target gone away where
  named name other hname := by
    have hne : other ≠ id := fun heq => hnew name (heq ▸ hname)
    rw [Function.update_of_ne hne]
    exact h.named name other hname
  found other hgone haway hshared := by
    obtain ⟨own, hown, howner⟩ := h.found other hgone haway hshared
    have hne : own ≠ id := fun heq => hnew _ (heq ▸ hown)
    exact ⟨own, hown, by rw [Function.update_of_ne hne, howner]⟩

section Names

variable [DecidableEq κ]

/-- A holder deletes its name, and any other may be the one that it goes by next. -/
theorem release [DecidableEq π] (h : Filed shared names owner target gone away)
    {away' : π → Prop} {holder : π} (next : κ) (haway : ∀ other, away other → away' other)
    (hholder : away' holder)
    (hown : ∀ id, names (target holder) = some id → ¬ shared (target holder) →
      owner id = holder) :
    Filed shared (Function.update names (target holder) none) owner
      (Function.update target holder next) gone away' where
  named name id hname := by
    have hne : name ≠ target holder := by
      rintro rfl
      simp at hname
    rw [Function.update_of_ne hne] at hname
    obtain ⟨htarget, hgone⟩ := h.named name id hname
    have hother : owner id ≠ holder := fun heq => hne (by rw [← htarget, heq])
    exact ⟨by rw [Function.update_of_ne hother, htarget], hgone⟩
  found other hgone hnot hshared := by
    have hother : other ≠ holder := by
      rintro rfl
      exact hnot hholder
    rw [Function.update_of_ne hother] at hshared ⊢
    have hstays : ¬ away other := fun hold => hnot (haway other hold)
    obtain ⟨id, hid, howner⟩ := h.found other hgone hstays hshared
    have hne := h.target_ne hother hgone hstays hshared hown
    exact ⟨id, by rw [Function.update_of_ne hne, hid], howner⟩

/-- A holder files an id under its name. -/
theorem file (h : Filed shared names owner target gone away) {away' : π → Prop} {id : ι}
    (hgone : ¬ gone (owner id)) (haway : ∀ other, other ≠ owner id → away other → away' other)
    (hown : ∀ other, names (target (owner id)) = some other → ¬ shared (target (owner id)) →
      owner other = owner id) :
    Filed shared (Function.update names (target (owner id)) (some id)) owner target gone
      away' where
  named name other hname := by
    by_cases hne : name = target (owner id)
    · subst hne
      rw [Function.update_self] at hname
      rw [← Option.some.inj hname]
      exact ⟨rfl, hgone⟩
    · rw [Function.update_of_ne hne] at hname
      exact h.named name other hname
  found other hgoneOther hnot hshared := by
    by_cases hsame : other = owner id
    · subst hsame
      exact ⟨id, by rw [Function.update_self], rfl⟩
    · have hstays : ¬ away other := fun hold => hnot (haway other hsame hold)
      obtain ⟨found, hfound, howner⟩ := h.found other hgoneOther hstays hshared
      have hne := h.target_ne hsame hgoneOther hstays hshared hown
      exact ⟨found, by rw [Function.update_of_ne hne, hfound], howner⟩

/-- A holder deletes its name and is gone. -/
theorem withdraw (h : Filed shared names owner target gone away) {gone' : π → Prop} {holder : π}
    (hgone : ∀ other, gone' other ↔ gone other ∨ other = holder)
    (hown : ∀ id, names (target holder) = some id → ¬ shared (target holder) →
      owner id = holder) :
    Filed shared (Function.update names (target holder) none) owner target gone' away where
  named name id hname := by
    have hne : name ≠ target holder := by
      rintro rfl
      simp at hname
    rw [Function.update_of_ne hne] at hname
    obtain ⟨htarget, hnot⟩ := h.named name id hname
    refine ⟨htarget, fun hgone' => ?_⟩
    rcases (hgone _).mp hgone' with hold | heq
    · exact hnot hold
    · exact hne (by rw [← htarget, heq])
  found other hnot haway hshared := by
    obtain ⟨hold, hother⟩ : ¬ gone other ∧ other ≠ holder := by
      simpa [hgone] using hnot
    obtain ⟨id, hid, howner⟩ := h.found other hold haway hshared
    have hne := h.target_ne hother hold haway hshared hown
    exact ⟨id, by rw [Function.update_of_ne hne, hid], howner⟩

end Names

end Filed

end Registry
