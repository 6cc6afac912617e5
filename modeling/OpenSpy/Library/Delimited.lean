import Mathlib.Data.List.Infix
import Mathlib.Tactic.Common

/-!
# Messages ended by a delimiter

A byte stream carries messages, each followed by a fixed delimiter. `frames d s` cuts `s`
at the leftmost, non-overlapping occurrences of `d` into the complete messages and the
pending bytes after the last one. `frames_append` is the fact every stream reader rests
on: cutting can stop anywhere and resume from the pending bytes.

`frames_rec` is the induction principle of the cut, and `frames_cut`, `frames_clean` are
its two equations. No other lemma looks at the search underneath.
-/

namespace Delimited

variable {α : Type*} [DecidableEq α]

/-- The index of the first occurrence of `needle`. -/
def findFirst (needle : List α) : List α → Option Nat
  | [] => if needle = [] then some 0 else none
  | x :: rest =>
      if needle <+: x :: rest then some 0 else (findFirst needle rest).map (· + 1)

/-- `findFirst` returns the least index at which the needle starts. -/
theorem find_first_eq_some {needle s : List α} {n : Nat} :
    findFirst needle s = some n ↔
      n ≤ s.length ∧ needle <+: s.drop n ∧ ∀ m < n, ¬ needle <+: s.drop m := by
  induction s generalizing n with
  | nil =>
      by_cases h : needle = []
      · simp only [findFirst, h, if_true, Option.some.injEq]
        exact ⟨by rintro rfl; simp, fun hn => (Nat.le_zero.mp hn.1).symm⟩
      · simp [findFirst, h]
  | cons x rest ih =>
      by_cases h : needle <+: x :: rest
      · simp only [findFirst, h, if_true, Option.some.injEq]
        constructor
        · rintro rfl
          exact ⟨by simp, by simpa using h, by simp⟩
        · rintro ⟨_, _, hfirst⟩
          by_contra hn
          exact hfirst 0 (by omega) (by simpa using h)
      · simp only [findFirst, h, if_false, Option.map_eq_some_iff]
        constructor
        · rintro ⟨k, hk, rfl⟩
          obtain ⟨hle, hocc, hfirst⟩ := ih.mp hk
          refine ⟨by simpa using hle, by simpa using hocc, fun m hm => ?_⟩
          cases m with
          | zero => simpa using h
          | succ m => simpa using hfirst m (by omega)
        · rintro ⟨hle, hocc, hfirst⟩
          cases n with
          | zero => exact absurd (by simpa using hocc) h
          | succ n =>
              refine ⟨n, ih.mpr ⟨by simpa using hle, by simpa using hocc, fun m hm => ?_⟩, rfl⟩
              simpa using hfirst (m + 1) (by omega)

/-- `findFirst` fails when the needle starts nowhere. -/
theorem find_first_eq_none {needle s : List α} :
    findFirst needle s = none ↔ ∀ n ≤ s.length, ¬ needle <+: s.drop n := by
  induction s with
  | nil => simp [findFirst]
  | cons x rest ih =>
      by_cases h : needle <+: x :: rest
      · simp only [findFirst, h, if_true, reduceCtorEq, false_iff, not_forall, not_not]
        exact ⟨0, by simp, by simpa using h⟩
      · simp only [findFirst, h, if_false, Option.map_eq_none_iff, ih]
        constructor
        · intro hnone n hn
          cases n with
          | zero => simpa using h
          | succ n => simpa using hnone n (by simpa using hn)
        · intro hnone n hn
          simpa using hnone (n + 1) (by simpa using hn)

/-- Cutting `s` at the delimiter at most `fuel` times. -/
def framesWith (d : List α) : Nat → List α → List (List α) × List α
  | 0, s => ([], s)
  | fuel + 1, s =>
      match findFirst d s with
      | none => ([], s)
      | some n =>
          let rest := framesWith d fuel (s.drop (n + d.length))
          (s.take n :: rest.1, rest.2)

/-- The complete messages of `s` and the pending bytes after them. Every cut removes a
nonempty delimiter, so the length of `s` bounds the number of cuts. -/
def frames (d s : List α) : List (List α) × List α :=
  framesWith d s.length s

/-- The bytes of `s` after its last complete message. -/
def pending (d s : List α) : List α :=
  (frames d s).2

/-- The stream that carries the messages `ms`. -/
def stream (d : List α) (ms : List (List α)) : List α :=
  ms.flatMap (· ++ d)

/-- A message that the reader cuts off exactly: the delimiter starts nowhere before its end. -/
def Framed (d m : List α) : Prop :=
  findFirst d (m ++ d) = some m.length

instance (d m : List α) : Decidable (Framed d m) :=
  inferInstanceAs (Decidable (_ = _))

omit [DecidableEq α] in
@[simp] theorem stream_nil (d : List α) : stream d [] = [] := rfl

omit [DecidableEq α] in
@[simp] theorem stream_cons (d m : List α) (ms : List (List α)) :
    stream d (m :: ms) = m ++ d ++ stream d ms := by
  simp [stream]

omit [DecidableEq α] in
theorem stream_append (d : List α) (ms others : List (List α)) :
    stream d (ms ++ others) = stream d ms ++ stream d others := by
  simp [stream]

/-- More input on the right does not move the first occurrence. -/
theorem find_first_append {d s : List α} (t : List α) {n : Nat}
    (hd : d ≠ []) (h : findFirst d s = some n) : findFirst d (s ++ t) = some n := by
  obtain ⟨hle, hocc, hfirst⟩ := find_first_eq_some.mp h
  have hlen : d.length + n ≤ s.length := by
    have := hocc.length_le
    have hpos := List.length_pos_of_ne_nil hd
    simp only [List.length_drop] at this
    omega
  refine find_first_eq_some.mpr ⟨by simp; omega, ?_, fun m hm hearly => ?_⟩
  · rw [List.drop_append_of_le_length hle]
    exact hocc.trans (List.prefix_append _ _)
  · rw [List.drop_append_of_le_length (by omega)] at hearly
    refine hfirst m hm (List.prefix_of_prefix_length_le hearly (List.prefix_append _ _) ?_)
    simp only [List.length_drop]
    omega

/-- The first occurrence splits the input into a framed message, the delimiter and the rest. -/
theorem find_first_split {d s : List α} {n : Nat} (h : findFirst d s = some n) :
    s = s.take n ++ d ++ s.drop (n + d.length) ∧ Framed d (s.take n) := by
  obtain ⟨hle, hocc, hfirst⟩ := find_first_eq_some.mp h
  obtain ⟨rest, hrest⟩ := hocc
  have hdrop : s.drop (n + d.length) = rest := by
    rw [← List.drop_drop, ← hrest]
    simp
  have hs : s = s.take n ++ d ++ rest := by
    rw [List.append_assoc, hrest, List.take_append_drop]
  refine ⟨by rw [hdrop]; exact hs, ?_⟩
  have hn : (s.take n).length = n := by simp [hle]
  refine find_first_eq_some.mpr ⟨by simp, by simp, fun m hm hearly => ?_⟩
  refine hfirst m (by omega) ?_
  rw [hs, List.drop_append_of_le_length (by simp [hn]; omega)]
  exact hearly.trans (List.prefix_append _ _)

/-- A framed message is found where it ends, whatever follows it. -/
theorem Framed.find {d m : List α} (hd : d ≠ []) (h : Framed d m) (s : List α) :
    findFirst d (m ++ d ++ s) = some m.length :=
  find_first_append s hd h

/-- A message is framed unless a delimiter starts inside it, be it one that only the
delimiter after the message completes. -/
theorem framed_iff {d m : List α} :
    Framed d m ↔ ∀ u, u <:+ m → u ≠ [] → ¬ d <+: u ++ d := by
  rw [Framed, find_first_eq_some]
  constructor
  · rintro ⟨-, -, hfirst⟩ u ⟨v, rfl⟩ hu hocc
    refine hfirst v.length ?_ (by simpa using hocc)
    have := List.length_pos_of_ne_nil hu
    simp only [List.length_append]
    omega
  · intro h
    refine ⟨by simp, by simp, fun k hk hocc => ?_⟩
    rw [List.drop_append_of_le_length (by omega)] at hocc
    refine h (m.drop k) (List.drop_suffix k m) ?_ hocc
    intro hnil
    have := congrArg List.length hnil
    simp only [List.length_drop, List.length_nil] at this
    omega

/-- The number of cuts allowed does not matter once it reaches the length of the input. -/
theorem frames_with_fuel {d : List α} (hd : d ≠ []) (fuel : Nat) (s : List α)
    (h : s.length ≤ fuel) : framesWith d fuel s = frames d s := by
  have hpos := List.length_pos_of_ne_nil hd
  suffices ∀ fuel fuel' s, s.length ≤ fuel → s.length ≤ fuel' →
      framesWith d fuel s = framesWith d fuel' s from this _ _ _ h le_rfl
  clear h s fuel
  intro fuel
  induction fuel with
  | zero =>
      intro fuel' s hs _
      obtain rfl : s = [] := by simpa using hs
      cases fuel' with
      | zero => rfl
      | succ fuel' => simp [framesWith, findFirst, hd]
  | succ fuel ih =>
      intro fuel' s hs hs'
      cases fuel' with
      | zero =>
          obtain rfl : s = [] := by simpa using hs'
          simp [framesWith, findFirst, hd]
      | succ fuel' =>
          cases hfind : findFirst d s with
          | none => simp [framesWith, hfind]
          | some n =>
              have hlen : (s.drop (n + d.length)).length ≤ fuel ∧
                  (s.drop (n + d.length)).length ≤ fuel' := by
                have := congrArg List.length (find_first_split hfind).1
                simp only [List.length_append, List.length_drop] at this ⊢
                omega
              simp only [framesWith, hfind, ih fuel' _ hlen.1 hlen.2]

/-- Bytes without a delimiter are all pending. -/
theorem frames_clean {d t : List α} (h : findFirst d t = none) : frames d t = ([], t) := by
  unfold frames
  cases t.length <;> simp [framesWith, h]

/-- The first message is cut off and the rest is cut on its own. -/
theorem frames_cut {d m : List α} (hd : d ≠ []) (h : Framed d m) (s : List α) :
    frames d (m ++ d ++ s) = (m :: (frames d s).1, (frames d s).2) := by
  have hpos := List.length_pos_of_ne_nil hd
  obtain ⟨fuel, hfuel⟩ : ∃ fuel, (m ++ d ++ s).length = fuel + 1 :=
    ⟨(m ++ d ++ s).length - 1, by simp only [List.length_append]; omega⟩
  have hrest : (m ++ d ++ s).drop (m.length + d.length) = s := by
    rw [← List.length_append, List.drop_left]
  have htake : (m ++ d ++ s).take m.length = m := by simp
  unfold frames
  rw [hfuel, framesWith, h.find hd s]
  simp only [hrest, htake]
  rw [frames_with_fuel hd fuel s (by simp only [List.length_append] at hfuel; omega)]
  rfl

/-- Induction along the cut: a motive that holds of bytes without a delimiter and is kept
when one framed message is put in front holds of every input. -/
theorem frames_rec {d : List α} (hd : d ≠ []) {motive : List α → Prop}
    (clean : ∀ t, findFirst d t = none → motive t)
    (cut : ∀ m s, Framed d m → motive s → motive (m ++ d ++ s)) (s : List α) : motive s := by
  have hpos := List.length_pos_of_ne_nil hd
  induction hlen : s.length using Nat.strong_induction_on generalizing s with
  | _ n ih =>
      cases hfind : findFirst d s with
      | none => exact clean s hfind
      | some k =>
          obtain ⟨hs, hframed⟩ := find_first_split hfind
          rw [hs]
          refine cut _ _ hframed (ih _ ?_ _ rfl)
          have := congrArg List.length hs
          simp only [List.length_append] at this
          omega

variable {d : List α}

/-- The messages and the pending bytes are exactly the input. -/
theorem frames_join (hd : d ≠ []) (s : List α) :
    stream d (frames d s).1 ++ (frames d s).2 = s := by
  induction s using frames_rec hd with
  | clean t h => simp [frames_clean h]
  | cut m s h ih =>
      rw [frames_cut hd h, stream_cons, List.append_assoc, ih]

theorem pending_length_le (hd : d ≠ []) (s : List α) : (pending d s).length ≤ s.length := by
  have := congrArg List.length (frames_join hd s)
  simp only [List.length_append] at this
  unfold pending
  omega

/-- Every message that is cut off is framed. -/
theorem frames_framed (hd : d ≠ []) (s : List α) : ∀ m ∈ (frames d s).1, Framed d m := by
  induction s using frames_rec hd with
  | clean t h => simp [frames_clean h]
  | cut m s h ih =>
      rw [frames_cut hd h]
      exact List.forall_mem_cons.mpr ⟨h, ih⟩

/-- The pending bytes hold no further delimiter. -/
theorem pending_clean (hd : d ≠ []) (s : List α) : findFirst d (pending d s) = none := by
  unfold pending
  induction s using frames_rec hd with
  | clean t h => rwa [frames_clean h]
  | cut m s h ih => rwa [frames_cut hd h]

/-- Cutting can stop anywhere and resume from the pending bytes. -/
theorem frames_append (hd : d ≠ []) (s t : List α) :
    frames d (s ++ t) =
      ((frames d s).1 ++ (frames d (pending d s ++ t)).1, (frames d (pending d s ++ t)).2) := by
  unfold pending
  induction s using frames_rec hd with
  | clean u h => simp [frames_clean h]
  | cut m s h ih =>
      rw [List.append_assoc, frames_cut hd h (s ++ t), ih, frames_cut hd h s]
      simp

theorem pending_append (hd : d ≠ []) (s t : List α) :
    pending d (s ++ t) = pending d (pending d s ++ t) := by
  rw [pending, frames_append hd s t]
  rfl

/-- A stream of framed messages is cut into exactly these messages. -/
theorem frames_stream (hd : d ≠ []) {ms : List (List α)} (h : ∀ m ∈ ms, Framed d m) :
    frames d (stream d ms) = (ms, []) := by
  induction ms with
  | nil => exact frames_clean (by simp [findFirst, hd])
  | cons m ms ih =>
      rw [stream_cons, frames_cut hd (h m (by simp)), ih fun m hm => h m (by simp [hm])]

/-- At a cut of a stream of framed messages, less than one message with its delimiter is
pending. -/
theorem pending_stream_part (hd : d ≠ []) {ms : List (List α)} {limit : Nat}
    (hms : ∀ m ∈ ms, Framed d m ∧ m.length ≤ limit) {before after : List α}
    (h : before ++ after = stream d ms) : (pending d before).length < limit + d.length := by
  have hpos := List.length_pos_of_ne_nil hd
  have hnil : pending d [] = [] := by rw [pending, frames_clean (by simp [findFirst, hd])]
  induction ms generalizing before with
  | nil =>
      obtain ⟨rfl, -⟩ : before = [] ∧ after = [] := by simpa using h
      rw [hnil, List.length_nil]
      omega
  | cons m ms ih =>
      obtain ⟨hframed, hlen⟩ := hms m (by simp)
      have hcut : ∀ c, pending d (m ++ d ++ c) = pending d c := fun c => by
        rw [pending, frames_cut hd hframed, pending]
      rw [stream_cons] at h
      rcases List.append_eq_append_iff.mp h with ⟨c, hwhole, -⟩ | ⟨c, hbefore, hrest⟩
      · -- The cut is inside the first message or its delimiter, or right after them.
        by_cases hc : c = []
        · rw [hc, List.append_nil] at hwhole
          rw [← hwhole, ← List.append_nil (m ++ d), hcut, hnil, List.length_nil]
          omega
        · have hle := pending_length_le hd before
          have hsum := congrArg List.length hwhole
          have := List.length_pos_of_ne_nil hc
          simp only [List.length_append] at hsum
          omega
      · rw [hbefore, hcut]
        exact ih (fun m hm => hms m (by simp [hm])) hrest.symm

/-- The input holds no delimiter exactly if the search fails. -/
theorem find_first_none_iff {s : List α} : findFirst d s = none ↔ ¬ d <:+: s := by
  rw [find_first_eq_none]
  constructor
  · rintro h ⟨before, after, rfl⟩
    exact h before.length (by simp only [List.length_append]; omega) (by simp)
  · rintro h n - hocc
    exact h (hocc.isInfix.trans (List.drop_suffix n s).isInfix)

/-- The end of a framed message is framed. -/
theorem Framed.suffix {m u : List α} (h : Framed d m) (hu : u <:+ m) : Framed d u :=
  framed_iff.mpr fun v hv hne => framed_iff.mp h v (hv.trans hu) hne

/-- A framed message in front of a stream is its first message. -/
theorem framed_stream_head (hd : d ≠ []) {m s : List α} (hm : Framed d m)
    {ms : List (List α)} (hms : ∀ m ∈ ms, Framed d m) (h : m ++ d ++ s = stream d ms) :
    ∃ later, ms = m :: later ∧ s = stream d later := by
  cases ms with
  | nil => simp [hd] at h
  | cons first later =>
      have hfind := hm.find hd s
      rw [stream_cons] at h
      rw [h, (hms first (by simp)).find hd] at hfind
      have hlen : m.length = first.length := (Option.some.inj hfind).symm
      obtain ⟨hhead, hs⟩ := List.append_inj h (by simp [hlen])
      exact ⟨later, by rw [(List.append_inj hhead hlen).1], hs⟩

/-- A part of a framed message and its delimiter is pending as it is. -/
theorem pending_part (hd : d ≠ []) {m s c : List α} (hm : Framed d m) (hpart : s ++ c = m ++ d)
    (hshort : s.length < m.length + d.length) : pending d s = s := by
  rw [pending, frames_clean]
  cases hfind : findFirst d s with
  | none => rfl
  | some n =>
      have happend := find_first_append c hd hfind
      rw [hpart, hm] at happend
      obtain rfl := Option.some.inj happend
      obtain ⟨hle, hocc, -⟩ := find_first_eq_some.mp hfind
      have := hocc.length_le
      rw [List.length_drop] at this
      omega

/-- How much is pending at a cut of a stream of framed messages depends only on the lengths
of the messages. -/
theorem pending_length_congr (hd : d ≠ []) {ms others : List (List α)}
    (hlen : List.Forall₂ (fun m other => m.length = other.length) ms others)
    (hms : ∀ m ∈ ms, Framed d m) (hothers : ∀ m ∈ others, Framed d m)
    {s t after later : List α} (hs : s ++ after = stream d ms) (ht : t ++ later = stream d others)
    (hst : s.length = t.length) : (pending d s).length = (pending d t).length := by
  have hcut : ∀ {m c : List α}, Framed d m → pending d (m ++ d ++ c) = pending d c :=
    fun hm => by rw [pending, frames_cut hd hm, pending]
  induction hlen generalizing s t with
  | nil =>
      obtain ⟨rfl, -⟩ := List.append_eq_nil_iff.mp hs
      obtain ⟨rfl, -⟩ := List.append_eq_nil_iff.mp ht
      rfl
  | @cons m other ms others hsame _ ih =>
      have hm := hms m (by simp)
      have hother := hothers other (by simp)
      rw [stream_cons] at hs ht
      by_cases hlong : m.length + d.length ≤ s.length
      · -- Both cuts are behind the first message.
        obtain ⟨c, rfl⟩ : m ++ d <+: s :=
          List.prefix_of_prefix_length_le ⟨_, hs.symm⟩ (List.prefix_append s after)
            (by simpa using hlong)
        obtain ⟨e, rfl⟩ : other ++ d <+: t :=
          List.prefix_of_prefix_length_le ⟨_, ht.symm⟩ (List.prefix_append t later)
            (by simp only [List.length_append]; omega)
        rw [hcut hm, hcut hother]
        simp only [List.append_assoc, List.append_cancel_left_eq] at hs ht
        exact ih (fun m hmem => hms m (by simp [hmem])) (fun m hmem => hothers m (by simp [hmem]))
          hs ht (by simp only [List.length_append] at hst; omega)
      · -- Both cuts are inside it.
        obtain ⟨c, hc⟩ : s <+: m ++ d :=
          List.prefix_of_prefix_length_le (List.prefix_append s after) ⟨_, hs.symm⟩
            (by simp only [List.length_append]; omega)
        obtain ⟨e, he⟩ : t <+: other ++ d :=
          List.prefix_of_prefix_length_le (List.prefix_append t later) ⟨_, ht.symm⟩
            (by simp only [List.length_append]; omega)
        rw [pending_part hd hm hc (by omega), pending_part hd hother he (by omega)]
        exact hst

/-- A one-element delimiter frames the messages that do not contain it. -/
theorem framed_singleton {a : α} {m : List α} : Framed [a] m ↔ a ∉ m := by
  rw [framed_iff]
  constructor
  · intro h hmem
    obtain ⟨v, w, rfl⟩ := List.append_of_mem hmem
    exact h (a :: w) (List.suffix_append v _) (by simp) (by simp)
  · rintro h u hu hne hocc
    cases u with
    | nil => exact hne rfl
    | cons b u =>
        obtain ⟨rfl, -⟩ := List.cons_prefix_cons.mp hocc
        exact h (hu.subset (by simp))

/-- A one-element delimiter starts in a list that contains it, and only there. -/
theorem find_first_singleton {a : α} {s : List α} : findFirst [a] s = none ↔ a ∉ s := by
  induction s with
  | nil => simp [findFirst]
  | cons x rest ih =>
      by_cases hx : a = x
      · simp [findFirst, hx]
      · simp [findFirst, hx, ih]

end Delimited
