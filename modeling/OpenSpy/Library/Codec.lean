import Mathlib.Data.List.Basic
import Mathlib.Tactic.Common

/-!
# Readers of a format

A reader takes a value off the front of a text and leaves the rest. `Reads r text a` says that
it takes `a` off `text`, whatever stands behind it, so what two readers do one after the other
follows from what each does.
-/

namespace Codec

variable {α β γ : Type*}

/-- A reader of values of type `α` in texts over `β`. -/
abbrev Reader (β α : Type*) := List β → Option (α × List β)

namespace Reader

/-- The reader that takes one element. -/
def item : Reader β β
  | [] => none
  | b :: rest => some (b, rest)

/-- The reader that takes nothing. -/
def pure (a : α) : Reader β α := fun text => some (a, text)

/-- One reader after the other. -/
def bind (r : Reader β α) (f : α → Reader β γ) : Reader β γ := fun text =>
  (r text).bind fun (a, rest) => f a rest

/-- The value of a reader, changed by a function. -/
def map (f : α → γ) (r : Reader β α) : Reader β γ :=
  r.bind fun a => pure (f a)

/-- A reader, a number of times. -/
def times (r : Reader β α) : Nat → Reader β (List α)
  | 0 => pure []
  | n + 1 => r.bind fun a => (times r n).map (a :: ·)

/-- What a reader takes, up to `fuel` times, before it finds the end. -/
def untilEnd (r : Reader β (Option α)) : Nat → Reader β (List α)
  | 0 => fun _ => none
  | fuel + 1 => r.bind fun
      | none => pure []
      | some a => (untilEnd r fuel).map (a :: ·)

/-- The elements before the first `stop`, which is taken as well. -/
def before [DecidableEq β] (stop : β) : Reader β (List β)
  | [] => none
  | b :: rest =>
      if b = stop then some ([], rest)
      else (before stop rest).map fun (taken, rest) => (b :: taken, rest)

end Reader

/-- The reader takes `a` off the text, whatever comes behind. -/
def Reads (r : Reader β α) (text : List β) (a : α) : Prop :=
  ∀ rest, r (text ++ rest) = some (a, rest)

variable {r : Reader β α} {text other : List β} {a : α} {c : γ}

theorem Reads.pure (a : α) : Reads (Reader.pure a) ([] : List β) a :=
  fun _ => rfl

theorem Reads.item (b : β) : Reads Reader.item [b] b :=
  fun _ => rfl

theorem Reads.bind {f : α → Reader β γ} (h : Reads r text a) (hf : Reads (f a) other c) :
    Reads (r.bind f) (text ++ other) c := by
  intro rest
  rw [List.append_assoc]
  show (r (text ++ (other ++ rest))).bind (fun (a, rest) => f a rest) = some (c, rest)
  rw [h (other ++ rest)]
  exact hf rest

theorem Reads.map (f : α → γ) (h : Reads r text a) : Reads (r.map f) text (f a) := by
  have hmap := h.bind (f := fun a => Reader.pure (f a)) (Reads.pure (f a))
  rwa [List.append_nil] at hmap

/-- A reader reads the values of a list if it reads each of them. -/
theorem Reads.times {enc : γ → List β} {dec : γ → α} {xs : List γ}
    (h : ∀ x ∈ xs, Reads r (enc x) (dec x)) :
    Reads (r.times xs.length) (xs.flatMap enc) (xs.map dec) := by
  induction xs with
  | nil => exact .pure _
  | cons x xs ih =>
      have hrest := ih fun y hy => h y (List.mem_cons_of_mem _ hy)
      rw [List.flatMap_cons]
      exact (h x List.mem_cons_self).bind (hrest.map (dec x :: ·))

/-- A reader reads the texts of a list one after the other if it reads each of them. -/
theorem Reads.times_texts {dec : γ → α} {xs : List γ} {texts : List (List β)}
    (h : List.Forall₂ (fun x text => Reads r text (dec x)) xs texts) :
    Reads (r.times xs.length) texts.flatten (xs.map dec) := by
  induction h with
  | nil => exact .pure _
  | cons hx _ ih => exact hx.bind (ih.map (dec _ :: ·))

/-- A reader reads the values of a list up to the end, if there is fuel for all. -/
theorem Reads.until_end {r : Reader β (Option α)} {enc : γ → List β} {dec : γ → α}
    {xs : List γ} {stop : List β} (h : ∀ x ∈ xs, Reads r (enc x) (some (dec x)))
    (hstop : Reads r stop none) {fuel : Nat} (hfuel : xs.length < fuel) :
    Reads (r.untilEnd fuel) (xs.flatMap enc ++ stop) (xs.map dec) := by
  induction xs generalizing fuel with
  | nil =>
      obtain ⟨fuel, rfl⟩ : ∃ n, fuel = n + 1 := ⟨fuel - 1, by grind⟩
      rw [List.flatMap_nil, List.nil_append, ← List.append_nil stop]
      exact hstop.bind (.pure _)
  | cons x xs ih =>
      obtain ⟨fuel, rfl⟩ : ∃ n, fuel = n + 1 := ⟨fuel - 1, by grind⟩
      have hrest : Reads (r.untilEnd fuel) (xs.flatMap enc ++ stop) (xs.map dec) :=
        ih (fun y hy => h y (List.mem_cons_of_mem _ hy)) (by simpa using hfuel)
      rw [List.flatMap_cons, List.append_assoc]
      exact (h x List.mem_cons_self).bind (hrest.map (dec x :: ·))

/-- Values that take at least an element each are no more than the elements. -/
theorem length_le_length_flat_map {enc : γ → List β} {xs : List γ} (h : ∀ x ∈ xs, enc x ≠ []) :
    xs.length ≤ (xs.flatMap enc).length := by
  induction xs with
  | nil => exact Nat.le_refl _
  | cons x xs ih =>
      have hx := List.length_pos_iff.mpr (h x List.mem_cons_self)
      have hxs := ih fun y hy => h y (List.mem_cons_of_mem _ hy)
      rw [List.flatMap_cons, List.length_cons, List.length_append]
      omega

/-- A text without the mark is read up to the mark. -/
theorem Reads.before [DecidableEq β] {stop : β} {text : List β} (h : stop ∉ text) :
    Reads (Reader.before stop) (text ++ [stop]) text := by
  intro rest
  induction text with
  | nil => simp [Reader.before]
  | cons b text ih =>
      have hne : b ≠ stop := fun heq => h (heq ▸ List.mem_cons_self)
      have hrest := ih fun hmem => h (List.mem_cons_of_mem _ hmem)
      rw [List.cons_append, List.cons_append, Reader.before, if_neg hne, hrest]
      rfl

end Codec
