import Mathlib.Data.List.Infix
import Mathlib.Data.List.Forall2
import Mathlib.Tactic.Common

/-!
# Patterns with stars

A pattern is a list of symbols. A star symbol stands for any run of letters, and any other
symbol for one letter that is like it. `glob` tries every way to split the text and so says
what a pattern means. The lemmas below are what a matcher that remembers only its last star
needs: behind a star it may start over at any later letter, and at no earlier one.
-/

namespace Glob

variable {α β : Type*} (star : α → Bool) (like : α → β → Bool)

/-- The text matches the pattern. -/
def glob : List α → List β → Bool
  | [], text => text.isEmpty
  | symbol :: pattern, text =>
      if star symbol then text.tails.any (glob pattern)
      else
        match text with
        | [] => false
        | letter :: text => like symbol letter && glob pattern text

/-- A run of letters that are like the symbols of a pattern without stars. -/
def Alike (word : List α) (letters : List β) : Prop :=
  List.Forall₂ (fun symbol letter => like symbol letter = true) word letters

/-- A piece of text that a symbol stands for. -/
def Stands (symbol : α) (piece : List β) : Prop :=
  star symbol ∨ ∃ letter, piece = [letter] ∧ like symbol letter

/-- The text is put together from pieces that the symbols of a pattern stand for. -/
def Composed (pattern : List α) (text : List β) : Prop :=
  ∃ pieces : List (List β), List.Forall₂ (Stands star like) pattern pieces ∧ pieces.flatten = text

variable {star like}

@[simp] theorem glob_nil (text : List β) : glob star like [] text = text.isEmpty := rfl

/-- A star stands for any beginning of the text. -/
theorem glob_star {symbol : α} (h : star symbol) (pattern : List α) (text : List β) :
    glob star like (symbol :: pattern) text ↔
      ∃ rest, rest <:+ text ∧ glob star like pattern rest := by
  simp [glob, h]

/-- Another symbol stands for the first letter. -/
theorem glob_letter {symbol : α} (h : ¬ star symbol) (pattern : List α) (letter : β)
    (text : List β) :
    glob star like (symbol :: pattern) (letter :: text) ↔
      like symbol letter ∧ glob star like pattern text := by
  simp [glob, h]

theorem glob_letter_nil {symbol : α} (h : ¬ star symbol) (pattern : List α) :
    ¬ glob star like (symbol :: pattern) ([] : List β) := by
  simp [glob, h]

/-- A text matches a pattern if it is put together from what the symbols stand for. -/
theorem glob_iff_composed (pattern : List α) (text : List β) :
    glob star like pattern text ↔ Composed star like pattern text := by
  induction pattern generalizing text with
  | nil =>
      rw [glob_nil, List.isEmpty_iff]
      constructor
      · rintro rfl
        exact ⟨[], .nil, rfl⟩
      · rintro ⟨pieces, hpieces, rfl⟩
        cases hpieces
        rfl
  | cons symbol pattern ih =>
      have hcons : Composed star like (symbol :: pattern) text ↔ ∃ piece rest,
          Stands star like symbol piece ∧ Composed star like pattern rest ∧
            piece ++ rest = text := by
        constructor
        · rintro ⟨pieces, hpieces, rfl⟩
          cases hpieces with
          | cons hpiece hpieces => exact ⟨_, _, hpiece, ⟨_, hpieces, rfl⟩, rfl⟩
        · rintro ⟨piece, rest, hpiece, ⟨pieces, hpieces, rfl⟩, rfl⟩
          exact ⟨piece :: pieces, .cons hpiece hpieces, rfl⟩
      rw [hcons]
      by_cases hsymbol : star symbol
      · rw [glob_star hsymbol]
        constructor
        · rintro ⟨rest, ⟨piece, rfl⟩, hglob⟩
          exact ⟨piece, rest, .inl hsymbol, (ih rest).mp hglob, rfl⟩
        · rintro ⟨piece, rest, -, hrest, rfl⟩
          exact ⟨rest, List.suffix_append piece rest, (ih rest).mpr hrest⟩
      · cases text with
        | nil =>
            refine iff_of_false (glob_letter_nil hsymbol pattern) ?_
            rintro ⟨piece, rest, hpiece, -, htext⟩
            obtain ⟨letter, rfl, -⟩ := hpiece.resolve_left hsymbol
            simp at htext
        | cons letter text =>
            rw [glob_letter hsymbol]
            constructor
            · rintro ⟨hlike, hglob⟩
              exact ⟨[letter], text, .inr ⟨letter, rfl, hlike⟩, (ih text).mp hglob, rfl⟩
            · rintro ⟨piece, rest, hpiece, hrest, htext⟩
              obtain ⟨first, rfl, hlike⟩ := hpiece.resolve_left hsymbol
              obtain ⟨rfl, rfl⟩ := List.cons.inj htext
              exact ⟨hlike, (ih rest).mpr hrest⟩

/-- Only the symbols of the pattern matter. -/
theorem glob_congr {star' : α → Bool} {pattern : List α}
    (h : ∀ symbol ∈ pattern, star symbol = star' symbol) (text : List β) :
    glob star like pattern text = glob star' like pattern text := by
  induction pattern generalizing text with
  | nil => rfl
  | cons symbol pattern ih =>
      have htail := fun text => ih (fun s hs => h s (List.mem_cons_of_mem symbol hs)) text
      simp only [glob, h symbol List.mem_cons_self, funext htail]

/-- A star at the front takes in more text in front. -/
theorem glob_star_append {symbol : α} (h : star symbol) {pattern : List α} {text : List β}
    (hglob : glob star like (symbol :: pattern) text) (before : List β) :
    glob star like (symbol :: pattern) (before ++ text) := by
  obtain ⟨rest, hrest, hpattern⟩ := (glob_star h _ _).mp hglob
  exact (glob_star h _ _).mpr ⟨rest, hrest.trans (List.suffix_append before text), hpattern⟩

/-- Two stars in a row are one. -/
theorem glob_star_star {symbol second : α} (h : star symbol) (hsecond : star second)
    (pattern : List α) (text : List β) :
    glob star like (symbol :: second :: pattern) text ↔
      glob star like (second :: pattern) text := by
  rw [glob_star h]
  constructor
  · rintro ⟨rest, ⟨before, rfl⟩, hglob⟩
    exact glob_star_append hsecond hglob before
  · intro hglob
    exact ⟨text, List.suffix_rfl, hglob⟩

/-- Stars in front of a star add nothing. -/
theorem glob_drop_stars {symbol : α} (h : star symbol) (pattern : List α) (text : List β) :
    glob star like (symbol :: pattern) text ↔
      glob star like (symbol :: pattern.dropWhile star) text := by
  induction pattern with
  | nil => rfl
  | cons second pattern ih =>
      by_cases hsecond : star second
      · have hshort : glob star like (symbol :: pattern) text ↔
            glob star like (second :: pattern) text := by
          rw [glob_star h, glob_star hsecond]
        rw [List.dropWhile_cons_of_pos hsecond, glob_star_star h hsecond, ← hshort, ih]
      · rw [List.dropWhile_cons_of_neg hsecond]

/-- A pattern that begins without stars takes as many letters. -/
theorem glob_word {word : List α} (h : ∀ symbol ∈ word, ¬ star symbol) (pattern : List α)
    (text : List β) :
    glob star like (word ++ pattern) text ↔
      ∃ letters rest, text = letters ++ rest ∧ Alike like word letters ∧
        glob star like pattern rest := by
  induction word generalizing text with
  | nil =>
      constructor
      · intro hglob
        exact ⟨[], text, rfl, .nil, hglob⟩
      · rintro ⟨letters, rest, rfl, halike, hglob⟩
        cases halike
        exact hglob
  | cons symbol word ih =>
      have hsymbol := h symbol (by simp)
      cases text with
      | nil =>
          refine iff_of_false (glob_letter_nil hsymbol _) ?_
          rintro ⟨letters, rest, htext, halike, -⟩
          cases halike with
          | cons _ _ => simp at htext
      | cons letter text =>
          rw [List.cons_append, glob_letter hsymbol, ih fun s hs => h s (by simp [hs])]
          constructor
          · rintro ⟨hlike, letters, rest, rfl, halike, hglob⟩
            exact ⟨letter :: letters, rest, rfl, .cons hlike halike, hglob⟩
          · rintro ⟨letters, rest, htext, halike, hglob⟩
            cases halike with
            | cons hlike halike =>
                obtain ⟨rfl, rfl⟩ := List.cons.inj htext
                exact ⟨hlike, _, rest, rfl, halike, hglob⟩

theorem Alike.length_eq {word : List α} {letters : List β} (h : Alike like word letters) :
    word.length = letters.length :=
  List.Forall₂.length_eq h

/-- The last star decides: a match that begins behind a star and contains another star can
begin as early as possible. Here the text was read up to `rest` without a mismatch. -/
theorem glob_last_star {word : List α} (hword : ∀ symbol ∈ word, ¬ star symbol) {symbol : α}
    (hsymbol : star symbol) {pattern : List α} {letters rest later : List β}
    (hlen : word.length = letters.length) (hlater : later <:+ letters ++ rest)
    (hglob : glob star like (word ++ symbol :: pattern) later) :
    glob star like (symbol :: pattern) rest := by
  obtain ⟨read, left, rfl, halike, hleft⟩ := (glob_word hword _ _).mp hglob
  have hread := halike.length_eq
  have hshort : left <:+ rest := by
    have hsuffix : left <:+ letters ++ rest := (List.suffix_append read left).trans hlater
    refine List.suffix_of_suffix_length_le hsuffix (List.suffix_append letters rest) ?_
    have := hlater.length_le
    simp only [List.length_append] at this
    omega
  obtain ⟨before, rfl⟩ := hshort
  exact glob_star_append hsymbol hleft before

end Glob
