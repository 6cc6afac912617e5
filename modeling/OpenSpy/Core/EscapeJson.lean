import OpenSpy.Library.Ascii

/-!
# Escapes in JSON strings

`OS::escapeJSON` writes a byte that cannot stand in a JSON string as a backslash and a letter, and
`OS::unescapeJSON` reads it back. The reader leaves its loop behind the first escape:
`unescape_escape_iff` says which strings come back.
-/

namespace OpenSpy

open Bytes

/-- What `escapeJSON` writes for a character. -/
def escapeChar (ch : UInt8) : Bytes :=
  if ch = char '"' then ascii "\\\""
  else if ch = char '/' then ascii "\\/"
  else if ch = 8 then ascii "\\b"
  else if ch = 12 then ascii "\\f"
  else if ch = char '\n' then ascii "\\n"
  else if ch = char '\r' then ascii "\\r"
  else if ch = char '\t' then ascii "\\t"
  else if ch = char '\\' then ascii "\\\\"
  else [ch]

/-- `OS::escapeJSON`. -/
def escapeJSON (input : Bytes) : Bytes :=
  input.flatMap escapeChar

/-- What `unescapeJSON` makes of a character behind a backslash. The quote, the slash and the
backslash stand for themselves, as every other character does. -/
def unescapeChar (ch : UInt8) : UInt8 :=
  if ch = char 'b' then 8
  else if ch = char 'f' then 12
  else if ch = char 'n' then char '\n'
  else if ch = char 'r' then char '\r'
  else if ch = char 't' then char '\t'
  else ch

/-- The loop of `unescapeJSON`. -/
def unescapeFrom : Bool → Bytes → Bytes
  | _, [] => []
  -- the `break` is the loop's, so nothing behind the escape is read
  | true, ch :: _ => [unescapeChar ch]
  | false, ch :: rest =>
      if ch = char '\\' then unescapeFrom true rest else ch :: unescapeFrom false rest

/-- `OS::unescapeJSON`. -/
def unescapeJSON (input : Bytes) : Bytes :=
  unescapeFrom false input

/-- A character that needs no escape. -/
def IsUnescaped (ch : UInt8) : Prop :=
  escapeChar ch = [ch]

instance (ch : UInt8) : Decidable (IsUnescaped ch) :=
  inferInstanceAs (Decidable (_ = _))

/-- An escape is a backslash and a letter that stands for the character. -/
theorem escape_char_cases (ch : UInt8) :
    IsUnescaped ch ∧ ch ≠ char '\\' ∨
      ¬ IsUnescaped ch ∧ ∃ letter, escapeChar ch = [char '\\', letter] ∧
        unescapeChar letter = ch := by
  by_cases hplain : IsUnescaped ch
  · refine .inl ⟨hplain, ?_⟩
    rintro rfl
    exact absurd hplain (by decide)
  · have hescaped : ch = char '"' ∨ ch = char '/' ∨ ch = 8 ∨ ch = 12 ∨ ch = char '\n' ∨
        ch = char '\r' ∨ ch = char '\t' ∨ ch = char '\\' := by
      by_contra hnone
      simp only [not_or] at hnone
      obtain ⟨hquote, hslash, hb, hf, hn, hr, ht, hbackslash⟩ := hnone
      apply hplain
      rw [IsUnescaped, escapeChar, if_neg hquote, if_neg hslash, if_neg hb, if_neg hf, if_neg hn,
        if_neg hr, if_neg ht, if_neg hbackslash]
    refine .inr ⟨hplain, ?_⟩
    rcases hescaped with rfl | rfl | rfl | rfl | rfl | rfl | rfl | rfl <;>
      exact ⟨_, rfl, by decide⟩

/-- A string comes back from its escaped form exactly if no character in front of the last one
needs an escape. -/
theorem unescape_escape_iff (s : Bytes) :
    unescapeJSON (escapeJSON s) = s ↔ ∀ ch ∈ s.dropLast, IsUnescaped ch := by
  induction s with
  | nil => simp [escapeJSON, unescapeJSON, unescapeFrom]
  | cons ch rest ih =>
      rcases escape_char_cases ch with ⟨hplain, hne⟩ | ⟨hescaped, letter, hescape, hletter⟩
      · have hcons : unescapeJSON (escapeJSON (ch :: rest)) =
            ch :: unescapeJSON (escapeJSON rest) := by
          rw [escapeJSON, List.flatMap_cons, show escapeChar ch = [ch] from hplain]
          simp [unescapeJSON, unescapeFrom, hne, escapeJSON]
        rw [hcons, List.cons.injEq, ih]
        by_cases hrest : rest = []
        · simp [hrest]
        · simp [List.dropLast_cons_of_ne_nil hrest, hplain]
      · -- the loop ends behind the escape
        have hend : unescapeJSON (escapeJSON (ch :: rest)) = [ch] := by
          rw [escapeJSON, List.flatMap_cons, hescape]
          simp [unescapeJSON, unescapeFrom, hletter]
        rw [hend]
        by_cases hrest : rest = []
        · simp [hrest]
        · simp [List.dropLast_cons_of_ne_nil hrest, hescaped, Ne.symm hrest]

/-- What is behind a slash does not come back. -/
theorem slash_cuts_string : ¬ ∀ s : Bytes, unescapeJSON (escapeJSON s) = s := by
  intro h
  exact absurd (h (ascii "a/b")) (by decide)

end OpenSpy
