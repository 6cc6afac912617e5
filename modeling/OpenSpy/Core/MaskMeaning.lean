import OpenSpy.Core.Match

/-!
# What masks mean

`match2` takes its wildcard as a `char`, which may be negative, and compares it with bytes from 0
to 255. `match2_decides` says that it returns 0 exactly if the name is put together from what the
bytes of the mask stand for.

`match` cuts `*!` and `*@` off the mask and the name behind the first such mark. This is what the
wildcard does in a name that has each mark once at most: `match_mask_eq_match2`.
-/

namespace OpenSpy

open Bytes Glob

/-- `*m == wildcard_char`: a negative `char` is equal to no byte. -/
def isWildcard (wildcardChar : Int) (byte : UInt8) : Bool :=
  (byte.toNat : Int) == wildcardChar

/-- The byte that is equal to the wildcard. A `char` that is equal to no byte is like a NUL, which
is in no mask. -/
def wildcardByte (wildcardChar : Int) : UInt8 :=
  if 0 ≤ wildcardChar ∧ wildcardChar < 256 then .ofNat wildcardChar.toNat else 0

/-- The byte stands for the wildcard in a mask without NULs. -/
theorem is_wildcard_eq {wildcardChar : Int} {byte : UInt8} (hbyte : byte ≠ 0) :
    isWildcard wildcardChar byte = (byte == wildcardByte wildcardChar) := by
  have hlt := byte.toNat_lt
  have hne : byte.toNat ≠ 0 := fun h => hbyte (UInt8.toNat_inj.mp h)
  rw [Bool.eq_iff_iff, isWildcard, beq_iff_eq, beq_iff_eq, ← UInt8.toNat_inj, wildcardByte]
  split_ifs with hrange
  · rw [UInt8.toNat_ofNat']
    omega
  · simp only [UInt8.toNat_zero]
    omega

/-- `match2` returns, and it returns 0 exactly if the name can be put together from the mask: any
text for a wildcard, and one byte for another byte of the mask, any one for a question mark. With
a NUL for the wildcard the code would not stop at the end of the mask. -/
theorem match2_decides (wildcardChar : Int) (hquestion : wildcardChar ≠ (char '?').toNat)
    (_hnul : wildcardChar ≠ 0) (mask name : Bytes) (hmask : 0 ∉ mask) :
    Returns (wildcardByte wildcardChar) mask ⟨mask, name, none⟩
        (match2 (wildcardByte wildcardChar) mask name) ∧
      (match2 (wildcardByte wildcardChar) mask name = 0 ↔
        Composed (isWildcard wildcardChar) likeByte mask name) := by
  have hwildcard : wildcardByte wildcardChar ≠ char '?' := by
    intro heq
    have hsame : isWildcard wildcardChar (char '?') = (char '?' == wildcardByte wildcardChar) :=
      is_wildcard_eq (by decide)
    rw [heq, beq_self_eq_true, isWildcard, beq_iff_eq] at hsame
    exact hquestion hsame.symm
  obtain ⟨hreturns, hanswer⟩ := match2_spec hwildcard mask name
  have hbytes : ∀ byte ∈ mask, isWildcard wildcardChar byte = (byte == wildcardByte wildcardChar) :=
    fun byte hbyte => is_wildcard_eq fun hzero => hmask (hzero ▸ hbyte)
  rw [← glob_iff_composed, glob_congr hbytes]
  exact ⟨hreturns, hanswer⟩

/-- The mask `%a_?` in a filter. -/
theorem match2_decides_of_filter :
    (char '%').toNat ≠ ((char '?').toNat : Int) ∧ ((char '%').toNat : Int) ≠ 0 ∧
      0 ∉ ascii "%a_?" ∧
        Returns (wildcardByte (char '%').toNat) (ascii "%a_?")
            ⟨ascii "%a_?", ascii "BA 1", none⟩
            (match2 (wildcardByte (char '%').toNat) (ascii "%a_?") (ascii "BA 1")) ∧
          (match2 (wildcardByte (char '%').toNat) (ascii "%a_?") (ascii "BA 1") = 0 ↔
            Composed (isWildcard (char '%').toNat) likeByte (ascii "%a_?") (ascii "BA 1")) :=
  ⟨by decide, by decide, by decide, match2_decides _ (by decide) (by decide) _ _ (by decide)⟩

section Marks

variable {mark : UInt8} (hmark : mark = char '!' ∨ mark = char '@')

include hmark

/-- A mark stands for itself only. -/
theorem like_mark (letter : UInt8) : likeByte mark letter ↔ letter = mark := by
  have hupper : char 'A' = 65 ∧ char 'Z' = 90 := ⟨rfl, rfl⟩
  have hbytes : char '!' = 33 ∧ char '@' = 64 ∧ char '_' = 95 ∧ char '?' = 63 := by decide
  rw [like_byte_iff, SameLetter, hupper.1, hupper.2, hbytes.2.2.1, hbytes.2.2.2]
  rcases hmark with rfl | rfl
  · rw [hbytes.1]
    grind
  · rw [hbytes.2.1]
    grind

/-- A name with the mark at most once is matched behind it. -/
theorem mask_glob_mark {name : Bytes} (hcount : name.count mark ≤ 1) (mask : Bytes) :
    maskGlob (char '*') (char '*' :: mark :: mask) name ↔
      ∃ rest, name.dropWhile (· != mark) = mark :: rest ∧ maskGlob (char '*') mask rest := by
  have hstar : mark ≠ char '*' := by rcases hmark with rfl | rfl <;> decide
  have hcut (text : Bytes) : maskGlob (char '*') (mark :: mask) text ↔
      ∃ rest, text = mark :: rest ∧ maskGlob (char '*') mask rest := by
    cases text with
    | nil =>
        refine iff_of_false (glob_letter_nil (by simpa using hstar) mask) ?_
        rintro ⟨rest, htext, -⟩
        cases htext
    | cons letter text =>
        unfold maskGlob
        rw [glob_letter (by simpa using hstar), like_mark hmark]
        simp
  unfold maskGlob at hcut ⊢
  rw [glob_star (by simp)]
  simp only [hcut]
  constructor
  · rintro ⟨_, hsuffix, rest, rfl, hglob⟩
    obtain ⟨before, rfl⟩ := hsuffix
    -- the first mark is the only one
    have hbefore : mark ∉ before := by
      intro hmem
      have hpos := List.count_pos_iff.mpr hmem
      rw [List.count_append, List.count_cons_self] at hcount
      omega
    refine ⟨rest, ?_, hglob⟩
    rw [List.dropWhile_append_of_pos fun byte hbyte => by
      simpa using fun heq : byte = mark => hbefore (heq ▸ hbyte)]
    simp
  · rintro ⟨rest, hdrop, hglob⟩
    exact ⟨mark :: rest, hdrop ▸ List.dropWhile_suffix _, rest, rfl, hglob⟩

/-- Cutting off a mark does not change what the mask matches. -/
theorem skip_prefix_glob {name : Bytes} (hcount : name.count mark ≤ 1) (mask : Bytes) :
    maskGlob (char '*') mask name ↔
      ∃ rest, skipPrefix mark mask name = some rest ∧ maskGlob (char '*') rest.1 rest.2 := by
  by_cases hfront : mask.take 2 = [char '*', mark]
  · obtain ⟨mask', rfl⟩ : ∃ mask', mask = char '*' :: mark :: mask' := by
      refine ⟨mask.drop 2, ?_⟩
      have hsplit := List.take_append_drop 2 mask
      rw [hfront] at hsplit
      exact hsplit.symm
    rw [mask_glob_mark hmark hcount]
    cases hdrop : name.dropWhile (· != mark) with
    | nil => simp [skipPrefix, hdrop]
    | cons letter rest =>
        have hletter : letter = mark := by
          have hnot := List.head?_dropWhile_not (· != mark) name
          simpa [hdrop] using hnot
        simp [skipPrefix, hdrop, hletter]
  · simp [skipPrefix, hfront]

omit hmark in
/-- What is left of the name is its end. -/
theorem skip_prefix_suffix {mask name : Bytes} {rest : Bytes × Bytes}
    (h : skipPrefix mark mask name = some rest) : rest.2 <:+ name := by
  unfold skipPrefix at h
  split at h
  · have hsuffix := List.dropWhile_suffix (l := name) (· != mark)
    split at h
    · cases h
    · rename_i letter name' hdrop
      cases h
      rw [hdrop] at hsuffix
      exact (List.suffix_cons letter name').trans hsuffix
  · cases h
    exact List.suffix_rfl

end Marks

/-- The prefixes that `match` cuts off make no difference for a name with at most one `!` and one
`@`. -/
theorem match_mask_eq_match2 (mask name : Bytes) (hnick : name.count (char '!') ≤ 1)
    (hhost : name.count (char '@') ≤ 1) :
    matchMask mask name = 0 ↔ match2 (char '*') mask name = 0 := by
  have hwildcard : char '*' ≠ char '?' := by decide
  rw [match_mask_iff, match2_iff hwildcard, skip_prefix_glob (.inl rfl) hnick, maskMatches]
  cases hfirst : skipPrefix (char '!') mask name with
  | none => simp
  | some first =>
      have hcount : first.2.count (char '@') ≤ 1 :=
        ((skip_prefix_suffix hfirst).sublist.count_le _).trans hhost
      simp [skip_prefix_glob (.inr rfl) hcount, Option.any_eq_true]

/-- The mask `*!*@*.example` for a full address. -/
theorem match_mask_eq_match2_of_address :
    (ascii "nick!user@a.example").count (char '!') ≤ 1 ∧
      (ascii "nick!user@a.example").count (char '@') ≤ 1 ∧
        (matchMask (ascii "*!*@*.example") (ascii "nick!user@a.example") = 0 ↔
          match2 (char '*') (ascii "*!*@*.example") (ascii "nick!user@a.example") = 0) :=
  ⟨by decide, by decide, match_mask_eq_match2 _ _ (by decide) (by decide)⟩

end OpenSpy
