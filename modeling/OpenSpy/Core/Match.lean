import Mathlib.Data.List.TakeWhile
import Mathlib.Tactic.Ring
import OpenSpy.Library.Ascii
import OpenSpy.Library.Glob

/-!
# Masks

`match2` compares a text with a mask in which `*` stands for any text and `?` for any byte,
ignoring case; a `_` of the mask also stands for a blank. It reads both from left to right and,
on a mismatch, starts over behind the last star, one byte further. `match2_iff` says that this
finds every match: `Glob.glob` is the meaning of the mask. `OS::match2` takes the wildcard as a
parameter and also counts matching bytes, which no caller uses; the peerchat server has the
same loop with `*`.
-/

namespace OpenSpy

open Bytes Glob

/-- The pointers of the loop: what is left of the mask and the name, and behind the last star
what was left of both there (`ma`, `na`). -/
structure MatchState where
  m : Bytes
  n : Bytes
  mark : Option (Bytes × Bytes)
  deriving DecidableEq, Repr

/-- A byte of the mask stands for a byte of the name. -/
def likeByte (m n : UInt8) : Bool :=
  toLower m == toLower n || (m == char '_' && n == char ' ') || m == char '?'

/-- What a byte of the mask stands for: the letter that it is, in either case, a blank besides if it
is an underscore, and anything if it is a question mark. -/
theorem like_byte_iff (m n : UInt8) :
    likeByte m n ↔ SameLetter m n ∨ (m = char '_' ∧ n = char ' ') ∨ m = char '?' := by
  simp only [likeByte, Bool.or_eq_true, Bool.and_eq_true, beq_iff_eq, to_lower_eq_iff, or_assoc]

/-- The wildcards at the front of the mask are skipped and the place is marked. -/
def collapse (wildcard : UInt8) (s : MatchState) : MatchState :=
  if s.m.head? = some wildcard then
    let m := s.m.dropWhile (· == wildcard)
    { s with m := m, mark := some (m, s.n) }
  else s

/-- The tests for the end of the mask and of the name. At the end of the mask, a last star with
only question marks behind it matches the rest, and otherwise the loop starts over. -/
def matchEnd (wildcard : UInt8) (mask : Bytes) (s : MatchState) : Except Nat MatchState :=
  if s.m = [] then
    if s.n = [] then .error 0
    else
      match s.mark with
      | none => .error 1
      | some (ma, na) =>
          if (mask.reverse.dropWhile (· == char '?')).head? = some wildcard then .error 0
          else .ok ⟨ma, na.tail, some (ma, na.tail)⟩
  else if s.n = [] then .error (if s.m.dropWhile (· == wildcard) = [] then 0 else 1)
  else .ok s

/-- The comparison of two bytes. -/
def matchByte (s : MatchState) : Except Nat MatchState :=
  if likeByte (s.m.headD 0) (s.n.headD 0) then .ok { s with m := s.m.tail, n := s.n.tail }
  else
    match s.mark with
    | none => .error 1
    | some (ma, na) => .ok ⟨ma, na.tail, some (ma, na.tail)⟩

/-- The loop of `match2`: 0 for a match and 1 otherwise. -/
def matchLoop (wildcard : UInt8) (mask : Bytes) : Nat → MatchState → Nat
  | 0, _ => 1
  | rounds + 1, s =>
      match matchEnd wildcard mask (collapse wildcard s) >>= matchByte with
      | .error result => result
      | .ok s => matchLoop wildcard mask rounds s

/-- The loop comes to a `return`. -/
inductive Returns (wildcard : UInt8) (mask : Bytes) : MatchState → Nat → Prop
  | done {s : MatchState} {result : Nat}
      (h : matchEnd wildcard mask (collapse wildcard s) >>= matchByte = .error result) :
      Returns wildcard mask s result
  | again {s next : MatchState} {result : Nat}
      (h : matchEnd wildcard mask (collapse wildcard s) >>= matchByte = .ok next)
      (hnext : Returns wildcard mask next result) : Returns wildcard mask s result

/-- `match2` of two C strings. A round moves the mark or the pointers, so the square of the
length of the name bounds the rounds. -/
def match2 (wildcard : UInt8) (mask name : Bytes) : Nat :=
  matchLoop wildcard mask ((name.length + 2) * (name.length + 2)) ⟨mask, name, none⟩

/-- A mask that begins with `*!` is for what is behind the first `!` of the name, and so for
other marks. -/
def skipPrefix (mark : UInt8) (mask name : Bytes) : Option (Bytes × Bytes) :=
  if mask.take 2 = [char '*', mark] then
    match name.dropWhile (· != mark) with
    | [] => none
    | _ :: name => some (mask.drop 2, name)
  else some (mask, name)

/-- `match` of two C strings. -/
def matchMask (mask name : Bytes) : Nat :=
  match skipPrefix (char '!') mask name with
  | none => 1
  | some (mask, name) =>
      match skipPrefix (char '@') mask name with
      | none => 1
      | some (mask, name) => match2 (char '*') mask name

/-- The meaning of a mask. -/
def maskGlob (wildcard : UInt8) (mask name : Bytes) : Bool :=
  glob (· == wildcard) likeByte mask name

/-- The meaning of a mask for hosts and nicks, where `*!` and `*@` in front name the part. -/
def maskMatches (mask name : Bytes) : Bool :=
  ((skipPrefix (char '!') mask name).bind fun (mask, name) =>
    skipPrefix (char '@') mask name).any fun (mask, name) => maskGlob (char '*') mask name

/-- What the loop has still to find out: the rest of the name matches the rest of the mask, or
a later part of it matches from the last star on. -/
def MatchState.Found (wildcard : UInt8) (s : MatchState) : Prop :=
  maskGlob wildcard s.m s.n ∨
    ∃ ma na, s.mark = some (ma, na) ∧ ∃ later, later <:+ na.tail ∧ maskGlob wildcard ma later

/-- The mark is behind a wildcard of the mask, and from there mask and name were read byte by
byte. The name has at most `length` bytes. -/
structure MatchState.Marked (wildcard : UInt8) (mask : Bytes) (length : Nat) (s : MatchState) :
    Prop where
  mask_suffix : s.m <:+ mask
  name_le : s.n.length ≤ length
  behind : ∀ ma na, s.mark = some (ma, na) → ∃ before, mask = before ++ wildcard :: ma
  alike : ∀ ma na, s.mark = some (ma, na) → ∃ word letters, ma = word ++ s.m ∧
    na = letters ++ s.n ∧ word.length = letters.length ∧ ∀ byte ∈ word, byte ≠ wildcard
  mark_le : ∀ ma na, s.mark = some (ma, na) → na.length ≤ length

/-- The number of rounds that are left, for a name of the given length. -/
def MatchState.rounds (length : Nat) (s : MatchState) : Nat :=
  (match s.mark with
    | none => s.n.length + 1
    | some (_, na) => na.length) * (length + 1) + s.n.length

/-- A mask that begins with a wildcard is a wildcard in front of what is behind the wildcards,
up to more of them. -/
theorem drop_wildcards {wildcard : UInt8} {m : Bytes} (h : m.head? = some wildcard) :
    ∃ before, m = before ++ wildcard :: m.dropWhile (· == wildcard) := by
  induction m with
  | nil => simp at h
  | cons byte m ih =>
      obtain rfl : byte = wildcard := by simpa using h
      rw [List.dropWhile_cons_of_pos (by simp)]
      by_cases hm : m.head? = some byte
      · obtain ⟨before, hbefore⟩ := ih hm
        exact ⟨byte :: before, by rw [List.cons_append, ← hbefore]⟩
      · refine ⟨[], ?_⟩
        cases m with
        | nil => rfl
        | cons second m =>
            have hsecond : second ≠ byte := by simpa using hm
            rw [List.dropWhile_cons_of_neg (by simpa using hsecond), List.nil_append]

/-- A text is a suffix of itself or of its tail. -/
theorem exists_suffix_iff {α : Type*} {p : List α → Prop} {text : List α} :
    (∃ rest, rest <:+ text ∧ p rest) ↔ p text ∨ ∃ rest, rest <:+ text.tail ∧ p rest := by
  constructor
  · rintro ⟨rest, hrest, hp⟩
    cases text with
    | nil =>
        obtain rfl := List.suffix_nil.mp hrest
        exact .inl hp
    | cons letter text =>
        rcases List.suffix_cons_iff.mp hrest with rfl | hrest
        · exact .inl hp
        · exact .inr ⟨rest, hrest, hp⟩
  · rintro (hp | ⟨rest, hrest, hp⟩)
    · exact ⟨text, List.suffix_rfl, hp⟩
    · exact ⟨rest, hrest.trans (List.tail_suffix text), hp⟩

/-- A mask that begins with a wildcard matches from some place on. -/
theorem mask_glob_wildcard {wildcard : UInt8} {m : Bytes} (h : m.head? = some wildcard)
    (n : Bytes) :
    maskGlob wildcard m n ↔ maskGlob wildcard (m.dropWhile (· == wildcard)) n ∨
      ∃ later, later <:+ n.tail ∧ maskGlob wildcard (m.dropWhile (· == wildcard)) later := by
  cases m with
  | nil => simp at h
  | cons byte m =>
      obtain rfl : byte = wildcard := by simpa using h
      rw [List.dropWhile_cons_of_pos (by simp)]
      refine Iff.trans ?_ (exists_suffix_iff
        (p := fun later => maskGlob byte (m.dropWhile (· == byte)) later = true))
      unfold maskGlob
      rw [glob_drop_stars (by simp), glob_star (by simp)]

/-- A mark makes no difference where the mask begins with a wildcard. -/
theorem found_wildcard {wildcard : UInt8} {mask : Bytes} {length : Nat} {s : MatchState}
    (h : s.Marked wildcard mask length) (hstar : s.m.head? = some wildcard) :
    s.Found wildcard ↔ maskGlob wildcard s.m s.n := by
  refine or_iff_left_of_imp ?_
  rintro ⟨ma, na, hmark, later, hlater, hglob⟩
  obtain ⟨word, letters, hma, hna, hlen, hword⟩ := h.alike ma na hmark
  obtain ⟨m, hm⟩ : ∃ m, s.m = wildcard :: m := by
    cases hcases : s.m with
    | nil => simp [hcases] at hstar
    | cons byte m =>
        rw [hcases, List.head?_cons, Option.some.injEq] at hstar
        exact ⟨m, by rw [hstar]⟩
  unfold maskGlob at hglob ⊢
  rw [hma, hm] at hglob
  rw [hm]
  exact glob_last_star (fun byte hbyte => by simpa using hword byte hbyte) (by simp) hlen
    (hna ▸ hlater.trans (List.tail_suffix na)) hglob

/-- The name is read from the mark on. -/
theorem MatchState.Marked.le_mark {wildcard : UInt8} {mask : Bytes} {length : Nat}
    {s : MatchState} (h : s.Marked wildcard mask length) {ma na : Bytes}
    (hmark : s.mark = some (ma, na)) : s.n.length ≤ na.length := by
  obtain ⟨word, letters, -, hna, -⟩ := h.alike ma na hmark
  rw [hna, List.length_append]
  omega

/-- Skipping the wildcards leaves the question as it was. -/
theorem collapse_spec {wildcard : UInt8} {mask : Bytes} {length : Nat} {s : MatchState}
    (h : s.Marked wildcard mask length) :
    (collapse wildcard s).Marked wildcard mask length ∧
      ((collapse wildcard s).Found wildcard ↔ s.Found wildcard) ∧
      (collapse wildcard s).m.head? ≠ some wildcard ∧
      (collapse wildcard s).n = s.n ∧ (collapse wildcard s).rounds length ≤ s.rounds length := by
  by_cases hstar : s.m.head? = some wildcard
  · have hcollapse : collapse wildcard s =
        { s with m := s.m.dropWhile (· == wildcard),
                 mark := some (s.m.dropWhile (· == wildcard), s.n) } := if_pos hstar
    rw [hcollapse]
    refine ⟨?_, ?_, ?_, rfl, ?_⟩
    · refine ⟨(List.dropWhile_suffix _).trans h.mask_suffix, h.name_le, fun ma na hmark => ?_,
        fun ma na hmark => ?_, fun ma na hmark => ?_⟩ <;> cases hmark
      · obtain ⟨front, hfront⟩ := h.mask_suffix
        obtain ⟨before, hbefore⟩ := drop_wildcards hstar
        exact ⟨front ++ before, by rw [List.append_assoc, ← hbefore, hfront]⟩
      · exact ⟨[], [], rfl, rfl, rfl, by simp⟩
      · exact h.name_le
    · rw [found_wildcard h hstar, mask_glob_wildcard hstar]
      simp [MatchState.Found]
    · intro hhead
      have hfalse := List.head?_dropWhile_not (· == wildcard) s.m
      rw [hhead] at hfalse
      simp at hfalse
    · simp only [MatchState.rounds]
      refine Nat.add_le_add_right (Nat.mul_le_mul_right _ ?_) _
      cases hmark : s.mark with
      | none => exact Nat.le_succ _
      | some mark => exact h.le_mark hmark
  · have hself : collapse wildcard s = s := if_neg hstar
    rw [hself]
    exact ⟨h, Iff.rfl, hstar, rfl, le_rfl⟩

/-- Starting over behind the last star is right where the loop cannot go on. -/
theorem restart_spec {wildcard : UInt8} {mask ma na : Bytes} {length : Nat} {s : MatchState}
    (h : s.Marked wildcard mask length) (hmark : s.mark = some (ma, na)) (hn : s.n ≠ [])
    (hstuck : ¬ maskGlob wildcard s.m s.n) :
    MatchState.Marked wildcard mask length ⟨ma, na.tail, some (ma, na.tail)⟩ ∧
      (MatchState.Found wildcard ⟨ma, na.tail, some (ma, na.tail)⟩ ↔ s.Found wildcard) ∧
      MatchState.rounds length ⟨ma, na.tail, some (ma, na.tail)⟩ < s.rounds length := by
  have hbehind := h.behind ma na hmark
  have hname := h.le_mark hmark
  have hlen := h.mark_le ma na hmark
  have hpos := List.length_pos_of_ne_nil hn
  refine ⟨?_, ?_, ?_⟩
  · refine ⟨?_, ?_, fun ma' na' heq => ?_, fun ma' na' heq => ?_, fun ma' na' heq => ?_⟩
    · obtain ⟨before, hbefore⟩ := hbehind
      exact ⟨before ++ [wildcard], by rw [hbefore]; simp⟩
    · simp only [List.length_tail]
      omega
    all_goals cases heq
    · exact hbehind
    · exact ⟨[], [], rfl, rfl, rfl, by simp⟩
    · simp only [List.length_tail]
      omega
  · have hfound : s.Found wildcard ↔
        ∃ later, later <:+ na.tail ∧ maskGlob wildcard ma later := by
      simp [MatchState.Found, hstuck, hmark]
    rw [hfound, exists_suffix_iff (p := fun later => maskGlob wildcard ma later = true)]
    simp [MatchState.Found]
  · simp only [MatchState.rounds, hmark, List.length_tail]
    obtain ⟨k, hk⟩ : ∃ k, na.length = k + 1 := ⟨na.length - 1, by omega⟩
    rw [hk, Nat.add_sub_cancel, Nat.succ_mul]
    omega

/-- At the end of the mask, the last star has only question marks behind it if and only if
everything behind it is one. -/
theorem last_star_iff {wildcard : UInt8} (hwildcard : wildcard ≠ char '?') (before : Bytes)
    {ma : Bytes} (hma : ∀ byte ∈ ma, byte ≠ wildcard) :
    (((before ++ wildcard :: ma).reverse.dropWhile (· == char '?')).head? = some wildcard) ↔
      ∀ byte ∈ ma, byte = char '?' := by
  have hreverse : (before ++ wildcard :: ma).reverse =
      ma.reverse ++ (wildcard :: before.reverse) := by simp
  rw [hreverse]
  constructor
  · intro hhead byte hbyte
    by_contra hne
    have hrest : (ma.reverse.dropWhile (· == char '?')) ≠ [] := by
      rw [Ne, List.dropWhile_eq_nil_iff]
      exact fun hall => hne (by simpa using hall byte (by simpa using hbyte))
    rw [List.dropWhile_append, if_neg (by simpa using hrest),
      List.head?_append_of_ne_nil _ hrest] at hhead
    have hmem := List.mem_of_mem_head? hhead
    exact hma wildcard (by simpa using (List.dropWhile_suffix _).subset hmem) rfl
  · intro hall
    rw [List.dropWhile_append_of_pos
        fun byte hbyte => by simpa using hall byte (by simpa using hbyte),
      List.dropWhile_cons_of_neg (by simpa using hwildcard)]
    rfl

/-- Question marks stand for any bytes, as many as they are. -/
theorem question_marks {wildcard : UInt8} {mask name : Bytes} (hwildcard : wildcard ≠ char '?')
    (hmask : ∀ byte ∈ mask, byte = char '?') (hlen : name.length = mask.length) :
    maskGlob wildcard mask name := by
  induction mask generalizing name with
  | nil => simpa [maskGlob] using hlen
  | cons byte mask ih =>
      obtain rfl : byte = char '?' := hmask byte (by simp)
      cases name with
      | nil => simp at hlen
      | cons letter name =>
          refine (glob_letter (by simpa using hwildcard.symm) _ _ _).mpr ⟨by simp [likeByte], ?_⟩
          exact ih (fun b hb => hmask b (by simp [hb])) (by simpa using hlen)

/-- A mask that begins with another byte does not match an empty name. -/
theorem mask_glob_empty {wildcard : UInt8} {mask : Bytes} (hmask : mask ≠ [])
    (hhead : mask.head? ≠ some wildcard) : ¬ maskGlob wildcard mask [] := by
  obtain ⟨byte, mask, rfl⟩ := List.exists_cons_of_ne_nil hmask
  exact glob_letter_nil (by simpa using hhead) mask

/-- The tests for the ends answer the question, or leave it as it was with both pointers in
front of a byte. -/
theorem match_end_spec {wildcard : UInt8} (hwildcard : wildcard ≠ char '?') {mask : Bytes}
    {length : Nat} {s : MatchState} (h : s.Marked wildcard mask length)
    (hhead : s.m.head? ≠ some wildcard) :
    match matchEnd wildcard mask s with
    | .error result => result = 0 ↔ s.Found wildcard
    | .ok next => next.Marked wildcard mask length ∧ (next.Found wildcard ↔ s.Found wildcard) ∧
        next.rounds length ≤ s.rounds length ∧ next.m ≠ [] ∧ next.m.head? ≠ some wildcard ∧
          next.n ≠ [] := by
  by_cases hm : s.m = []
  · by_cases hn : s.n = []
    · simp [matchEnd, hm, hn, MatchState.Found, maskGlob]
    · have hstuck : ¬ maskGlob wildcard s.m s.n := by simp [maskGlob, hm, hn]
      cases hmark : s.mark with
      | none => simp [matchEnd, hm, hn, hmark, MatchState.Found, maskGlob]
      | some mark =>
          obtain ⟨ma, na⟩ := mark
          obtain ⟨before, hbefore⟩ := h.behind ma na hmark
          obtain ⟨word, letters, hma, hna, hlen, hword⟩ := h.alike ma na hmark
          rw [hm, List.append_nil] at hma
          subst hma
          have hquestion := last_star_iff hwildcard before hword
          rw [← hbefore] at hquestion
          have hpos := List.length_pos_of_ne_nil hn
          by_cases hall : ∀ byte ∈ ma, byte = char '?'
          · have hend : matchEnd wildcard mask s = .error 0 := by
              simp [matchEnd, hm, hn, hmark, hquestion.mpr hall]
            rw [hend]
            refine ⟨fun _ => .inr ⟨ma, na, hmark, na.drop s.n.length, ?_, ?_⟩, fun _ => rfl⟩
            · obtain ⟨k, hk⟩ : ∃ k, s.n.length = 1 + k := ⟨s.n.length - 1, by omega⟩
              rw [hk, ← List.drop_drop, List.drop_one]
              exact List.drop_suffix k na.tail
            · exact question_marks hwildcard hall (by simp [hna, hlen])
          · have hend : matchEnd wildcard mask s = .ok ⟨ma, na.tail, some (ma, na.tail)⟩ := by
              simp [matchEnd, hm, hn, hmark]
              exact fun h => hall (hquestion.mp h)
            obtain ⟨hmarked, hfound, hrounds⟩ := restart_spec h hmark hn hstuck
            have hne : ma ≠ [] := by
              rintro rfl
              exact hall (by simp)
            have hpos' := List.length_pos_of_ne_nil hne
            rw [hend]
            refine ⟨hmarked, hfound, hrounds.le, hne, fun hhead => ?_, ?_⟩
            · exact hword wildcard (List.mem_of_mem_head? hhead) rfl
            · intro htail
              have := congrArg List.length htail
              simp only [hna, List.length_tail, List.length_append, List.length_nil] at this
              omega
  · by_cases hn : s.n = []
    · have hdrop : s.m.dropWhile (· == wildcard) ≠ [] := by
        cases hcases : s.m with
        | nil => exact absurd hcases hm
        | cons byte m =>
            have hbyte : byte ≠ wildcard := by simpa [hcases] using hhead
            rw [List.dropWhile_cons_of_neg (by simpa using hbyte)]
            simp
      have hend : matchEnd wildcard mask s = .error 1 := by
        simp only [matchEnd, hm, hn, if_false, if_true, hdrop]
      rw [hend]
      refine ⟨fun h => absurd h (by decide), ?_⟩
      rintro (hglob | ⟨ma, na, hmark, later, hlater, hglob⟩)
      · exact absurd (hn ▸ hglob) (mask_glob_empty hm hhead)
      · -- The part behind the mark is too short for the bytes that were read alike.
        obtain ⟨word, letters, hma, hna, hlen, hword⟩ := h.alike ma na hmark
        unfold maskGlob at hglob
        rw [hma] at hglob
        obtain ⟨read, rest, rfl, halike, hrest⟩ := (glob_word
          (fun byte hbyte => by simpa using hword byte hbyte) _ _).mp hglob
        have hread := halike.length_eq
        have hshort := hlater.length_le
        rw [hn, List.append_nil] at hna
        subst hna
        simp only [List.length_append, List.length_tail] at hshort
        obtain rfl : rest = [] := List.eq_nil_of_length_eq_zero (by omega)
        exact absurd hrest (mask_glob_empty hm hhead)
    · have hend : matchEnd wildcard mask s = .ok s := by
        simp only [matchEnd, hm, hn, if_false]
      rw [hend]
      exact ⟨h, Iff.rfl, le_rfl, hm, hhead, hn⟩

/-- Two bytes that are compared. -/
theorem match_byte_spec {wildcard : UInt8} {mask : Bytes} {length : Nat} {s : MatchState}
    (h : s.Marked wildcard mask length) (hm : s.m ≠ []) (hhead : s.m.head? ≠ some wildcard)
    (hn : s.n ≠ []) :
    match matchByte s with
    | .error result => result = 0 ↔ s.Found wildcard
    | .ok next => next.Marked wildcard mask length ∧ (next.Found wildcard ↔ s.Found wildcard) ∧
        next.rounds length < s.rounds length := by
  obtain ⟨byte, m, hbyte⟩ := List.exists_cons_of_ne_nil hm
  obtain ⟨letter, n, hletter⟩ := List.exists_cons_of_ne_nil hn
  have hne : byte ≠ wildcard := by simpa [hbyte] using hhead
  have hglob : maskGlob wildcard s.m s.n ↔ likeByte byte letter ∧ maskGlob wildcard m n := by
    rw [hbyte, hletter]
    exact glob_letter (by simpa using hne) m letter n
  by_cases hlike : likeByte byte letter
  · have hmatch : matchByte s = .ok { s with m := m, n := n } := by
      simp [matchByte, hbyte, hletter, hlike]
    have hshort : n.length < s.n.length := by simp [hletter]
    rw [hmatch]
    refine ⟨⟨?_, hshort.le.trans h.name_le, h.behind, fun ma na hmark => ?_, h.mark_le⟩, ?_, ?_⟩
    · refine List.IsSuffix.trans ?_ h.mask_suffix
      rw [hbyte]
      exact List.suffix_cons byte m
    · obtain ⟨word, letters, hma, hna, hlen, hword⟩ := h.alike ma na hmark
      refine ⟨word ++ [byte], letters ++ [letter], by simp [hma, hbyte], by simp [hna, hletter],
        by simp [hlen], ?_⟩
      simp only [List.mem_append, List.mem_singleton]
      rintro b (hb | rfl)
      · exact hword b hb
      · exact hne
    · simp [MatchState.Found, hglob, hlike]
    · simp only [MatchState.rounds]
      have hmul := Nat.mul_le_mul_right (length + 1) (show n.length + 1 ≤ s.n.length + 1 by omega)
      cases s.mark with
      | none => simp only; omega
      | some mark => simp only; omega
  · have hstuck : ¬ maskGlob wildcard s.m s.n := fun h => hlike (hglob.mp h).1
    cases hmark : s.mark with
    | none =>
        have hmatch : matchByte s = .error 1 := by simp [matchByte, hbyte, hletter, hlike, hmark]
        rw [hmatch]
        simp [MatchState.Found, hstuck, hmark]
    | some mark =>
        obtain ⟨ma, na⟩ := mark
        have hmatch : matchByte s = .ok ⟨ma, na.tail, some (ma, na.tail)⟩ := by
          simp [matchByte, hbyte, hletter, hlike, hmark]
        rw [hmatch]
        exact restart_spec h hmark hn hstuck

/-- One round answers the question, or comes closer to the answer. -/
theorem round_spec {wildcard : UInt8} (hwildcard : wildcard ≠ char '?') {mask : Bytes}
    {length : Nat} {s : MatchState} (h : s.Marked wildcard mask length) :
    match matchEnd wildcard mask (collapse wildcard s) >>= matchByte with
    | .error result => result = 0 ↔ s.Found wildcard
    | .ok next => next.Marked wildcard mask length ∧ (next.Found wildcard ↔ s.Found wildcard) ∧
        next.rounds length < s.rounds length := by
  obtain ⟨hmarked, hfound, hhead, -, hle⟩ := collapse_spec h
  have hend := match_end_spec hwildcard hmarked hhead
  rw [← hfound]
  cases hresult : matchEnd wildcard mask (collapse wildcard s) with
  | error result => rwa [hresult] at hend
  | ok next =>
      rw [hresult] at hend
      obtain ⟨hnext, hnextfound, hnextle, hm, hnexthead, hn⟩ := hend
      have hbyte := match_byte_spec hnext hm hnexthead hn
      have hbind : (Except.ok next >>= matchByte : Except Nat MatchState) = matchByte next :=
        rfl
      rw [hbind, ← hnextfound]
      cases hlast : matchByte next with
      | error result => rwa [hlast] at hbyte
      | ok last =>
          rw [hlast] at hbyte
          exact ⟨hbyte.1, hbyte.2.1, hbyte.2.2.trans_le (hnextle.trans hle)⟩

/-- With enough rounds, the loop returns, with the answer to the question. -/
theorem match_loop_spec {wildcard : UInt8} (hwildcard : wildcard ≠ char '?') {mask : Bytes}
    {length : Nat} (rounds : Nat) {s : MatchState} (h : s.Marked wildcard mask length)
    (hrounds : s.rounds length < rounds) :
    Returns wildcard mask s (matchLoop wildcard mask rounds s) ∧
      (matchLoop wildcard mask rounds s = 0 ↔ s.Found wildcard) := by
  induction rounds generalizing s with
  | zero => omega
  | succ rounds ih =>
      have hround := round_spec hwildcard h
      rw [matchLoop]
      cases hresult : matchEnd wildcard mask (collapse wildcard s) >>= matchByte with
      | error result =>
          rw [hresult] at hround
          exact ⟨.done hresult, hround⟩
      | ok next =>
          rw [hresult] at hround
          obtain ⟨hnext, hfound, hless⟩ := hround
          obtain ⟨hreturns, hanswer⟩ := ih hnext (by omega)
          exact ⟨.again hresult hreturns, hanswer.trans hfound⟩

/-- `match2` returns, and it finds every match of the mask and no other. -/
theorem match2_spec {wildcard : UInt8} (hwildcard : wildcard ≠ char '?') (mask name : Bytes) :
    Returns wildcard mask ⟨mask, name, none⟩ (match2 wildcard mask name) ∧
      (match2 wildcard mask name = 0 ↔ maskGlob wildcard mask name) := by
  have hstart : MatchState.Marked wildcard mask name.length ⟨mask, name, none⟩ :=
    ⟨List.suffix_rfl, le_rfl, by simp, by simp, by simp⟩
  have henough : MatchState.rounds name.length ⟨mask, name, none⟩ <
      (name.length + 2) * (name.length + 2) := by
    have hsquare : (name.length + 2) * (name.length + 2) =
        (name.length + 1) * (name.length + 1) + (name.length + 1) + (name.length + 1) + 1 := by
      ring
    simp only [MatchState.rounds]
    omega
  obtain ⟨hreturns, hanswer⟩ := match_loop_spec hwildcard _ hstart henough
  refine ⟨hreturns, hanswer.trans ?_⟩
  simp [MatchState.Found]

/-- `match2` finds every match of the mask, and no other. -/
theorem match2_iff {wildcard : UInt8} (hwildcard : wildcard ≠ char '?') (mask name : Bytes) :
    match2 wildcard mask name = 0 ↔ maskGlob wildcard mask name :=
  (match2_spec hwildcard mask name).2

/-- `match` finds every match of the mask, and no other. -/
theorem match_mask_iff (mask name : Bytes) : matchMask mask name = 0 ↔ maskMatches mask name := by
  cases hnick : skipPrefix (char '!') mask name with
  | none => simp [matchMask, maskMatches, hnick]
  | some rest =>
      cases hhost : skipPrefix (char '@') rest.1 rest.2 with
      | none => simp [matchMask, maskMatches, hnick, hhost]
      | some rest =>
          have hmatch := match2_iff (show char '*' ≠ char '?' by decide) rest.1 rest.2
          simp [matchMask, maskMatches, hnick, hhost, hmatch]

end OpenSpy
