import Mathlib.Data.List.Find
import OpenSpy.ServerBrowsing.CToken

/-!
# The token scan of filters

A `Lexeme` is a token with its text, and `render` is a filter that has the texts with single
spaces between them. `scan_render_iff` says when the loop of `filterToTokenList` reads the tokens
back. Words are found at the front of names, too, so that `island` is read as `is` and `land`, a
number beyond `int` is another one as a token, and a filter of nothing but a name has undefined
tokens.
-/

namespace OpenSpy.ServerBrowsing

open Bytes MachineInt

/-- The token of a word or sign, whose letters may have any case. -/
def wordToken (text : Bytes) : Option CToken :=
  multiCharTokens.lookup (text.map toLower)

/-- A letter. -/
def isLetter (b : UInt8) : Bool :=
  97 ≤ toLower b && toLower b ≤ 122

/-- A name that is no word: a letter or an underscore, and letters, digits, underscores and
points behind it. -/
structure IsIdentifier (name : Bytes) : Prop where
  first : ∃ c ∈ name.head?, isLetter c ∨ c = char '_'
  bytes : ∀ b ∈ name, isVariableByte b
  noWord : wordToken name = none

instance (name : Bytes) : Decidable (IsIdentifier name) :=
  decidable_of_iff
    ((∃ c ∈ name.head?, isLetter c ∨ c = char '_') ∧ name.all isVariableByte ∧
      wordToken name = none)
    ⟨fun ⟨first, bytes, noWord⟩ => ⟨first, List.all_eq_true.mp bytes, noWord⟩,
      fun h => ⟨h.first, List.all_eq_true.mpr h.bytes, h.noWord⟩⟩

/-- The arithmetic signs. -/
def arithmeticSigns : List (UInt8 × Operator) :=
  [(char '-', .subtract), (char '+', .add), (char '/', .divide), (char '*', .multiply)]

/-- A token as it stands in a filter. -/
inductive Lexeme where
  | identifier (name : Bytes) (h : IsIdentifier name)
  | integer (digits : Bytes) (hne : digits ≠ []) (h : ∀ b ∈ digits, isDigit b)
  | quoted (quote : UInt8) (text : Bytes) (hquote : quote = char '\'' ∨ quote = char '"')
      (h : quote ∉ text ∧ 0 ∉ text)
  | word (text : Bytes) (token : CToken) (h : wordToken text = some token)
  | sign (c : UInt8) (type : Operator) (h : (c, type) ∈ arithmeticSigns)

namespace Lexeme

/-- The text of a token. -/
def text : Lexeme → Bytes
  | identifier name _ => name
  | integer digits _ _ => digits
  | quoted quote text _ _ => quote :: (text ++ [quote])
  | word text _ _ => text
  | sign c _ _ => [c]

/-- The token itself. -/
def token : Lexeme → CToken
  | identifier name _ => .var name
  | integer digits _ _ => .integer (decimalValue digits)
  | quoted _ text _ _ => .string text
  | word _ token _ => token
  | sign _ type _ => .operator type

end Lexeme

/-- A filter with single spaces between its tokens. -/
def render (lexemes : List Lexeme) : Bytes :=
  [char ' '].intercalate (lexemes.map Lexeme.text)

/-- The tokens of `filterToTokenList` before `convertToRPN`. -/
def tokenScan (filter : Bytes) : Option (List CToken) :=
  tokenLoop (cString filter).length .none 0 (cString filter)

/-- A word or sign is at the front of a text. -/
def StartsWithWord (text : Bytes) : Prop :=
  ∃ entry ∈ multiCharTokens, entry.1 <+: text.map toLower

instance (text : Bytes) : Decidable (StartsWithWord text) :=
  inferInstanceAs (Decidable (∃ entry ∈ multiCharTokens, entry.1 <+: text.map toLower))

/-- The lexeme is scanned as its token when others stand around it. -/
def Lexeme.ScansAlone : Lexeme → Prop
  | identifier name _ => ¬ StartsWithWord name
  | integer digits _ _ => decimalValue digits < 2 ^ 31
  | _ => True

/-- No name starts with a word, the numbers are in the range of `int`, and there is more than a
single name. -/
structure ScansRight (lexemes : List Lexeme) : Prop where
  alone : ∀ lexeme ∈ lexemes, lexeme.ScansAlone
  notBare : ∀ name h, lexemes ≠ [.identifier name h]

section Words

/-- The words have no white space, digit, quote, arithmetic sign or NUL in them. -/
theorem word_bytes : ∀ entry ∈ multiCharTokens, ∀ b ∈ entry.1,
    isSpace b = false ∧ isDigit b = false ∧
      b ∉ [char '\'', char '"', char '-', char '+', char '/', char '*'] ∧ b ≠ 0 := by
  decide +kernel

theorem word_ne_nil : ∀ entry ∈ multiCharTokens, entry.1 ≠ [] := by
  decide

/-- The first entry at the front of a word is its own. -/
theorem word_found : ∀ entry ∈ multiCharTokens,
    multiCharTokens.find? (fun other => other.1.isPrefixOf entry.1) = some entry := by
  decide

/-- A byte of a word or sign, in any case, is none that another kind of token starts with. -/
theorem to_lower_facts {b : UInt8} (hspace : isSpace (toLower b) = false)
    (hdigit : isDigit (toLower b) = false) (hnul : toLower b ≠ 0) :
    isSpace b = false ∧ isDigit b = false ∧ b ≠ 0 := by
  have hall : ∀ n : Fin 256, isSpace (toLower (.ofNat n)) = false →
      isDigit (toLower (.ofNat n)) = false → toLower (.ofNat n) ≠ 0 →
      isSpace (.ofNat n) = false ∧ isDigit (.ofNat n) = false ∧ UInt8.ofNat n ≠ 0 := by
    decide +kernel
  have hb : UInt8.ofNat b.toNat = b := UInt8.ofNat_toNat
  have hbyte := hall ⟨b.toNat, b.toNat_lt⟩
  simp only [hb] at hbyte
  exact hbyte hspace hdigit hnul

/-- What is in front of a separator that is not in it is in front of what comes before. -/
theorem prefix_of_prefix_append {key text rest : Bytes} {separator : UInt8}
    (hnot : separator ∉ key) (h : key <+: text ++ separator :: rest) : key <+: text := by
  induction key generalizing text with
  | nil => exact List.nil_prefix
  | cons b key ih =>
      have hkey : separator ∉ key := fun hmem => hnot (List.mem_cons_of_mem _ hmem)
      cases text with
      | nil =>
          obtain ⟨rfl, -⟩ := List.cons_prefix_cons.mp h
          exact absurd List.mem_cons_self hnot
      | cons c text =>
          obtain ⟨rfl, htail⟩ := List.cons_prefix_cons.mp h
          exact List.cons_prefix_cons.mpr ⟨rfl, ih hkey htail⟩

/-- What is scanned behind a token: nothing, or a space and the next tokens. -/
def Separated (rest : Bytes) : Prop :=
  rest = [] ∨ ∃ next, rest = char ' ' :: next

/-- Only the text before a space decides whether there is a word at the front. -/
theorem check_multi_char_token_append (text : Bytes) {rest : Bytes} (hrest : Separated rest) :
    checkMultiCharToken (text ++ rest) = checkMultiCharToken text := by
  obtain rfl | ⟨next, rfl⟩ := hrest
  · rw [List.append_nil]
  · unfold checkMultiCharToken
    congr 1
    refine List.find?_congr fun entry hentry => ?_
    have hspace : char ' ' ∉ entry.1 := by
      intro hmem
      exact absurd (word_bytes entry hentry _ hmem).1 (by decide)
    have hlower : (text ++ char ' ' :: next).map toLower =
        text.map toLower ++ char ' ' :: next.map toLower := by
      rw [List.map_append, List.map_cons]
      rfl
    rw [Bool.eq_iff_iff, List.isPrefixOf_iff_prefix, List.isPrefixOf_iff_prefix, hlower]
    exact ⟨prefix_of_prefix_append hspace, List.prefix_append_of_prefix⟩

theorem check_multi_char_token_none_iff {text : Bytes} :
    checkMultiCharToken text = none ↔ ¬ StartsWithWord text := by
  unfold checkMultiCharToken StartsWithWord
  simp [List.find?_eq_none]

/-- A word is found as itself. -/
theorem check_multi_char_token_word {text : Bytes} {token : CToken}
    (h : wordToken text = some token) :
    checkMultiCharToken text = some (token, text.length - 1) := by
  obtain ⟨before, after, htable, -⟩ := List.lookup_eq_some_iff.mp h
  have hentry : (text.map toLower, token) ∈ multiCharTokens := by
    rw [htable]
    exact List.mem_append_right _ List.mem_cons_self
  have hlength : text.length = (text.map toLower).length := by rw [List.length_map]
  rw [checkMultiCharToken, word_found _ hentry, Option.map_some, hlength]

/-- No word starts with a digit, a quote or an arithmetic sign. -/
theorem no_word_at {c : UInt8} (rest : Bytes)
    (hc : isDigit c = true ∨
      c ∈ [char '\'', char '"', char '-', char '+', char '/', char '*']) :
    checkMultiCharToken (c :: rest) = none := by
  rw [check_multi_char_token_none_iff]
  rintro ⟨entry, hentry, hfront⟩
  obtain ⟨b, key, hkey⟩ := List.exists_cons_of_ne_nil (word_ne_nil entry hentry)
  rw [hkey, List.map_cons, List.cons_prefix_cons] at hfront
  have hmem : b ∈ entry.1 := hkey ▸ List.mem_cons_self
  obtain ⟨-, hdigit, hsigns, -⟩ := word_bytes entry hentry b hmem
  have hlower : ∀ n : Fin 256, (isDigit (.ofNat n) = true ∨
      UInt8.ofNat n ∈ [char '\'', char '"', char '-', char '+', char '/', char '*']) →
      toLower (.ofNat n) = .ofNat n := by
    decide +kernel
  have hself := hlower ⟨c.toNat, c.toNat_lt⟩
  simp only [UInt8.ofNat_toNat] at hself
  rw [hfront.1, hself hc] at hdigit hsigns
  rcases hc with hc | hc
  · exact Bool.false_ne_true (hdigit.symm.trans hc)
  · exact hsigns hc

end Words

section Scan

variable {filterlen : Nat} {token : CToken} {rest : Bytes}

theorem token_loop_skip (token : CToken) (skipped : Bytes) :
    tokenLoop filterlen token skipped.length (skipped ++ rest) =
      tokenLoop filterlen token 0 rest := by
  induction skipped with
  | nil => rfl
  | cons b skipped ih => exact ih

/-- A round that takes a text and pushes a token. -/
theorem token_loop_push {c : UInt8} {tail : Bytes} {pushed : CToken}
    (h : nextToken filterlen token c (tail ++ rest) = some (some pushed, tail.length)) :
    tokenLoop filterlen token 0 (c :: tail ++ rest) =
      (tokenLoop filterlen pushed 0 rest).map (pushed :: ·) := by
  rw [List.cons_append, tokenLoop, h]
  simp only [token_loop_skip]

/-- The bytes of a token end where it does. -/
theorem take_while_separated {p : UInt8 → Bool} {text : Bytes} (h : ∀ b ∈ text, p b = true)
    (hspace : p (char ' ') = false) (hrest : Separated rest) :
    (text ++ rest).takeWhile p = text := by
  rw [List.takeWhile_append_of_pos h]
  obtain rfl | ⟨next, rfl⟩ := hrest
  · simp
  · rw [List.takeWhile_cons_of_neg (by simp [hspace]), List.append_nil]

theorem next_token_word {c : UInt8} {tail : Bytes} {word : CToken}
    (h : wordToken (c :: tail) = some word) (hrest : Separated rest) :
    nextToken filterlen token c (tail ++ rest) = some (some word, tail.length) := by
  have hfound : checkMultiCharToken (c :: (tail ++ rest)) = some (word, tail.length) := by
    rw [← List.cons_append, check_multi_char_token_append _ hrest, check_multi_char_token_word h]
    rfl
  have hspace : isSpace c = false := by
    obtain ⟨before, after, htable, -⟩ := List.lookup_eq_some_iff.mp h
    have hentry : ((c :: tail).map toLower, word) ∈ multiCharTokens := by
      rw [htable]
      exact List.mem_append_right _ List.mem_cons_self
    obtain ⟨hspace, hdigit, -, hnul⟩ := word_bytes _ hentry (toLower c) List.mem_cons_self
    exact (to_lower_facts hspace hdigit hnul).1
  simp only [nextToken, hspace, hfound]
  rfl

theorem next_token_quoted {quote : UInt8} {text : Bytes}
    (hquote : quote = char '\'' ∨ quote = char '"') (htext : quote ∉ text) :
    nextToken filterlen token quote ((text ++ [quote]) ++ rest) =
      some (some (.string text), (text ++ [quote]).length) := by
  have hspace : isSpace quote = false := by
    rcases hquote with rfl | rfl <;> decide
  have hword : checkMultiCharToken (quote :: ((text ++ [quote]) ++ rest)) = none := by
    refine no_word_at _ (.inr ?_)
    rcases hquote with rfl | rfl <;> decide
  have hstr : ((text ++ [quote]) ++ rest).takeWhile (· ≠ quote) = text := by
    have hinside : ∀ b ∈ text, decide (b ≠ quote) = true :=
      fun b hb => decide_eq_true fun heq => htext (heq ▸ hb)
    rw [List.append_assoc, List.takeWhile_append_of_pos hinside]
    simp
  simp only [nextToken, hspace, hword, if_pos hquote, hstr, List.length_append,
    List.length_singleton]
  rfl

theorem next_token_sign {c : UInt8} {type : Operator} (h : (c, type) ∈ arithmeticSigns) :
    nextToken filterlen token c rest = some (some (.operator type), 0) := by
  have hword : checkMultiCharToken (c :: rest) = none := by
    refine no_word_at _ (.inr ?_)
    simp only [arithmeticSigns, List.mem_cons, Prod.mk.injEq, List.not_mem_nil, or_false] at h
    rcases h with ⟨rfl, -⟩ | ⟨rfl, -⟩ | ⟨rfl, -⟩ | ⟨rfl, -⟩ <;> decide
  unfold nextToken
  rw [hword]
  simp only [arithmeticSigns, List.mem_cons, Prod.mk.injEq, List.not_mem_nil, or_false] at h
  rcases h with ⟨rfl, rfl⟩ | ⟨rfl, rfl⟩ | ⟨rfl, rfl⟩ | ⟨rfl, rfl⟩ <;> rfl

theorem next_token_integer {c : UInt8} {tail : Bytes} (h : ∀ b ∈ c :: tail, isDigit b)
    (hrest : Separated rest) :
    nextToken filterlen token c (tail ++ rest) =
      some (some (.integer (atoi (c :: tail))), tail.length) := by
  have hc := h c List.mem_cons_self
  obtain ⟨hspace, hminus, hplus, -⟩ := digit_facts hc
  have hword : checkMultiCharToken (c :: (tail ++ rest)) = none := no_word_at _ (.inl hc)
  have hsigns : ¬ (c = char '\'' ∨ c = char '"') ∧ c ≠ char '/' ∧ c ≠ char '*' := by
    refine ⟨?_, ?_, ?_⟩
    · rintro (rfl | rfl) <;> exact absurd hc (by decide)
    · rintro rfl
      exact absurd hc (by decide)
    · rintro rfl
      exact absurd hc (by decide)
  have htext : integerText (c :: (tail ++ rest)) = c :: tail := by
    rw [← List.cons_append]
    exact take_while_separated (fun b hb => by rw [h b hb]; rfl) (by decide) hrest
  have hall : (c :: tail).all isDigit = true := List.all_eq_true.mpr h
  simp only [nextToken, hspace, hword, if_neg hsigns.1, if_neg hminus, if_neg hplus,
    if_neg hsigns.2.1, if_neg hsigns.2.2, hc, htext, hall]
  rfl

theorem letter_not_digit {c : UInt8} (h : isLetter c ∨ c = char '_') : isDigit c = false := by
  have hall : ∀ n : Fin 256, (isLetter (.ofNat n) ∨ UInt8.ofNat n = char '_') →
      isDigit (.ofNat n) = false := by
    decide +kernel
  have hbyte := hall ⟨c.toNat, c.toNat_lt⟩
  simp only [UInt8.ofNat_toNat] at hbyte
  exact hbyte h

theorem next_token_identifier {c : UInt8} {tail : Bytes} (h : IsIdentifier (c :: tail))
    (hword : ¬ StartsWithWord (c :: tail)) (hlength : (c :: tail).length ≠ filterlen)
    (hrest : Separated rest) :
    nextToken filterlen token c (tail ++ rest) = some (some (.var (c :: tail)), tail.length) := by
  obtain ⟨hspace, hsigns, -⟩ := variable_byte_facts (h.bytes c List.mem_cons_self)
  have hnoword : checkMultiCharToken (c :: (tail ++ rest)) = none := by
    rw [← List.cons_append, check_multi_char_token_append _ hrest,
      check_multi_char_token_none_iff]
    exact hword
  have hdigit : isDigit c = false := by
    obtain ⟨first, hfirst, hletter⟩ := h.first
    obtain rfl : c = first := by simpa using hfirst
    exact letter_not_digit hletter
  have hread : readVariable filterlen (c :: (tail ++ rest)) = some (c :: tail) := by
    rw [readVariable, ← List.cons_append,
      take_while_separated h.bytes (by decide) hrest, if_neg hlength]
  simp only [List.mem_cons, List.not_mem_nil, or_false, not_or] at hsigns
  simp only [nextToken, hspace, hnoword, hsigns, hdigit, hread]
  rfl

/-- A lexeme that scans alone is scanned as its token, unless it is a name that fills the
buffer. -/
theorem token_loop_lexeme (token : CToken) {lexeme : Lexeme} (halone : lexeme.ScansAlone)
    (hlength : ∀ name h, lexeme = .identifier name h → name.length ≠ filterlen)
    (hrest : Separated rest) :
    tokenLoop filterlen token 0 (lexeme.text ++ rest) =
      (tokenLoop filterlen lexeme.token 0 rest).map (lexeme.token :: ·) := by
  cases lexeme with
  | identifier name h =>
      obtain ⟨c, hc, -⟩ := h.first
      obtain ⟨tail, rfl⟩ := List.head?_eq_some_iff.mp hc
      exact token_loop_push (next_token_identifier h halone (hlength _ h rfl) hrest)
  | integer digits hne h =>
      obtain ⟨c, tail, rfl⟩ := List.exists_cons_of_ne_nil hne
      have hpush : tokenLoop filterlen token 0 (c :: tail ++ rest) = _ :=
        token_loop_push (next_token_integer h hrest)
      rw [(atoi_digits_eq_iff h).mpr halone] at hpush
      exact hpush
  | quoted quote text hquote h => exact token_loop_push (next_token_quoted hquote h.1)
  | word text found h =>
      obtain ⟨c, tail, rfl⟩ : ∃ c tail, text = c :: tail := by
        refine List.exists_cons_of_ne_nil fun hnil => ?_
        rw [hnil, show wordToken [] = none from rfl] at h
        cases h
      exact token_loop_push (next_token_word h hrest)
  | sign c type h => exact token_loop_push (next_token_sign h)

/-- No word is a variable. -/
theorem word_not_var : ∀ entry ∈ multiCharTokens, ∀ name, entry.2 ≠ .var name := by
  simp [multiCharTokens]

/-- A lexeme that does not scan alone is scanned as something else. -/
theorem token_loop_not_alone (token : CToken) {lexeme : Lexeme} (halone : ¬ lexeme.ScansAlone)
    (hrest : Separated rest) (more : List CToken) :
    tokenLoop filterlen token 0 (lexeme.text ++ rest) ≠ some (lexeme.token :: more) := by
  intro heq
  cases lexeme with
  | identifier name h =>
      obtain ⟨c, hc, -⟩ := h.first
      obtain ⟨tail, rfl⟩ := List.head?_eq_some_iff.mp hc
      have hspace := (variable_byte_facts (h.bytes c List.mem_cons_self)).1
      have hsome : checkMultiCharToken (c :: (tail ++ rest)) ≠ none := by
        rw [← List.cons_append, check_multi_char_token_append _ hrest, Ne,
          check_multi_char_token_none_iff]
        exact halone
      obtain ⟨⟨word, idx⟩, hword⟩ := Option.ne_none_iff_exists'.mp hsome
      have hnext : nextToken filterlen token c (tail ++ rest) = some (some word, idx) := by
        simp only [nextToken, hspace, hword]
        rfl
      simp only [Lexeme.text, List.cons_append, tokenLoop, hnext] at heq
      obtain ⟨later, -, hpushed⟩ := Option.map_eq_some_iff.mp heq
      obtain ⟨entry, hentry, hfound⟩ := Option.map_eq_some_iff.mp hword
      refine word_not_var entry (List.mem_of_find?_eq_some hentry) (c :: tail) ?_
      rw [show entry.2 = word from congrArg Prod.fst hfound, (List.cons.inj hpushed).1]
      rfl
  | integer digits hne h =>
      obtain ⟨c, tail, rfl⟩ := List.exists_cons_of_ne_nil hne
      have hpush : tokenLoop filterlen token 0 (c :: tail ++ rest) = _ :=
        token_loop_push (next_token_integer h hrest)
      rw [Lexeme.text, hpush] at heq
      obtain ⟨later, -, hpushed⟩ := Option.map_eq_some_iff.mp heq
      have hvalue : atoi (c :: tail) = decimalValue (c :: tail) :=
        CToken.integer.inj (List.cons.inj hpushed).1
      exact halone ((atoi_digits_eq_iff h).mp hvalue)
  | quoted quote text hquote h => exact halone trivial
  | word text found h => exact halone trivial
  | sign c type h => exact halone trivial

end Scan

/-- A filter is the text of its first token, with the others behind a space. -/
theorem render_cons (lexeme : Lexeme) (lexemes : List Lexeme) :
    ∃ rest, Separated rest ∧ render (lexeme :: lexemes) = lexeme.text ++ rest ∧
      ∀ filterlen token,
        tokenLoop filterlen token 0 rest = tokenLoop filterlen token 0 (render lexemes) := by
  cases lexemes with
  | nil => exact ⟨[], .inl rfl, by simp [render], fun _ _ => rfl⟩
  | cons next lexemes =>
      refine ⟨char ' ' :: render (next :: lexemes), .inr ⟨_, rfl⟩, ?_, fun _ _ => rfl⟩
      simp [render, List.intercalate_cons_cons]

/-- The scan of a filter whose length is not that of one of its names. -/
theorem token_loop_render_iff {filterlen : Nat} (token : CToken) (lexemes : List Lexeme)
    (hlength : ∀ name h, .identifier name h ∈ lexemes → name.length ≠ filterlen) :
    tokenLoop filterlen token 0 (render lexemes) = some (lexemes.map Lexeme.token) ↔
      ∀ lexeme ∈ lexemes, lexeme.ScansAlone := by
  induction lexemes generalizing token with
  | nil => simp [render, tokenLoop]
  | cons lexeme lexemes ih =>
      obtain ⟨rest, hrest, htext, hnext⟩ := render_cons lexeme lexemes
      have hlater := fun token => ih token
        fun name h hmem => hlength name h (List.mem_cons_of_mem _ hmem)
      rw [htext, List.forall_mem_cons, List.map_cons]
      by_cases halone : lexeme.ScansAlone
      · rw [token_loop_lexeme token halone
          (fun name h heq => hlength name h (heq ▸ List.mem_cons_self)) hrest, hnext,
          and_iff_right halone, ← hlater lexeme.token]
        constructor
        · intro h
          obtain ⟨later, hscan, hcons⟩ := Option.map_eq_some_iff.mp h
          rw [hscan, (List.cons.inj hcons).2]
        · intro h
          rw [h]
          rfl
      · exact iff_of_false (token_loop_not_alone token halone hrest _) fun h => halone h.1

theorem zero_not_mem_text (lexeme : Lexeme) : 0 ∉ lexeme.text := by
  intro hmem
  cases lexeme with
  | identifier name h => exact (variable_byte_facts (h.bytes 0 hmem)).2.2 rfl
  | integer digits hne h => exact (digit_facts (h 0 hmem)).2.2.2 rfl
  | quoted quote text hquote h =>
      have hzero : (0 : UInt8) ≠ quote := by rcases hquote with rfl | rfl <;> decide
      simp only [Lexeme.text, List.mem_cons, List.mem_append, List.not_mem_nil, or_false] at hmem
      rcases hmem with heq | htext | heq
      · exact hzero heq
      · exact h.2 htext
      · exact hzero heq
  | word text found h =>
      obtain ⟨before, after, htable, -⟩ := List.lookup_eq_some_iff.mp h
      have hentry : (text.map toLower, found) ∈ multiCharTokens := by
        rw [htable]
        exact List.mem_append_right _ List.mem_cons_self
      exact (word_bytes _ hentry (toLower 0) (List.mem_map_of_mem hmem)).2.2.2 rfl
  | sign c type h =>
      have hsigns : ∀ entry ∈ arithmeticSigns, 0 ≠ entry.1 := by decide
      exact hsigns _ h (List.mem_singleton.mp hmem)

theorem zero_not_mem_render (lexemes : List Lexeme) : 0 ∉ render lexemes := by
  induction lexemes with
  | nil => exact List.not_mem_nil
  | cons lexeme lexemes ih =>
      cases lexemes with
      | nil => simpa [render] using zero_not_mem_text lexeme
      | cons next lexemes =>
          have htext : render (lexeme :: next :: lexemes) =
              lexeme.text ++ char ' ' :: render (next :: lexemes) := by
            simp [render, List.intercalate_cons_cons]
          rw [htext, List.mem_append, List.mem_cons, not_or, not_or]
          exact ⟨zero_not_mem_text lexeme, by decide, ih⟩

theorem length_render_cons_cons (lexeme next : Lexeme) (lexemes : List Lexeme) :
    (render (lexeme :: next :: lexemes)).length =
      lexeme.text.length + 1 + (render (next :: lexemes)).length := by
  simp only [render, List.map_cons, List.intercalate_cons_cons, List.length_append,
    List.length_singleton]

theorem length_le_render {lexeme : Lexeme} {lexemes : List Lexeme} (h : lexeme ∈ lexemes) :
    lexeme.text.length ≤ (render lexemes).length := by
  induction lexemes with
  | nil => cases h
  | cons first lexemes ih =>
      cases lexemes with
      | nil =>
          rw [List.mem_singleton.mp h]
          simp [render]
      | cons next lexemes =>
          rw [length_render_cons_cons]
          rcases List.mem_cons.mp h with rfl | h
          · omega
          · have := ih h
            omega

/-- Among others a text is shorter than the filter. -/
theorem length_lt_render {lexeme first next : Lexeme} {lexemes : List Lexeme}
    (h : lexeme ∈ first :: next :: lexemes) :
    lexeme.text.length < (render (first :: next :: lexemes)).length := by
  rw [length_render_cons_cons]
  rcases List.mem_cons.mp h with rfl | h
  · omega
  · have := length_le_render h
    omega

/-- A filter that is nothing but a name is not scanned as that name. -/
theorem token_scan_bare {name : Bytes} (h : IsIdentifier name) :
    tokenScan (render [.identifier name h]) ≠ some [.var name] := by
  have htext : cString (render [.identifier name h]) = name := by
    rw [c_string_eq_self (zero_not_mem_render _)]
    simp [render, Lexeme.text]
  unfold tokenScan
  rw [htext]
  by_cases hword : StartsWithWord name
  · have halone : ¬ (Lexeme.identifier name h).ScansAlone := not_not_intro hword
    have hne : tokenLoop name.length .none 0 (name ++ []) ≠ some [.var name] :=
      token_loop_not_alone .none halone (.inl rfl) []
    rwa [List.append_nil] at hne
  · have hbare : BareVariable (cString (render [.identifier name h])) := by
      rw [htext]
      obtain ⟨c, hc, hletter⟩ := h.first
      exact ⟨⟨c, hc, letter_not_digit hletter⟩, h.bytes, check_multi_char_token_none_iff.mpr hword⟩
    have hnone := filter_to_token_list_none_iff.mpr hbare
    rw [filterToTokenList, Option.map_eq_none_iff, htext] at hnone
    rw [hnone]
    exact (Option.some_ne_none _).symm

/-- A filter with single spaces between its tokens is scanned as these tokens if and only if no
name starts with a word, every number is an `int`, and there is more than a single name. -/
theorem scan_render_iff (lexemes : List Lexeme) :
    tokenScan (render lexemes) = some (lexemes.map Lexeme.token) ↔ ScansRight lexemes := by
  have hstring := c_string_eq_self (zero_not_mem_render lexemes)
  by_cases hbare : ∃ name h, lexemes = [.identifier name h]
  · obtain ⟨name, h, rfl⟩ := hbare
    exact iff_of_false (token_scan_bare h) fun hright => hright.notBare name h rfl
  · have hlength : ∀ name h, .identifier name h ∈ lexemes →
        name.length ≠ (render lexemes).length := by
      intro name h hmem
      match lexemes, hmem with
      | [_], hmem => exact absurd ⟨name, h, by rw [List.mem_singleton.mp hmem]⟩ hbare
      | first :: next :: later, hmem => exact (length_lt_render hmem).ne
    rw [tokenScan, hstring, token_loop_render_iff .none lexemes hlength]
    exact ⟨fun halone => ⟨halone, fun name h heq => hbare ⟨name, h, heq⟩⟩, fun h => h.alone⟩

/-- A filter on the name `island` becomes a comparison with `land`. -/
theorem island_not_scanned :
    ¬ ∀ lexemes, tokenScan (render lexemes) = some (lexemes.map Lexeme.token) := by
  intro h
  have hscan := h [.identifier (ascii "island") (by decide),
    .word (ascii "=") (.operator .equals) rfl,
    .integer (ascii "1") (by decide) (by decide +kernel)]
  exact absurd hscan (by decide)

end OpenSpy.ServerBrowsing
