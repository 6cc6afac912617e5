import Mathlib.Data.List.Nodup
import OpenSpy.Core.KVReader

/-!
# Texts of lines

A text with a pair to a line, as `key=value`, goes through `KVReader` with a line delimiter. The
key of a line without a value is still the key when the next line is read, and the value of an
earlier line still the value when the last key is taken (`read_lines_eq`). `lines_kept_iff` says
which texts keep their pairs.
-/

namespace OpenSpy

open Bytes

/-- A pair that can stand in a line. -/
structure FitsLine (delim lineDelim : UInt8) (pair : Bytes × Bytes) : Prop where
  keyNeNil : pair.1 ≠ []
  key : delim ∉ pair.1 ∧ lineDelim ∉ pair.1
  value : delim ∉ pair.2 ∧ lineDelim ∉ pair.2

/-- The line of a pair, without its end. -/
def pairLine (delim : UInt8) (pair : Bytes × Bytes) : Bytes :=
  pair.1 ++ delim :: pair.2

/-- The lines of some pairs. -/
def linesText (delim lineDelim : UInt8) (pairs : List (Bytes × Bytes)) : Bytes :=
  pairs.flatMap fun pair => pairLine delim pair ++ [lineDelim]

/-- A text of lines, whose last one may lack its end. -/
def IsLinesText (delim lineDelim : UInt8) (pairs : List (Bytes × Bytes)) (text : Bytes) : Prop :=
  text = linesText delim lineDelim pairs ∨ text ++ [lineDelim] = linesText delim lineDelim pairs

instance (delim lineDelim : UInt8) (pairs : List (Bytes × Bytes)) (text : Bytes) :
    Decidable (IsLinesText delim lineDelim pairs text) :=
  inferInstanceAs (Decidable (_ ∨ _))

/-- The value of the last pair that has one. -/
def lastValue (pairs : List (Bytes × Bytes)) : Bytes :=
  ((pairs.filter (·.2 ≠ [])).getLast?.map (·.2)).getD []

/-- The key of the last pair if it has no value. -/
def pendingKey (pairs : List (Bytes × Bytes)) : Bytes :=
  match pairs.getLast? with
  | some (key, []) => key
  | _ => []

section Lines

variable {delim lineDelim : UInt8} {pairs : List (Bytes × Bytes)} {pair : Bytes × Bytes}

theorem lines_text_cons (pair : Bytes × Bytes) (pairs : List (Bytes × Bytes)) :
    linesText delim lineDelim (pair :: pairs) =
      pairLine delim pair ++ lineDelim :: linesText delim lineDelim pairs := by
  simp [linesText]

/-- The end of the last line makes no line of its own. -/
theorem getlines_concat (delim : UInt8) {s : Bytes} (h : s.getLast? ≠ some delim)
    (hne : s ≠ []) : getlines delim (s ++ [delim]) = getlines delim s := by
  induction s with
  | nil => exact absurd rfl hne
  | cons b rest ih =>
      by_cases hrest : rest = []
      · subst hrest
        have hb : b ≠ delim := by simpa using h
        simp [getlines, hb]
      · have hlast : rest.getLast? ≠ some delim := by
          rwa [List.getLast?_cons_of_ne_nil hrest] at h
        rw [List.cons_append, getlines, getlines, ih hlast hrest]

/-- The line of a pair is one line. -/
theorem line_not_mem (hne : lineDelim ≠ delim) (h : FitsLine delim lineDelim pair) :
    lineDelim ∉ pairLine delim pair := by
  simp [pairLine, h.key.2, h.value.2, hne]

/-- A text goes on behind the lines of some pairs. -/
theorem getlines_lines_text_append (h : ∀ pair ∈ pairs, lineDelim ∉ pairLine delim pair)
    (rest : Bytes) :
    getlines lineDelim (linesText delim lineDelim pairs ++ rest) =
      pairs.map (pairLine delim) ++ getlines lineDelim rest := by
  induction pairs with
  | nil => rfl
  | cons pair pairs ih =>
      rw [lines_text_cons, List.append_assoc, List.cons_append,
        getlines_token (h pair (List.mem_cons_self ..)),
        ih fun other hmem => h other (List.mem_cons_of_mem _ hmem), List.map_cons,
        List.cons_append]

/-- The lines of a text are those of the pairs. -/
theorem getlines_lines_text (hne : lineDelim ≠ delim)
    (h : ∀ pair ∈ pairs, FitsLine delim lineDelim pair) :
    getlines lineDelim (linesText delim lineDelim pairs) = pairs.map (pairLine delim) := by
  have hlines := getlines_lines_text_append (fun pair hmem => line_not_mem hne (h pair hmem)) []
  simpa [getlines] using hlines

/-- The same without the end of the last line. -/
theorem IsLinesText.getlines_eq {text : Bytes} (htext : IsLinesText delim lineDelim pairs text)
    (hne : lineDelim ≠ delim) (h : ∀ pair ∈ pairs, FitsLine delim lineDelim pair) :
    getlines lineDelim text = pairs.map (pairLine delim) := by
  rcases htext with rfl | htext
  · exact getlines_lines_text hne h
  · rw [← getlines_lines_text hne h, ← htext]
    rcases List.eq_nil_or_concat pairs with rfl | ⟨before, last, rfl⟩
    · simp [linesText] at htext
    · -- the last line is not empty and does not end in a line delimiter
      have hlast := line_not_mem hne (h last (by simp))
      have hline : pairLine delim last ≠ [] := by simp [pairLine]
      have hsplit : text = linesText delim lineDelim before ++ pairLine delim last := by
        rw [List.concat_eq_append, linesText, List.flatMap_append, List.flatMap_singleton,
          ← List.append_assoc] at htext
        exact (List.append_inj' htext rfl).1
      refine (getlines_concat lineDelim ?_ (by simp [hsplit, hline])).symm
      rw [hsplit, List.getLast?_append_of_ne_nil _ hline]
      intro hend
      exact hlast (List.mem_of_getLast? hend)

/-- What a line does to the state. -/
theorem read_line_pair (h : FitsLine delim lineDelim pair) (state : LineState)
    (hfresh : hasKey state.kvMap pair.1 = false) :
    readLine state (getlines delim (pairLine delim pair)) =
      if pair.2 = [] then { state with key := pair.1 }
      else ⟨state.kvMap ++ [pair], [], pair.2⟩ := by
  obtain ⟨key, value⟩ := pair
  rw [pairLine, getlines_token h.key.1]
  by_cases hvalue : value = []
  · subst hvalue
    simp [getlines, readLine]
  · rw [getlines_last h.value.1 hvalue, if_neg hvalue]
    simp only [readLine, cleanup_string_eq]
    rw [if_neg (by simpa using hfresh)]

/-- A key that no pair has is not found. -/
theorem has_key_eq_false {kvMap : List (Bytes × Bytes)} {key : Bytes}
    (h : key ∉ kvMap.map Prod.fst) : hasKey kvMap key = false := by
  simp only [hasKey, List.any_eq_false, beq_iff_eq]
  exact fun other hother heq => h (List.mem_map.mpr ⟨other, hother, heq⟩)

/-- The lines leave the pairs with a value, the value that came last, and a last key that has no
value. -/
theorem read_lines_eq (hpairs : ∀ pair ∈ pairs, FitsLine delim lineDelim pair)
    (hnodup : (pairs.map Prod.fst).Nodup) :
    (pairs.map (pairLine delim)).foldl
        (fun state line => readLine state (getlines delim line)) ⟨[], [], []⟩ =
      ⟨pairs.filter (·.2 ≠ []), pendingKey pairs, lastValue pairs⟩ := by
  induction pairs using List.reverseRecOn with
  | nil => rfl
  | append_singleton pairs pair ih =>
      have hsplit : (pairs.map Prod.fst).Nodup ∧ pair.1 ∉ pairs.map Prod.fst := by
        rw [List.map_append, List.map_singleton, List.nodup_append_comm] at hnodup
        exact ⟨(List.nodup_cons.mp hnodup).2, (List.nodup_cons.mp hnodup).1⟩
      have hfresh : hasKey (pairs.filter (·.2 ≠ [])) pair.1 = false := by
        refine has_key_eq_false fun hmem => hsplit.2 ?_
        exact List.map_subset Prod.fst (List.filter_subset_self pairs) hmem
      have hbefore : ∀ other ∈ pairs, FitsLine delim lineDelim other := fun other hother =>
        hpairs other (by simp [hother])
      rw [List.map_append, List.foldl_append, ih hbefore hsplit.1, List.map_singleton,
        List.foldl_cons, List.foldl_nil, read_line_pair (hpairs pair (by simp)) _ hfresh]
      obtain ⟨key, value⟩ := pair
      cases value with
      | nil => simp [pendingKey, lastValue, List.filter_append]
      | cons b rest => simp [pendingKey, lastValue, List.filter_append]

/-- A text of lines does not begin with a delimiter. -/
theorem IsLinesText.head_ne {text : Bytes} (htext : IsLinesText delim lineDelim pairs text)
    (h : ∀ pair ∈ pairs, FitsLine delim lineDelim pair) : text.head? ≠ some delim := by
  have hhead : (linesText delim lineDelim pairs).head? ≠ some delim := by
    cases pairs with
    | nil => simp [linesText]
    | cons pair pairs =>
        have hfits := h pair (by simp)
        rw [lines_text_cons, pairLine, List.append_assoc,
          List.head?_append_of_ne_nil _ hfits.keyNeNil]
        exact fun heq => hfits.key.1 (List.mem_of_head? heq)
  rcases htext with rfl | htext
  · exact hhead
  · cases text with
    | nil => simp
    | cons b rest => simpa [← htext] using hhead

/-- What the reader makes of a text of lines. -/
theorem kv_reader_lines_eq {text : Bytes} (hne : lineDelim ≠ delim)
    (hpairs : ∀ pair ∈ pairs, FitsLine delim lineDelim pair)
    (hnodup : (pairs.map Prod.fst).Nodup) (htext : IsLinesText delim lineDelim pairs text) :
    kvReaderLines delim lineDelim text =
      if pendingKey pairs ≠ [] then
        pairs.filter (·.2 ≠ []) ++ [(pendingKey pairs, lastValue pairs)]
      else pairs.filter (·.2 ≠ []) := by
  rw [kvReaderLines, if_neg (htext.head_ne hpairs), htext.getlines_eq hne hpairs,
    read_lines_eq hpairs hnodup]

/-- The value that came last is one of the values. -/
theorem last_value_ne_nil (hne : pairs ≠ []) (h : ∀ pair ∈ pairs, pair.2 ≠ []) :
    lastValue pairs ≠ [] := by
  rw [lastValue, List.filter_eq_self.mpr (by simpa using h), List.getLast?_eq_getLast_of_ne_nil hne]
  exact h _ (List.getLast_mem hne)

end Lines

/-- A text with a line for each pair is read as exactly these pairs if and only if no value is
empty, or there is no more than one pair. -/
theorem lines_kept_iff {pairs : List (Bytes × Bytes)} {text : Bytes}
    (hpairs : ∀ pair ∈ pairs, FitsLine (char '=') (char '\n') pair)
    (hnodup : (pairs.map Prod.fst).Nodup)
    (htext : IsLinesText (char '=') (char '\n') pairs text) :
    kvReaderLines (char '=') (char '\n') text = pairs ↔
      (∀ pair ∈ pairs, pair.2 ≠ []) ∨ pairs.length ≤ 1 := by
  rw [kv_reader_lines_eq (by decide) hpairs hnodup htext]
  rcases List.eq_nil_or_concat pairs with rfl | ⟨before, ⟨key, value⟩, rfl⟩
  · simp [pendingKey]
  rw [List.concat_eq_append] at hpairs ⊢
  have hkey : key ≠ [] := (hpairs (key, value) (by simp)).keyNeNil
  by_cases hvalue : value = []
  · -- the last key is taken with the value that came last
    subst hvalue
    have hpending : pendingKey (before ++ [(key, [])]) = key := by simp [pendingKey]
    have hlast : lastValue (before ++ [(key, [])]) = lastValue before := by
      simp [lastValue, List.filter_append]
    have hfilter : (before ++ [(key, [])]).filter (·.2 ≠ []) = before.filter (·.2 ≠ []) := by
      simp [List.filter_append]
    rw [hpending, hlast, hfilter, if_pos hkey]
    constructor
    · intro hsame
      obtain ⟨hall, hsingle⟩ := List.append_inj' hsame rfl
      have hvalues : ∀ pair ∈ before, pair.2 ≠ [] := by simpa using hall
      have hempty : lastValue before = [] := by simpa using hsingle
      right
      by_cases hbefore : before = []
      · simp [hbefore]
      · exact absurd hempty (last_value_ne_nil hbefore hvalues)
    · rintro (hall | hlength)
      · exact absurd rfl (hall (key, []) (by simp))
      · obtain rfl : before = [] := List.length_eq_zero_iff.mp (by simpa using hlength)
        simp [lastValue]
  · -- no key is left over, and the pairs without a value are lost
    have hpending : pendingKey (before ++ [(key, value)]) = [] := by
      obtain ⟨b, rest, rfl⟩ := List.exists_cons_of_ne_nil hvalue
      simp [pendingKey]
    rw [hpending, if_neg (not_not_intro rfl), List.filter_eq_self]
    constructor
    · exact fun hall => .inl (by simpa using hall)
    · rintro (hall | hlength)
      · simpa using hall
      · obtain rfl : before = [] := List.length_eq_zero_iff.mp (by simpa using hlength)
        simpa using hvalue

/-- Two lines with values. -/
theorem lines_kept_of_values :
    kvReaderLines (char '=') (char '\n') (ascii "TXN=Hello\nSKU=4") =
      [(ascii "TXN", ascii "Hello"), (ascii "SKU", ascii "4")] := by
  refine (lines_kept_iff ?_ (by decide) (by decide)).mpr (.inl (by decide))
  intro pair hpair
  simp only [List.mem_cons, List.not_mem_nil, or_false] at hpair
  rcases hpair with rfl | rfl
  · exact ⟨by decide, by decide, by decide⟩
  · exact ⟨by decide, by decide, by decide⟩

/-- A line without a value takes the next key in its place. -/
theorem empty_value_lost :
    ¬ ∀ (pairs : List (Bytes × Bytes)) (text : Bytes),
      (∀ pair ∈ pairs, FitsLine (char '=') (char '\n') pair) → (pairs.map Prod.fst).Nodup →
        IsLinesText (char '=') (char '\n') pairs text →
          kvReaderLines (char '=') (char '\n') text = pairs := by
  intro h
  have hkept := h [(ascii "email", []), (ascii "country", ascii "1")]
    (ascii "email=\ncountry=1\n") ?_ (by decide) (by decide)
  · exact absurd hkept (by decide)
  · intro pair hpair
    simp only [List.mem_cons, List.not_mem_nil, or_false] at hpair
    rcases hpair with rfl | rfl
    · exact ⟨by decide, by decide, by decide⟩
    · exact ⟨by decide, by decide, by decide⟩

end OpenSpy
