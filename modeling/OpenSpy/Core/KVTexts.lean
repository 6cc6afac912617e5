import Mathlib.Data.List.Nodup
import OpenSpy.Core.KVReader

/-!
# Texts of keys and values

A text that `KVReader` is to read is put together as `\key\value\key\value`. What comes back are
the first pairs of their keys (`kv_reader_kv_string`): all of them if the keys differ, and as a set
all of them if a key never has two values. Keys and values with a backslash do not come back, since
the reader never returns one (`kv_reader_plain`).
-/

namespace OpenSpy

open Bytes

/-- A pair that can stand in a text. -/
def IsPlainPair (pair : Bytes × Bytes) : Prop :=
  char '\\' ∉ pair.1 ∧ char '\\' ∉ pair.2

/-- What the reader makes of the pairs of a text. An empty value is nothing at the end of the text,
where the reader takes the key without asking whether it is there already. -/
def keepFirst (kvMap : List (Bytes × Bytes)) : List (Bytes × Bytes) → List (Bytes × Bytes)
  | [] => kvMap
  | pair :: pairs =>
      if pairs = [] ∧ pair.2 = [] then if pair.1 ≠ [] then kvMap ++ [pair] else kvMap
      else keepFirst (if hasKey kvMap pair.1 then kvMap else kvMap ++ [pair]) pairs

/-- The names of keys, in a text with a value behind each. -/
def namedPairs (value : Bytes → Bytes) (names : List (Bytes × Bytes)) : List (Bytes × Bytes) :=
  names.map fun name => (name.1, value name.1)

section Tokens

variable {delim : UInt8} {text token : Bytes}

/-- A token has no delimiter in it. -/
theorem getlines_plain (h : token ∈ getlines delim text) : delim ∉ token := by
  induction text generalizing token with
  | nil => cases h
  | cons b rest ih =>
      rw [getlines] at h
      split at h
      · rcases List.mem_cons.mp h with rfl | h
        · exact List.not_mem_nil
        · exact ih h
      · next hb =>
          split at h
          · obtain rfl := List.mem_singleton.mp h
            simpa using Ne.symm hb
          · next first tokens heq =>
              rcases List.mem_cons.mp h with rfl | h
              · have hfirst := ih (heq ▸ List.mem_cons_self : first ∈ getlines delim rest)
                simp [hfirst, Ne.symm hb]
              · exact ih (heq ▸ List.mem_cons_of_mem first h)

/-- The pairs that are read are made of the tokens. -/
theorem read_pairs_plain {kvMap : List (Bytes × Bytes)} {tokens : List Bytes}
    (hmap : ∀ pair ∈ kvMap, IsPlainPair pair) (htokens : ∀ token ∈ tokens, char '\\' ∉ token) :
    ∀ pair ∈ readPairs kvMap tokens, IsPlainPair pair := by
  fun_induction readPairs kvMap tokens with
  | case1 => exact hmap
  | case2 kvMap key hkey =>
      intro pair hpair
      rcases List.mem_append.mp hpair with hpair | hpair
      · exact hmap pair hpair
      · obtain rfl := List.mem_singleton.mp hpair
        exact ⟨htokens key List.mem_cons_self, List.not_mem_nil⟩
  | case3 => exact hmap
  | case4 kvMap key value tokens hkey ih =>
      exact ih hmap fun token htoken => htokens token (by simp [htoken])
  | case5 kvMap key value tokens hkey ih =>
      refine ih ?_ fun token htoken => htokens token (by simp [htoken])
      intro pair hpair
      rcases List.mem_append.mp hpair with hpair | hpair
      · exact hmap pair hpair
      · obtain rfl := List.mem_singleton.mp hpair
        rw [IsPlainPair, cleanup_string_eq, cleanup_string_eq]
        exact ⟨htokens key (by simp), htokens value (by simp)⟩

/-- No key and no value that is read has a backslash. -/
theorem kv_reader_plain {pair : Bytes × Bytes} (h : pair ∈ kvReader text) : IsPlainPair pair :=
  @read_pairs_plain [] _ (by simp) (fun _ => getlines_plain) pair h

end Tokens

section Texts

variable {kvMap pairs : List (Bytes × Bytes)} {pair : Bytes × Bytes}

theorem kv_string_cons (pair : Bytes × Bytes) (pairs : List (Bytes × Bytes)) :
    kvString (pair :: pairs) = char '\\' :: pair.1 ++ char '\\' :: pair.2 ++ kvString pairs := rfl

theorem kv_string_append (pairs others : List (Bytes × Bytes)) :
    kvString (pairs ++ others) = kvString pairs ++ kvString others :=
  List.flatMap_append

/-- A text is empty or begins with a backslash. -/
theorem kv_string_tail (pairs : List (Bytes × Bytes)) :
    kvString pairs = [] ∧ pairs = [] ∨ kvString pairs = char '\\' :: (kvString pairs).tail := by
  cases pairs with
  | nil => exact .inl ⟨rfl, rfl⟩
  | cons pair pairs => exact .inr rfl

/-- The loop over the tokens of a text. -/
theorem read_pairs_kv_string (hplain : ∀ pair ∈ pairs, IsPlainPair pair) :
    readPairs kvMap (getlines (char '\\') (kvString pairs).tail) = keepFirst kvMap pairs := by
  induction pairs generalizing kvMap with
  | nil => rfl
  | cons pair pairs ih =>
      obtain ⟨key, value⟩ := pair
      obtain ⟨hkey, hvalue⟩ := hplain (key, value) List.mem_cons_self
      have htail : (kvString ((key, value) :: pairs)).tail =
          key ++ char '\\' :: (value ++ kvString pairs) := by
        simp [kv_string_cons]
      have ih := @ih (if hasKey kvMap key then kvMap else kvMap ++ [(key, value)])
        fun other hother => hplain other (List.mem_cons_of_mem _ hother)
      rw [htail, getlines_token hkey, keepFirst, ← ih]
      rcases kv_string_tail pairs with ⟨hempty, rfl⟩ | hcons
      · -- the last value may be empty, and then it is no token
        rw [hempty, List.append_nil]
        by_cases hnil : value = []
        · subst hnil
          simp [getlines, readPairs]
        · rw [getlines_last hvalue hnil, if_neg fun h => hnil h.2]
          simp only [readPairs, cleanup_string_eq]
          split <;> rfl
      · have hpairs : pairs ≠ [] := by
          rintro rfl
          simp [kvString] at hcons
        rw [hcons, getlines_token hvalue, if_neg fun h => hpairs h.1, List.tail_cons]
        simp only [readPairs, cleanup_string_eq]
        split <;> rfl

/-- A text comes back as the first pairs of its keys. -/
theorem kv_reader_kv_string (hplain : ∀ pair ∈ pairs, IsPlainPair pair) :
    kvReader (kvString pairs) = keepFirst [] pairs := by
  rw [← read_pairs_kv_string hplain, kvReader]
  rcases kv_string_tail pairs with ⟨hempty, -⟩ | hcons
  · rw [hempty]
    rfl
  · rw [if_pos (by rw [hcons]; rfl)]

/-- What is read is from the text. -/
theorem mem_of_keep_first (h : pair ∈ keepFirst kvMap pairs) : pair ∈ kvMap ∨ pair ∈ pairs := by
  fun_induction keepFirst kvMap pairs with
  | case1 => exact .inl h
  | case2 kvMap first pairs hend hkey => simpa [hend.1] using h
  | case3 => exact .inl h
  | case4 kvMap first pairs hend ih =>
      have ih := ih h
      split at ih
      · exact ih.imp_right (List.mem_cons_of_mem first)
      · simpa [or_assoc] using ih

/-- What is there stays there. -/
theorem mem_keep_first_of_map (h : pair ∈ kvMap) : pair ∈ keepFirst kvMap pairs := by
  fun_induction keepFirst kvMap pairs with
  | case1 => exact h
  | case2 => exact List.mem_append_left _ h
  | case3 => exact h
  | case4 kvMap first pairs hend ih =>
      refine ih ?_
      split
      · exact h
      · exact List.mem_append_left _ h

theorem has_key_iff {key : Bytes} : hasKey kvMap key = true ↔ ∃ value, (key, value) ∈ kvMap := by
  simp [hasKey]

/-- If no key has two values, a pair is read from a text. The one that may get lost is the empty
pair at the end. -/
theorem mem_keep_first
    (hsame : ∀ key value other, (key, value) ∈ kvMap ∨ (key, value) ∈ pairs →
      (key, other) ∈ kvMap ∨ (key, other) ∈ pairs → value = other)
    (hmem : pair ∈ pairs) (hlast : pair ≠ ([], []) ∨ pair ∈ pairs.dropLast) :
    pair ∈ keepFirst kvMap pairs := by
  induction pairs generalizing kvMap with
  | nil => cases hmem
  | cons first pairs ih =>
      rw [keepFirst]
      by_cases hend : pairs = [] ∧ first.2 = []
      · obtain ⟨rfl, hvalue⟩ := hend
        obtain rfl := List.mem_singleton.mp hmem
        have hkey : pair.1 ≠ [] := by
          intro hkey
          rcases hlast with hlast | hlast
          · exact hlast (Prod.ext hkey hvalue)
          · cases hlast
        rw [if_pos ⟨rfl, hvalue⟩, if_pos hkey]
        exact List.mem_append_right _ (List.mem_singleton_self _)
      · rw [if_neg hend]
        by_cases hfirst : pair = first
        · subst hfirst
          refine mem_keep_first_of_map ?_
          split
          · next hkey =>
              -- the value that is there already is the same
              obtain ⟨value, hvalue⟩ := has_key_iff.mp hkey
              have heq := hsame pair.1 value pair.2 (.inl hvalue) (.inr List.mem_cons_self)
              rwa [heq] at hvalue
          · exact List.mem_append_right _ (List.mem_singleton_self _)
        · have hrest : pair ∈ pairs := (List.mem_cons.mp hmem).resolve_left hfirst
          have hdrop : pair ≠ ([], []) ∨ pair ∈ pairs.dropLast := by
            refine hlast.imp_right fun hlast => ?_
            rw [List.dropLast_cons_of_ne_nil (List.ne_nil_of_mem hrest)] at hlast
            exact (List.mem_cons.mp hlast).resolve_left hfirst
          refine ih ?_ hrest hdrop
          intro key value other hvalue hother
          have hsub (found : Bytes)
              (h : (key, found) ∈ (if hasKey kvMap first.1 then kvMap else kvMap ++ [first]) ∨
                (key, found) ∈ pairs) :
              (key, found) ∈ kvMap ∨ (key, found) ∈ first :: pairs := by
            split at h
            · exact h.imp_right (List.mem_cons_of_mem first)
            · simpa [or_assoc] using h
          exact hsame key value other (hsub value hvalue) (hsub other hother)

/-- Different keys all come back. -/
theorem keep_first_eq_append (hkeys : ((kvMap ++ pairs).map (·.1)).Nodup)
    (hempty : ∀ pair ∈ pairs, pair.1 ≠ []) : keepFirst kvMap pairs = kvMap ++ pairs := by
  induction pairs generalizing kvMap with
  | nil => simp [keepFirst]
  | cons first pairs ih =>
      have hfresh : hasKey kvMap first.1 = false := by
        rw [Bool.eq_false_iff, Ne, has_key_iff]
        intro hkey
        obtain ⟨value, hvalue⟩ := hkey
        rw [List.map_append, List.nodup_append] at hkeys
        exact hkeys.2.2 first.1 (List.mem_map.mpr ⟨_, hvalue, rfl⟩) first.1 (by simp) rfl
      rw [keepFirst, hfresh, if_pos (hempty first List.mem_cons_self)]
      split
      · next hend => rw [hend.1]
      · rw [if_neg Bool.false_ne_true, ih, List.append_assoc, List.singleton_append]
        · simpa using hkeys
        · exact fun pair hpair => hempty pair (List.mem_cons_of_mem first hpair)

/-- No key comes back twice, unless the last one has no value. -/
theorem keep_first_nodup (hkeys : (kvMap.map (·.1)).Nodup) (hvalues : ∀ pair ∈ pairs, pair.2 ≠ []) :
    ((keepFirst kvMap pairs).map (·.1)).Nodup := by
  induction pairs generalizing kvMap with
  | nil => exact hkeys
  | cons first pairs ih =>
      rw [keepFirst, if_neg fun hend => hvalues first List.mem_cons_self hend.2]
      refine ih ?_ fun pair hpair => hvalues pair (List.mem_cons_of_mem first hpair)
      split
      · exact hkeys
      · next hkey =>
          rw [List.map_append, List.nodup_append]
          refine ⟨hkeys, List.nodup_singleton _, ?_⟩
          intro key hmem other hother heq
          obtain ⟨pair, hpair, rfl⟩ := List.mem_map.mp hmem
          obtain rfl : other = first.1 := by simpa using hother
          exact hkey (has_key_iff.mpr ⟨pair.2, heq ▸ hpair⟩)

end Texts

section Requests

variable {kvText : Bytes}

/-- The text that the keys of a request are read from. -/
theorem requested_keys_eq (kvText : Bytes) :
    ∃ names : List Bytes, (∀ name ∈ names, IsWord (char '\\') name) ∧
      requestedKeys kvText = keepFirst [] (names.map fun name => (name, ascii "stub")) := by
  unfold requestedKeys
  extract_lets names
  refine ⟨keyStringToVector names (char '\\'), ?_, ?_⟩
  · intro name hname
    obtain ⟨hmem, hne⟩ := List.mem_filter.mp hname
    exact ⟨by simpa using hne, getlines_plain hmem⟩
  · rw [← kv_reader_kv_string]
    · congr 1
      simp only [kvString, List.flatMap_map]
      rfl
    · intro pair hpair
      obtain ⟨name, hname, rfl⟩ := List.mem_map.mp hpair
      exact ⟨getlines_plain (List.mem_filter.mp hname).1, show char '\\' ∉ ascii "stub" by decide⟩

/-- The keys of a request are words. -/
theorem requested_key_word {key : Bytes × Bytes} (h : key ∈ requestedKeys kvText) :
    IsWord (char '\\') key.1 := by
  obtain ⟨names, hwords, heq⟩ := requested_keys_eq kvText
  rw [heq] at h
  rcases mem_of_keep_first h with h | h
  · cases h
  · obtain ⟨name, hname, rfl⟩ := List.mem_map.mp h
    exact hwords name hname

/-- No key is asked for twice. -/
theorem requested_keys_nodup (kvText : Bytes) : ((requestedKeys kvText).map (·.1)).Nodup := by
  obtain ⟨names, -, heq⟩ := requested_keys_eq kvText
  rw [heq]
  refine keep_first_nodup List.nodup_nil ?_
  intro pair hpair
  obtain ⟨name, -, rfl⟩ := List.mem_map.mp hpair
  exact show ascii "stub" ≠ [] by decide

/-- The values behind the names that were asked for come back exactly if none has a backslash. -/
theorem kv_reader_named_iff {keys : List (Bytes × Bytes)}
    (hsub : List.Sublist keys (requestedKeys kvText)) (value : Bytes → Bytes) :
    kvReader (kvString (namedPairs value keys)) = namedPairs value keys ↔
      ∀ key ∈ keys, char '\\' ∉ value key.1 := by
  constructor
  · intro h key hkey
    have hmem : (key.1, value key.1) ∈ namedPairs value keys := List.mem_map_of_mem hkey
    rw [← h] at hmem
    exact (kv_reader_plain hmem).2
  · intro h
    have hword (pair : Bytes × Bytes) (hpair : pair ∈ namedPairs value keys) :
        IsWord (char '\\') pair.1 ∧ char '\\' ∉ pair.2 := by
      obtain ⟨key, hkey, hpair⟩ := List.mem_map.mp hpair
      have hname := requested_key_word (hsub.subset hkey)
      rw [← hpair]
      exact ⟨hname, h key hkey⟩
    rw [kv_reader_kv_string fun pair hpair => ⟨(hword pair hpair).1.2, (hword pair hpair).2⟩,
      keep_first_eq_append _ fun pair hpair => (hword pair hpair).1.1, List.nil_append]
    have hnames : (namedPairs value keys).map (·.1) = keys.map (·.1) := by
      simp [namedPairs, Function.comp_def]
    rw [List.nil_append, hnames]
    exact (requested_keys_nodup kvText).sublist (hsub.map _)

end Requests

end OpenSpy
