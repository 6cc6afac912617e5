import OpenSpy.Core.KVConstructor
import OpenSpy.Core.KVTexts
import OpenSpy.Library.Redis

/-!
# The fields of a text

`fieldsOf` are the fields that stand in a text, each with its key, and `leftOver` is the key at its
end that has no value. `KVReader` keeps the first field of each key, and pushes the key that is left
over without a look at the others (`construct_eq`). From that follow what its two views agree on
(`views_agree_iff`), which texts are kept free of bytes above 127 (`stored_seven_bit_iff`), and that
a printed reader is read back (`to_string_read_back`).
-/

namespace OpenSpy.KVReader

open Bytes MachineInt Redis

/-- The first pairs of their keys. -/
def firsts (pairs : List (Bytes × Bytes)) : List (Bytes × Bytes) :=
  pairs.foldl (fun kept pair => if hasKey kept pair.1 then kept else kept ++ [pair]) []

section Scan

variable (args : Arguments)

/-- The tokens of a line as `readTokens` goes through them, with every field that is found. -/
def scanTokens (limit : Nat) : Nat → Variables → Option Bytes → Variables
  | 0, vars, _ => vars
  | fuel + 1, vars, stream =>
      match vars.getToken args stream with
      | none => vars
      | some (vars, stream) =>
          let vars := { vars with key := vars.token }
          match vars.getToken args stream with
          | none => vars
          | some (vars, stream) =>
              -- a field of a key that was there before has no binary value
              if hasKey vars.kvMap vars.key then
                scanTokens limit fuel (vars.push vars.token) stream
              else
                match args.dataMap vars.key with
                | none => scanTokens limit fuel (vars.push vars.token) stream
                | some lengthKey =>
                    let dataLen := sizeT (getValueInt vars.kvMap lengthKey)
                    if dataLen > limit then { vars with value := vars.token }
                    else
                      scanTokens limit fuel
                        (vars.push (blockRead (args.heap vars.key) dataLen stream))
                        (behindBlock dataLen stream)

/-- All lines of a text. -/
def scanText (kvPair : Bytes) : Variables :=
  if args.lineDelim = 0 then
    { scanTokens args kvPair.length (kvPair.length + 2) .start (some kvPair) with value := [] }
  else
    (getlines args.lineDelim kvPair).foldl
      (fun vars line => scanTokens args kvPair.length (line.length + 2) vars (some line)) .start

/-- The fields of a text. -/
def fieldsOf (kvPair : Bytes) : List (Bytes × Bytes) :=
  (scanText args (args.innerText kvPair)).kvMap

/-- The key that a text leaves over, with the value that it gets. -/
def leftOver (kvPair : Bytes) : Option (Bytes × Bytes) :=
  let vars := scanText args (args.innerText kvPair)
  if vars.key.length > 0 then some (vars.key, vars.value) else none

end Scan

/-- The keys are distinct, and lookup and map have the same keys with the same values. -/
structure ViewsAgree (reader : KVReader) : Prop where
  distinct : (reader.kvMap.map Prod.fst).Nodup
  keys : ∀ key, hasKey reader.kvMap key = true ↔ (reader.getKVMap key).isSome = true
  values : ∀ key, getValue reader.kvMap key = (reader.getKVMap key).getD []

/-- A string that the JSON serialiser takes. -/
def SevenBit (s : Bytes) : Prop :=
  ∀ ch ∈ s, ch ≤ 127

/-- Key and value are such strings. -/
def SevenBitPair (pair : Bytes × Bytes) : Prop :=
  SevenBit pair.1 ∧ SevenBit pair.2

instance (s : Bytes) : Decidable (SevenBit s) :=
  inferInstanceAs (Decidable (∀ ch ∈ s, _))

section Firsts

variable {pairs : List (Bytes × Bytes)} {pair : Bytes × Bytes}

theorem firsts_concat (pairs : List (Bytes × Bytes)) (pair : Bytes × Bytes) :
    firsts (pairs ++ [pair]) =
      if hasKey (firsts pairs) pair.1 then firsts pairs else firsts pairs ++ [pair] := by
  rw [firsts, List.foldl_append]
  rfl

/-- Every key is kept. -/
@[simp] theorem has_key_firsts (pairs : List (Bytes × Bytes)) (key : Bytes) :
    hasKey (firsts pairs) key = hasKey pairs key := by
  induction pairs using List.reverseRecOn with
  | nil => rfl
  | append_singleton pairs pair ih =>
      rw [firsts_concat, has_key_append]
      split
      · next hsame =>
          rw [ih]
          by_cases hkey : pair.1 = key
          · subst hkey
            rw [← ih, hsame, Bool.true_or]
          · simp [hasKey, hkey]
      · rw [has_key_append, ih]

/-- What is found first is kept. -/
theorem find_firsts (pairs : List (Bytes × Bytes)) (key : Bytes) :
    ((firsts pairs).find? fun pair => pair.1 == key) = pairs.find? fun pair => pair.1 == key := by
  induction pairs using List.reverseRecOn with
  | nil => rfl
  | append_singleton pairs pair ih =>
      rw [firsts_concat, List.find?_append]
      split
      · next hsame =>
          rw [ih]
          by_cases hkey : pair.1 = key
          · subst hkey
            rw [has_key_firsts] at hsame
            rw [← find_key_of_prefix (List.prefix_append pairs [pair]) hsame, List.find?_append,
              Option.or_assoc, Option.or_self]
          · simp [hkey]
      · rw [List.find?_append, ih]

theorem get_value_int_firsts (pairs : List (Bytes × Bytes)) (key : Bytes) :
    getValueInt (firsts pairs) key = getValueInt pairs key := by
  rw [getValueInt, getValueInt, find_firsts]

theorem has_key_iff_mem {key : Bytes} : hasKey pairs key = true ↔ key ∈ pairs.map Prod.fst := by
  simp [hasKey]

/-- No key is kept twice. -/
theorem firsts_nodup (pairs : List (Bytes × Bytes)) : ((firsts pairs).map Prod.fst).Nodup := by
  induction pairs using List.reverseRecOn with
  | nil => exact List.nodup_nil
  | append_singleton pairs pair ih =>
      rw [firsts_concat]
      split
      · exact ih
      · next hnew =>
          rw [List.map_append, List.map_singleton, List.nodup_append_comm, List.singleton_append,
            List.nodup_cons]
          exact ⟨fun hmem => hnew (has_key_iff_mem.mpr hmem), ih⟩

/-- The pairs that are kept. -/
theorem mem_firsts_iff :
    pair ∈ firsts pairs ↔
      ∃ before after, pairs = before ++ pair :: after ∧ pair.1 ∉ before.map Prod.fst := by
  induction pairs using List.reverseRecOn with
  | nil => simp [firsts]
  | append_singleton pairs last ih =>
      rw [firsts_concat]
      constructor
      · intro h
        have hcases : pair ∈ firsts pairs ∨ pair = last ∧ hasKey pairs last.1 = false := by
          split at h
          · exact .inl h
          · next hnew =>
              rw [has_key_firsts, Bool.not_eq_true] at hnew
              simpa [hnew] using h
        rcases hcases with h | ⟨rfl, hnew⟩
        · obtain ⟨before, after, rfl, hbefore⟩ := ih.mp h
          exact ⟨before, after ++ [last], by simp, hbefore⟩
        · exact ⟨pairs, [], rfl, fun hmem => by simp [has_key_iff_mem.mpr hmem] at hnew⟩
      · rintro ⟨before, after, hsplit, hbefore⟩
        rcases List.eq_nil_or_concat after with rfl | ⟨after, other, rfl⟩
        · obtain ⟨rfl, hlast⟩ := List.append_inj' hsplit rfl
          obtain rfl := List.singleton_inj.mp hlast
          have hnew : ¬ hasKey (firsts pairs) last.1 = true := by
            rw [has_key_firsts, has_key_iff_mem]
            exact hbefore
          rw [if_neg hnew]
          exact List.mem_append_right _ (List.mem_singleton_self _)
        · have hpairs : pairs = before ++ pair :: after := by
            have hconcat : pairs ++ [last] = (before ++ pair :: after) ++ [other] := by
              simpa using hsplit
            exact (List.append_inj' hconcat rfl).1
          have hmem := ih.mpr ⟨before, after, hpairs, hbefore⟩
          split
          · exact hmem
          · exact List.mem_append_left _ hmem

end Firsts

section Construct

variable {args : Arguments} {reader : KVReader} {kvPair : Bytes}

/-- The variables with the first fields of their keys. -/
def Variables.kept (vars : Variables) : Variables :=
  { vars with kvMap := firsts vars.kvMap }

theorem get_token_kept (vars : Variables) (stream : Option Bytes) :
    vars.kept.getToken args stream =
      (vars.getToken args stream).map fun next => (next.1.kept, next.2) := by
  unfold Variables.getToken Variables.kept
  split
  · rfl
  · cases nextToken args.delim stream <;> rfl

theorem push_kept {vars : Variables} (h : hasKey vars.kvMap vars.key = false) (value : Bytes) :
    vars.kept.push value = (vars.push value).kept := by
  have hnew : ¬ hasKey (firsts vars.kvMap) (cleanupString vars.key) = true := by
    rw [cleanup_string_eq, has_key_firsts, h]
    exact Bool.false_ne_true
  simp only [Variables.push, Variables.kept, firsts_concat, if_neg hnew]

/-- A field of a key that is there already changes nothing but the last value. -/
theorem push_kept_again {vars : Variables} (h : hasKey vars.kvMap vars.key = true)
    (value : Bytes) :
    { vars.kept with key := [], value := value } = (vars.push value).kept := by
  have hsame : hasKey (firsts vars.kvMap) (cleanupString vars.key) = true := by
    rw [cleanup_string_eq, has_key_firsts, h]
  simp only [Variables.push, Variables.kept, firsts_concat, if_pos hsame]

/-- The loop keeps the first fields of the keys of a line. -/
theorem read_tokens_eq (limit fuel : Nat) (vars : Variables) (stream : Option Bytes) :
    readTokens args limit fuel vars.kept stream =
      (scanTokens args limit fuel vars stream).kept := by
  induction fuel generalizing vars stream with
  | zero => rfl
  | succ fuel ih =>
      rw [readTokens, scanTokens, get_token_kept]
      cases hfirst : vars.getToken args stream with
      | none => rfl
      | some first =>
          obtain ⟨vars, rest⟩ := first
          simp only [Option.map_some]
          have hkept := @get_token_kept args { vars with key := vars.token } rest
          simp only [Variables.kept] at hkept ⊢
          rw [hkept]
          cases hsecond : Variables.getToken args { vars with key := vars.token } rest with
          | none => rfl
          | some second =>
              obtain ⟨vars, last⟩ := second
              simp only [Option.map_some, has_key_firsts, get_value_int_firsts]
              by_cases hsame : hasKey vars.kvMap vars.key = true
              · rw [if_pos hsame, if_pos hsame]
                exact (congrArg (readTokens args limit fuel · last) (push_kept_again hsame _)).trans
                  (ih _ _)
              · have hnew : hasKey vars.kvMap vars.key = false := by simpa using hsame
                rw [if_neg hsame, if_neg hsame]
                cases args.dataMap vars.key with
                | none =>
                    exact (congrArg (readTokens args limit fuel · last) (push_kept hnew _)).trans
                      (ih _ _)
                | some lengthKey =>
                    simp only
                    split
                    · rfl
                    · exact (congrArg (readTokens args limit fuel · _) (push_kept hnew _)).trans
                        (ih _ _)

theorem read_text_eq (args : Arguments) (kvPair : Bytes) :
    readText args kvPair = (scanText args kvPair).kept := by
  have hfold (lines : List Bytes) (vars : Variables) :
      lines.foldl (fun vars line =>
          readTokens args kvPair.length (line.length + 2) vars (some line)) vars.kept =
        (lines.foldl (fun vars line =>
          scanTokens args kvPair.length (line.length + 2) vars (some line)) vars).kept := by
    induction lines generalizing vars with
    | nil => rfl
    | cons line lines ih => rw [List.foldl_cons, List.foldl_cons, read_tokens_eq, ih]
  unfold readText scanText
  split
  · have hread := @read_tokens_eq args kvPair.length (kvPair.length + 2) .start (some kvPair)
    exact congrArg (fun vars : Variables => { vars with value := [] }) hread
  · exact hfold _ .start

/-- A reader has the first fields of the keys of its text, and the key that is left over. -/
theorem construct_eq (h : construct args kvPair = some reader) :
    reader.kvMap = firsts (fieldsOf args kvPair) ++ (leftOver args kvPair).toList := by
  unfold construct at h
  split at h
  · cases h
  · cases h
    show Variables.finish _ = _
    rw [read_text_eq, fieldsOf, leftOver]
    unfold Variables.finish
    split
    · next hkey => rw [if_pos (by exact hkey)]; rfl
    · next hkey => rw [if_neg (by exact hkey)]; simp [Variables.kept]

/-- A text that the constructor throws at has no fields. -/
theorem no_fields_of_none (h : construct args kvPair = none) :
    fieldsOf args kvPair = [] ∧ leftOver args kvPair = none := by
  unfold construct at h
  split at h
  · next hempty =>
      obtain ⟨rfl, hdelim⟩ := hempty
      have hscan : scanText args [] = .start := by
        unfold scanText
        split <;> rfl
      have hinner : args.innerText [] = [] := by simp [Arguments.innerText]
      rw [fieldsOf, leftOver, hinner, hscan]
      exact ⟨rfl, rfl⟩
  · cases h

end Construct

section Pairs

variable {args : Arguments} {limit fuel : Nat} {vars : Variables} {stream : Option Bytes}

/-- Every second token with the one in front of it. -/
def tokenPairs : List Bytes → List (Bytes × Bytes)
  | key :: value :: tokens => (key, value) :: tokenPairs tokens
  | _ => []

/-- The last token, if it is in no pair. -/
def oddToken : List Bytes → Bytes
  | [] => []
  | [key] => key
  | _ :: _ :: tokens => oddToken tokens

/-- Without binary values the fields of a line are its pairs of tokens. -/
theorem scan_tokens_of_no_data (hdata : ∀ key, args.dataMap key = none) (hkey : vars.key = [])
    (h : (tokensLeft args.delim stream).length < fuel) :
    (scanTokens args limit fuel vars stream).kvMap =
        vars.kvMap ++ tokenPairs (tokensLeft args.delim stream) ∧
      (scanTokens args limit fuel vars stream).key = oddToken (tokensLeft args.delim stream) := by
  have hnot (key : Bytes) : args.isDataKey key = false := by
    rw [Arguments.isDataKey, hdata]
    rfl
  induction fuel generalizing vars stream with
  | zero => exact absurd h (Nat.not_lt_zero _)
  | succ fuel ih =>
      rw [scanTokens, get_token_of_not_data (hnot _)]
      have hfirst := next_token_eq args.delim stream
      cases hleft : tokensLeft args.delim stream with
      | nil =>
          rw [hleft] at hfirst
          rw [hfirst]
          exact ⟨(List.append_nil _).symm, hkey⟩
      | cons key tokens =>
          rw [hleft] at hfirst
          obtain ⟨rest, htoken, hrest⟩ := hfirst
          simp only [htoken, Option.map_some, get_token_of_not_data (hnot _)]
          have hsecond := next_token_eq args.delim rest
          rw [hrest] at hsecond
          cases tokens with
          | nil =>
              rw [show nextToken args.delim rest = none from hsecond]
              exact ⟨(List.append_nil _).symm, rfl⟩
          | cons value tokens =>
              obtain ⟨last, hvalue, hlast⟩ := hsecond
              have hlen : (tokensLeft args.delim last).length < fuel := by
                rw [hleft, List.length_cons, List.length_cons] at h
                rw [hlast]
                omega
              have hpush (vars : Variables) := @ih (vars.push value) last rfl hlen
              simp only [hvalue, Option.map_some, hdata, ite_self, hpush, hlast, tokenPairs,
                oddToken]
              simp [Variables.push, cleanup_string_eq]

/-- The fields of a text without lines and binary values, and the key that it leaves over. -/
theorem fields_of_default (heap : Bytes → Nat → UInt8) (kvPair : Bytes) :
    fieldsOf ⟨char '\\', 0, fun _ => none, heap⟩ kvPair =
        tokenPairs (getlines (char '\\') (fieldText kvPair)) ∧
      leftOver ⟨char '\\', 0, fun _ => none, heap⟩ kvPair =
        let key := oddToken (getlines (char '\\') (fieldText kvPair))
        if key.length > 0 then some (key, []) else none := by
  obtain ⟨hfields, hkey⟩ := @scan_tokens_of_no_data ⟨char '\\', 0, fun _ => none, heap⟩
    (fieldText kvPair).length ((fieldText kvPair).length + 2) .start (some (fieldText kvPair))
    (fun _ => rfl) rfl (Nat.lt_succ_of_le (getlines_length_le _ _))
  refine ⟨hfields, ?_⟩
  exact congrArg (fun key : Bytes => if key.length > 0 then some (key, ([] : Bytes)) else none) hkey

end Pairs

section Views

variable {reader : KVReader} {args : Arguments} {kvPair : Bytes}

theorem get_kv_map_eq (reader : KVReader) :
    reader.getKVMap = hmset (fun _ => none) reader.kvMap := rfl

/-- Lookup and map always have the same keys. -/
theorem has_key_iff_map (reader : KVReader) (key : Bytes) :
    hasKey reader.kvMap key = true ↔ (reader.getKVMap key).isSome = true := by
  rw [get_kv_map_eq, hmset_isSome, has_key_iff]
  simp

/-- Distinct keys have one value each. -/
theorem ViewsAgree.of_distinct (h : (reader.kvMap.map Prod.fst).Nodup) : reader.ViewsAgree where
  distinct := h
  keys := has_key_iff_map reader
  values key := by
    by_cases hkey : hasKey reader.kvMap key = true
    · obtain ⟨value, hmem⟩ := has_key_iff.mp hkey
      have hsame (other : Bytes) (hother : (key, other) ∈ reader.kvMap) : other = value :=
        congrArg Prod.snd (List.inj_on_of_nodup_map h hother hmem rfl)
      have hvalue : getValue reader.kvMap key = value := by
        rw [getValue]
        cases hfind : reader.kvMap.find? fun pair => pair.1 == key with
        | none => simpa using List.find?_eq_none.mp hfind _ hmem
        | some pair =>
            obtain rfl : pair.1 = key := by simpa using List.find?_some hfind
            exact hsame pair.2 (List.mem_of_find?_eq_some hfind)
      rw [hvalue, get_kv_map_eq, hmset_of_mem hmem hsame, Option.getD_some]
    · have hnone : reader.getKVMap key = none := by
        rw [has_key_iff_map, Bool.not_eq_true, Option.isSome_eq_false_iff,
          Option.isNone_iff_eq_none] at hkey
        exact hkey
      rw [hnone, get_value_of_missing (by simpa using hkey), Option.getD_none]

/-- The keys of a reader are distinct exactly if the one that is left over is new. -/
theorem distinct_iff (h : construct args kvPair = some reader) :
    (reader.kvMap.map Prod.fst).Nodup ↔
      ∀ pair, leftOver args kvPair = some pair → pair.1 ∉ (fieldsOf args kvPair).map Prod.fst := by
  rw [construct_eq h, List.map_append, List.nodup_append_comm]
  cases hleft : leftOver args kvPair with
  | none => simp [firsts_nodup]
  | some pair =>
      rw [Option.toList_some, List.map_singleton, List.singleton_append, List.nodup_cons,
        and_iff_left (firsts_nodup _), ← has_key_iff_mem, has_key_firsts, has_key_iff_mem]
      simp

/-- After a text is parsed the keys are distinct, and lookup and map agree on every key, exactly if
the text does not leave a key over that one of its fields has. -/
theorem views_agree_iff (args : Arguments) (kvPair : Bytes) :
    (∀ reader, construct args kvPair = some reader → reader.ViewsAgree) ↔
      ∀ pair, leftOver args kvPair = some pair →
        pair.1 ∉ (fieldsOf args kvPair).map Prod.fst := by
  cases hreader : construct args kvPair with
  | none => simp [(no_fields_of_none hreader).2]
  | some reader =>
      rw [← distinct_iff hreader]
      constructor
      · exact fun h => (h reader rfl).distinct
      · intro h other hother
        cases hother
        exact .of_distinct h

/-- A key at the end of a text that was there before: lookup finds its value, the map an empty
one. -/
theorem views_differ :
    ¬ ∀ (args : Arguments) (kvPair : Bytes) (reader : KVReader),
      construct args kvPair = some reader → reader.ViewsAgree := by
  intro h
  have hconstruct := construct_default (fun _ _ => 0) (ascii "\\a\\1\\a")
  have hdistinct := (h _ _ _ hconstruct).distinct
  exact absurd hdistinct (by decide)

end Views

section SevenBit

variable {args : Arguments} {kvPair : Bytes} {reader : KVReader}

/-- Keys and values that are stored have no byte above 127 exactly if that holds of the first field
of each key and of the key that is left over. -/
theorem stored_seven_bit_iff (args : Arguments) (kvPair : Bytes) :
    (∀ reader, construct args kvPair = some reader →
        ∀ pair ∈ reader.kvMap, SevenBitPair pair) ↔
      (∀ before field after, fieldsOf args kvPair = before ++ field :: after →
          field.1 ∉ before.map Prod.fst → SevenBitPair field) ∧
        ∀ pair, leftOver args kvPair = some pair → SevenBitPair pair := by
  have hfirsts : (∀ pair ∈ firsts (fieldsOf args kvPair), SevenBitPair pair) ↔
      ∀ before field after, fieldsOf args kvPair = before ++ field :: after →
        field.1 ∉ before.map Prod.fst → SevenBitPair field := by
    simp only [mem_firsts_iff]
    constructor
    · intro h before field after hsplit hbefore
      exact h field ⟨before, after, hsplit, hbefore⟩
    · rintro h field ⟨before, after, hsplit, hbefore⟩
      exact h before field after hsplit hbefore
  rw [← hfirsts]
  cases hreader : construct args kvPair with
  | none =>
      obtain ⟨hfields, hleft⟩ := no_fields_of_none hreader
      simp [hfields, hleft, firsts]
  | some reader =>
      simp only [Option.some.injEq, forall_eq', construct_eq hreader, List.mem_append,
        Option.mem_toList, or_imp, forall_and]

/-- A byte above 127 is stored. -/
theorem high_byte_stored :
    ¬ ∀ (args : Arguments) (kvPair : Bytes) (reader : KVReader),
      construct args kvPair = some reader → ∀ pair ∈ reader.kvMap, SevenBitPair pair := by
  intro h
  have hconstruct := construct_default (fun _ _ => 0) (ascii "\\a\\" ++ [233])
  have hpair := h _ _ _ hconstruct (ascii "a", [233]) (by decide)
  have hbyte : (233 : UInt8) ≤ 127 := hpair.2 233 List.mem_cons_self
  exact absurd hbyte (by decide)

end SevenBit

section Printing

variable {reader : KVReader}

/-- A reader without lines prints its pairs as `kvString` does. -/
theorem to_string_eq (hdelim : reader.delimitor = char '\\') (hline : reader.lineDelimitor = 0) :
    reader.toString false = kvString reader.kvMap := by
  simp [toString, kvString, hdelim, hline]

/-- What a reader with backslashes and without lines prints is read as the same pairs in the same
order, if the keys are distinct and not empty, and no key and no value has a backslash. -/
theorem to_string_read_back (heap : Bytes → Nat → UInt8) (hdelim : reader.delimitor = char '\\')
    (hline : reader.lineDelimitor = 0) (hkeys : (reader.kvMap.map Prod.fst).Nodup)
    (hempty : ∀ pair ∈ reader.kvMap, pair.1 ≠ [])
    (hplain : ∀ pair ∈ reader.kvMap, char '\\' ∉ pair.1 ∧ char '\\' ∉ pair.2) :
    (construct ⟨char '\\', 0, fun _ => none, heap⟩ (reader.toString false)).map (·.kvMap) =
      some reader.kvMap := by
  rw [construct_default, to_string_eq hdelim hline, Option.map_some, kv_reader_kv_string hplain,
    keep_first_eq_append (by simpa using hkeys) hempty, List.nil_append]

/-- Empty values in front of another pair and at the end. -/
theorem to_string_read_back_empty :
    (construct ⟨char '\\', 0, fun _ => none, fun _ _ => 0⟩
        (KVReader.toString ⟨[(ascii "a", []), (ascii "b", ascii "1"), (ascii "c", [])], char '\\',
          0, fun _ => none⟩ false)).map (·.kvMap) =
      some [(ascii "a", []), (ascii "b", ascii "1"), (ascii "c", [])] :=
  to_string_read_back (fun _ _ => 0) rfl rfl (by decide) (by decide) (by decide)

end Printing

end OpenSpy.KVReader
