import OpenSpy.Core.DataKeys

/-!
# The constructor of `OS::KVReader`

`KVReader.construct` has all arguments of the constructor: a text, any two delimiters, and any keys
with binary values. What is read without binary values, from lines or with one key for the length of
the data are cases of it (`construct_default`, `construct_lines` and `construct_data`). The loop
over the tokens ends within the turns that it is given (`read_tokens_fuel`).
-/

namespace OpenSpy

open Bytes MachineInt

/-- `std::getline(line_ss, token, delim)` where this is left of the text and the stream is good, or
where it is not good. -/
def nextToken (delim : UInt8) : Option Bytes → Option (Bytes × Option Bytes)
  | none => none
  | some [] => none
  | some text =>
      let token := text.takeWhile (· ≠ delim)
      some (token, if delim ∈ text then some (text.drop (token.length + 1)) else none)

/-- `OS::KVReader`. -/
structure KVReader where
  kvMap : List (Bytes × Bytes)
  delimitor : UInt8
  lineDelimitor : UInt8
  dataKeyMap : Bytes → Option Bytes

namespace KVReader

/-- The arguments of the constructor besides the text: the delimiters, and the key that has the
length of a key's binary value. `heap` is what `malloc` finds in the block for the value of a
key. -/
structure Arguments where
  delim : UInt8
  lineDelim : UInt8
  dataMap : Bytes → Option Bytes
  heap : Bytes → Nat → UInt8

/-- The variables of the constructor. -/
structure Variables where
  kvMap : List (Bytes × Bytes)
  token : Bytes
  key : Bytes
  value : Bytes

/-- The variables before the text is read. -/
def Variables.start : Variables :=
  ⟨[], [], [], []⟩

section Constructor

variable (args : Arguments)

/-- `KVReader::IsDataKey`. -/
def Arguments.isDataKey (key : Bytes) : Bool :=
  (args.dataMap key).isSome

/-- The condition of the loop over the tokens: no token is read behind a key with a binary value. -/
def Variables.getToken (vars : Variables) (stream : Option Bytes) :
    Option (Variables × Option Bytes) :=
  if vars.key.length > 0 ∧ args.isDataKey vars.key then some (vars, stream)
  else
    match nextToken args.delim stream with
    | none => none
    | some (token, stream) => some ({ vars with token := token }, stream)

/-- A pair is pushed, and the key is used up. -/
def Variables.push (vars : Variables) (value : Bytes) : Variables :=
  { vars with
    kvMap := vars.kvMap ++ [(cleanupString vars.key, cleanupString value)]
    key := []
    value := value }

/-- The loop over the tokens of a line, with two turns for each pair. `limit` is the length of the
text. -/
def readTokens (limit : Nat) : Nat → Variables → Option Bytes → Variables
  | 0, vars, _ => vars
  | fuel + 1, vars, stream =>
      match vars.getToken args stream with
      | none => vars
      | some (vars, stream) =>
          let vars := { vars with key := vars.token }
          match vars.getToken args stream with
          | none => vars
          | some (vars, stream) =>
              let vars := { vars with value := vars.token }
              if hasKey vars.kvMap vars.key then
                readTokens limit fuel { vars with key := [] } stream
              else
                match args.dataMap vars.key with
                | none => readTokens limit fuel (vars.push vars.value) stream
                | some lengthKey =>
                    let dataLen := sizeT (getValueInt vars.kvMap lengthKey)
                    if dataLen > limit then vars
                    else
                      readTokens limit fuel
                        (vars.push (blockRead (args.heap vars.key) dataLen stream))
                        (behindBlock dataLen stream)

/-- The loop over the lines, where a line delimiter of 0 stands for a text without lines. -/
def readText (kvPair : Bytes) : Variables :=
  if args.lineDelim = 0 then
    { readTokens args kvPair.length (kvPair.length + 2) .start (some kvPair) with value := [] }
  else
    (getlines args.lineDelim kvPair).foldl
      (fun vars line => readTokens args kvPair.length (line.length + 2) vars (some line)) .start

/-- The pairs behind the loops: a key that is left over is pushed with the value that is there. -/
def Variables.finish (vars : Variables) : List (Bytes × Bytes) :=
  if vars.key.length > 0 then vars.kvMap ++ [(vars.key, vars.value)] else vars.kvMap

/-- The text without a delimiter in front. -/
def Arguments.innerText (kvPair : Bytes) : Bytes :=
  if kvPair.head? = some args.delim then kvPair.tail else kvPair

/-- `KVReader::KVReader`. There is no answer to an empty text if the delimiter is NUL, which is the
`kv_pair[0]` of an empty text: its `substr(1)` throws. -/
def construct (kvPair : Bytes) : Option KVReader :=
  if kvPair = [] ∧ args.delim = 0 then none
  else
    some
      { kvMap := (readText args (args.innerText kvPair)).finish
        delimitor := args.delim
        lineDelimitor := args.lineDelim
        dataKeyMap := args.dataMap }

end Constructor

/-- `KVReader::ToString`. -/
def toString (reader : KVReader) (valuesOnly : Bool) : Bytes :=
  reader.kvMap.flatMap fun pair =>
    (if valuesOnly then reader.delimitor :: pair.2
    else reader.delimitor :: pair.1 ++ reader.delimitor :: pair.2) ++
      if reader.lineDelimitor ≠ 0 then [reader.lineDelimitor] else []

/-- `KVReader::GetKVMap`. -/
def getKVMap (reader : KVReader) : Bytes → Option Bytes :=
  reader.kvMap.foldl (fun ret pair => Function.update ret pair.1 (some pair.2)) fun _ => none

section Tokens

variable {delim : UInt8} {stream : Option Bytes} {next : Bytes × Option Bytes}

theorem getline_eq_next_token (stream : Option Bytes) :
    getline stream = nextToken (char '\\') stream := by
  rcases stream with _ | _ | _ <;> rfl

/-- A token uses up a part of the text. -/
theorem next_token_length (h : nextToken delim stream = some next) :
    (next.2.getD []).length < (stream.getD []).length := by
  rcases stream with _ | _ | ⟨b, text⟩
  · cases h
  · cases h
  · cases h
    show ((if _ then some _ else none : Option Bytes).getD []).length < (b :: text).length
    split
    · rw [Option.getD_some, List.length_drop, List.length_cons]
      omega
    · exact Nat.succ_pos _

/-- The tokens that are left. -/
def tokensLeft (delim : UInt8) (stream : Option Bytes) : List Bytes :=
  getlines delim (stream.getD [])

/-- The next token is the first of them. -/
theorem next_token_eq (delim : UInt8) (stream : Option Bytes) :
    match tokensLeft delim stream with
    | [] => nextToken delim stream = none
    | token :: tokens =>
        ∃ rest, nextToken delim stream = some (token, rest) ∧ tokensLeft delim rest = tokens := by
  rcases stream with _ | _ | ⟨b, text⟩
  · rfl
  · rfl
  · by_cases hmem : delim ∈ b :: text
    · obtain ⟨before, after, hsplit, hbefore⟩ := List.eq_append_cons_of_mem hmem
      have htoken : (b :: text).takeWhile (· ≠ delim) = before := by
        rw [hsplit, List.takeWhile_append_of_pos fun c hc => by
          simpa using fun heq : c = delim => hbefore (heq ▸ hc)]
        simp
      have hleft : tokensLeft delim (some (b :: text)) = before :: getlines delim after := by
        rw [tokensLeft, Option.getD_some, hsplit, getlines_token hbefore]
      rw [hleft]
      refine ⟨some after, ?_, rfl⟩
      simp only [nextToken, htoken, if_pos hmem]
      simp [hsplit]
    · have htoken : (b :: text).takeWhile (· ≠ delim) = b :: text := by
        rw [List.takeWhile_eq_self_iff]
        exact fun c hc => by simpa using fun heq : c = delim => hmem (heq ▸ hc)
      have hleft : tokensLeft delim (some (b :: text)) = [b :: text] := by
        rw [tokensLeft, Option.getD_some, getlines_last hmem (List.cons_ne_nil b text)]
      rw [hleft]
      exact ⟨none, by simp only [nextToken, htoken, if_neg hmem], rfl⟩

end Tokens

section Loop

variable {args : Arguments} {limit fuel : Nat} {vars : Variables} {stream : Option Bytes}

theorem get_token_of_not_data (h : args.isDataKey vars.key = false) :
    vars.getToken args stream =
      (nextToken args.delim stream).map fun next => ({ vars with token := next.1 }, next.2) := by
  rw [Variables.getToken, if_neg (by simp [h])]
  cases nextToken args.delim stream <;> rfl

theorem get_token_of_empty (h : vars.key = []) :
    vars.getToken args stream =
      (nextToken args.delim stream).map fun next => ({ vars with token := next.1 }, next.2) := by
  rw [Variables.getToken, if_neg (by simp [h])]
  cases nextToken args.delim stream <;> rfl

/-- What the condition of the loop leaves: the same text behind a key with a binary value, and else
a shorter one. -/
theorem get_token_length {next : Variables × Option Bytes}
    (h : vars.getToken args stream = some next) :
    next.2 = stream ∧ vars.key ≠ [] ∨ (next.2.getD []).length < (stream.getD []).length := by
  unfold Variables.getToken at h
  split at h
  · next hdata =>
      cases h
      exact .inl ⟨rfl, List.length_pos_iff.mp hdata.1⟩
  · split at h
    · cases h
    · next token rest hnext =>
        cases h
        exact .inr (next_token_length hnext)

/-- The turns that a line can take: one for each of its bytes and one for a key that is there
before the line. -/
def turns (vars : Variables) (stream : Option Bytes) : Nat :=
  (stream.getD []).length + if vars.key = [] then 0 else 1

/-- The loop does not need more turns than that. -/
theorem read_tokens_fuel (h : turns vars stream < fuel) :
    readTokens args limit (fuel + 1) vars stream = readTokens args limit fuel vars stream := by
  induction fuel generalizing vars stream with
  | zero => exact absurd h (Nat.not_lt_zero _)
  | succ fuel ih =>
      conv_lhs => rw [readTokens]
      conv_rhs => rw [readTokens]
      cases hfirst : vars.getToken args stream with
      | none => rfl
      | some first =>
          obtain ⟨vars', stream'⟩ := first
          cases hsecond : ({ vars' with key := vars'.token } : Variables).getToken args stream' with
          | none => simp only [hsecond]
          | some second =>
              obtain ⟨vars'', stream''⟩ := second
              -- one of the two turns takes a token, or the key was there before
              have hleft : (stream''.getD []).length < fuel := by
                unfold turns at h
                have hone := get_token_length hfirst
                have htwo := get_token_length hsecond
                simp only at hone htwo
                rcases hone with ⟨rfl, hkey⟩ | hone
                · rw [if_neg hkey] at h
                  rcases htwo with ⟨rfl, -⟩ | htwo <;> omega
                · rcases htwo with ⟨rfl, -⟩ | htwo <;> omega
              have hturns (other : Variables) (hkey : other.key = []) (rest : Option Bytes)
                  (hrest : (rest.getD []).length ≤ (stream''.getD []).length) :
                  turns other rest < fuel := by
                rw [turns, if_pos hkey]
                omega
              simp only [hsecond]
              split
              · exact ih (hturns _ rfl _ (Nat.le_refl _))
              · split
                · exact ih (hturns _ rfl _ (Nat.le_refl _))
                · split
                  · rfl
                  · exact ih (hturns _ rfl _ (behind_block_length _ _))

/-- What is kept from one line to the next. -/
def Variables.lineState (vars : Variables) : LineState :=
  ⟨vars.kvMap, vars.key, vars.value⟩

/-- Without binary values the loop reads pairs of tokens. -/
theorem read_tokens_of_no_data (hdata : ∀ key, args.dataMap key = none)
    (h : (tokensLeft args.delim stream).length < fuel) :
    (readTokens args limit fuel vars stream).lineState =
      readLine vars.lineState (tokensLeft args.delim stream) := by
  have hnot (key : Bytes) : args.isDataKey key = false := by
    rw [Arguments.isDataKey, hdata]
    rfl
  induction fuel generalizing vars stream with
  | zero => exact absurd h (Nat.not_lt_zero _)
  | succ fuel ih =>
      rw [readTokens, get_token_of_not_data (hnot _)]
      have hfirst := next_token_eq args.delim stream
      cases hleft : tokensLeft args.delim stream with
      | nil =>
          rw [hleft] at hfirst
          rw [hfirst]
          rfl
      | cons key tokens =>
          rw [hleft] at hfirst
          obtain ⟨rest, hkey, hrest⟩ := hfirst
          simp only [hkey, Option.map_some, get_token_of_not_data (hnot _)]
          have hsecond := next_token_eq args.delim rest
          rw [hrest] at hsecond
          cases tokens with
          | nil =>
              rw [show nextToken args.delim rest = none from hsecond]
              rfl
          | cons value tokens =>
              obtain ⟨last, hvalue, hlast⟩ := hsecond
              have hlen : (tokensLeft args.delim last).length < fuel := by
                rw [hleft, List.length_cons, List.length_cons] at h
                rw [hlast]
                omega
              simp only [hvalue, Option.map_some, hdata]
              rw [readLine]
              split
              · next hsame =>
                  rw [ih hlen, hlast, if_pos (show hasKey vars.lineState.kvMap key from hsame)]
                  rfl
              · next hnew =>
                  rw [ih hlen, hlast, if_neg (show ¬ hasKey vars.lineState.kvMap key from hnew)]
                  rfl

/-- The arguments of `GS::Peer::handle_packet`: one key has binary values. -/
def dataArguments (heap : Nat → UInt8) : Arguments where
  delim := char '\\'
  lineDelim := 0
  dataMap key := if key = dataKey then some lengthKey else none
  heap _ := heap

theorem is_data_key_iff (heap : Nat → UInt8) (key : Bytes) :
    (dataArguments heap).isDataKey key = true ↔ key = dataKey := by
  simp [Arguments.isDataKey, dataArguments]

/-- The loop with one key for binary values, which it has not read yet or has pushed. -/
theorem read_tokens_of_data (heap : Nat → UInt8) (limit fuel : Nat)
    (kvMap : List (Bytes × Bytes)) (token value : Bytes) (stream : Option Bytes) :
    ({ readTokens (dataArguments heap) limit fuel ⟨kvMap, token, [], value⟩ stream with
        value := [] } : Variables).finish = readFields heap limit fuel kvMap stream := by
  have hline (stream : Option Bytes) :
      getline stream = nextToken (dataArguments heap).delim stream :=
    getline_eq_next_token stream
  have hmap (key : Bytes) : (dataArguments heap).dataMap key =
      if key = dataKey then some lengthKey else none := rfl
  induction fuel generalizing kvMap token value stream with
  | zero => rfl
  | succ fuel ih =>
      rw [readTokens, get_token_of_empty rfl, readFields, hline]
      cases hfirst : nextToken (dataArguments heap).delim stream with
      | none => rfl
      | some first =>
          obtain ⟨key, rest⟩ := first
          simp only [Option.map_some]
          by_cases hkey : key = dataKey
          · subst hkey
            have hdata (vars : Variables) (hvars : vars.key = dataKey) :
                vars.getToken (dataArguments heap) rest = some (vars, rest) := by
              rw [Variables.getToken, if_pos ⟨by rw [hvars]; decide,
                by rw [hvars, is_data_key_iff]⟩]
            simp only [hdata, hmap, if_true]
            by_cases hsame : hasKey kvMap dataKey
            · simp only [hsame, if_true, ih]
            · simp only [hsame, Bool.false_eq_true, if_false]
              split
              · rfl
              · rw [addField, if_neg hsame]
                exact ih _ _ _ _
          · have hnot : (dataArguments heap).isDataKey key = false := by
              rw [Bool.eq_false_iff, Ne, is_data_key_iff]
              exact hkey
            rw [get_token_of_not_data hnot, hline, if_neg hkey]
            cases hsecond : nextToken (dataArguments heap).delim rest with
            | none => simp [Variables.finish, List.length_pos_iff]
            | some second =>
                obtain ⟨value', last⟩ := second
                simp only [Option.map_some, hmap, if_neg hkey, addField]
                split
                · exact ih _ _ _ _
                · exact ih _ _ _ _

end Loop

section Cases

variable (heap : Bytes → Nat → UInt8) (kvPair : Bytes)

/-- The number of tokens of a text. -/
theorem getlines_length_le (delim : UInt8) (s : Bytes) :
    (getlines delim s).length ≤ s.length + 1 := by
  have hlen := tokens_length_getlines delim s
  have hsum : (getlines delim s).length ≤ tokensLength (getlines delim s) := by
    unfold tokensLength
    induction getlines delim s with
    | nil => exact Nat.zero_le _
    | cons token tokens ih =>
        rw [List.length_cons, List.map_cons, List.sum_cons]
        omega
  exact hsum.trans hlen

/-- The pairs of tokens as `readPairs` reads them. -/
theorem read_pairs_eq (kvMap : List (Bytes × Bytes)) (value : Bytes) (tokens : List Bytes) :
    readPairs kvMap tokens =
      let state := readLine ⟨kvMap, [], value⟩ tokens
      if state.key.length > 0 then state.kvMap ++ [(state.key, [])] else state.kvMap := by
  induction kvMap, tokens using readPairs.induct generalizing value with
  | case1 kvMap => rfl
  | case2 kvMap key hkey => simp [readPairs, readLine, hkey]
  | case3 kvMap key hkey => simp_all [readPairs, readLine]
  | case4 kvMap key value' tokens hkey ih =>
      simp only [readPairs, readLine, hkey, if_true, ih value']
  | case5 kvMap key value' tokens hkey ih =>
      rw [readPairs, if_neg hkey, ih value']
      simp only [readLine, hkey, Bool.false_eq_true, if_false]

/-- The reader of a text without lines and binary values. -/
theorem construct_default :
    construct ⟨char '\\', 0, fun _ => none, heap⟩ kvPair =
      some ⟨kvReader kvPair, char '\\', 0, fun _ => none⟩ := by
  have hne : ¬ (kvPair = [] ∧ char '\\' = 0) := fun h => absurd h.2 (by decide)
  have hread := @read_tokens_of_no_data ⟨char '\\', 0, fun _ => none, heap⟩
    (fieldText kvPair).length ((fieldText kvPair).length + 2) .start (some (fieldText kvPair))
    (fun _ => rfl) (Nat.lt_succ_of_le (getlines_length_le _ _))
  have hpairs : kvReader kvPair = _ :=
    read_pairs_eq [] [] (getlines (char '\\') (fieldText kvPair))
  rw [construct, if_neg hne, hpairs]
  refine congrArg (fun kvMap => some (KVReader.mk kvMap _ _ _)) ?_
  exact congrArg (fun state : LineState =>
    if state.key.length > 0 then state.kvMap ++ [(state.key, [])] else state.kvMap) hread

/-- The reader of a text of lines. -/
theorem construct_lines (delim lineDelim : UInt8) (hdelim : delim ≠ 0) (hline : lineDelim ≠ 0) :
    construct ⟨delim, lineDelim, fun _ => none, heap⟩ kvPair =
      some ⟨kvReaderLines delim lineDelim kvPair, delim, lineDelim, fun _ => none⟩ := by
  have hne : ¬ (kvPair = [] ∧ delim = 0) := fun h => hdelim h.2
  have hfold (limit : Nat) (lines : List Bytes) (vars : Variables) :
      (lines.foldl (fun vars line =>
          readTokens ⟨delim, lineDelim, fun _ => none, heap⟩ limit (line.length + 2) vars
            (some line)) vars).lineState =
        lines.foldl (fun state line => readLine state (getlines delim line)) vars.lineState := by
    induction lines generalizing vars with
    | nil => rfl
    | cons line lines ih =>
        rw [List.foldl_cons, List.foldl_cons, ih, read_tokens_of_no_data fun _ => rfl]
        · rfl
        · exact Nat.lt_succ_of_le (getlines_length_le _ _)
  have hfinish (vars : Variables) : vars.finish =
      if vars.lineState.key ≠ [] then
        vars.lineState.kvMap ++ [(vars.lineState.key, vars.lineState.value)]
      else vars.lineState.kvMap := by
    unfold Variables.finish Variables.lineState
    by_cases hkey : vars.key = [] <;> simp [hkey, List.length_pos_iff]
  rw [construct, if_neg hne, hfinish, readText, if_neg hline, hfold]
  rfl

/-- The reader of a text with one key for binary values. -/
theorem construct_data (heap : Nat → UInt8) :
    construct (dataArguments heap) kvPair =
      some ⟨dataReader heap kvPair, char '\\', 0, (dataArguments heap).dataMap⟩ := by
  have hne : ¬ (kvPair = [] ∧ (dataArguments heap).delim = 0) := fun h =>
    absurd (show char '\\' = 0 from h.2) (by decide)
  have hfuel : dataReader heap kvPair =
      readFields heap (fieldText kvPair).length ((fieldText kvPair).length + 2) []
        (some (fieldText kvPair)) :=
    (read_fields_fuel heap _ [] (Nat.lt_succ_self _)).symm
  rw [construct, if_neg hne, hfuel, ← read_tokens_of_data heap _ _ [] [] []]
  rfl

end Cases

end KVReader

end OpenSpy
