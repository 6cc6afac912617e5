import OpenSpy.Core.Strings

/-!
# Key value texts

`OS::KVReader` reads a text of keys and values that are separated by backslashes, as
`\key\value\key\value`, or one pair to a line, as `key=value`. No caller gives it data keys in a
text of lines.
-/

namespace OpenSpy

open Bytes

/-- `KVReader::cleanup_string`. A `char` has a sign, so nothing is dropped. -/
def cleanupString (input : Bytes) : Bytes :=
  input.filter fun ch => decide (ch.toBitVec.toInt ≤ 127)

/-- `KVReader::HasKey`. -/
def hasKey (kvMap : List (Bytes × Bytes)) (name : Bytes) : Bool :=
  kvMap.any (·.1 == name)

/-- `KVReader::GetValue`. -/
def getValue (kvMap : List (Bytes × Bytes)) (key : Bytes) : Bytes :=
  match kvMap.find? fun pair => pair.1 == key with
  | none => []
  | some pair => pair.2

/-- `KVReader::GetValueInt`. -/
def getValueInt (kvMap : List (Bytes × Bytes)) (key : Bytes) : Int :=
  match kvMap.find? fun pair => pair.1 == key with
  | none => 0
  | some pair => atoi pair.2

/-- The loop of the constructor over the tokens. A key that is there already is passed over, and
the last key may lack its value. -/
def readPairs (kvMap : List (Bytes × Bytes)) : List Bytes → List (Bytes × Bytes)
  | [] => kvMap
  | [key] => if key.length ≠ 0 then kvMap ++ [(key, [])] else kvMap
  | key :: value :: tokens =>
      if hasKey kvMap key then readPairs kvMap tokens
      else readPairs (kvMap ++ [(cleanupString key, cleanupString value)]) tokens

/-- `KVReader::KVReader`: the pairs of a text. -/
def kvReader (kvPair : Bytes) : List (Bytes × Bytes) :=
  readPairs [] (getlines (char '\\')
    (if kvPair.head? = some (char '\\') then kvPair.tail else kvPair))

/-- The variables of the constructor: the pairs, and the last key and value. -/
structure LineState where
  kvMap : List (Bytes × Bytes)
  key : Bytes
  value : Bytes

/-- The loop of the constructor over the tokens of a line. A key without a value is still there
at the next line. -/
def readLine (state : LineState) : List Bytes → LineState
  | [] => state
  | [key] => { state with key := key }
  | key :: value :: tokens =>
      readLine
        { kvMap :=
            if hasKey state.kvMap key then state.kvMap
            else state.kvMap ++ [(cleanupString key, cleanupString value)]
          key := []
          value := value } tokens

/-- `KVReader::KVReader` with a line delimiter. -/
def kvReaderLines (delim lineDelim : UInt8) (kvPair : Bytes) : List (Bytes × Bytes) :=
  let kvPair := if kvPair.head? = some delim then kvPair.tail else kvPair
  let state := (getlines lineDelim kvPair).foldl
    (fun state line => readLine state (getlines delim line)) ⟨[], [], []⟩
  if state.key ≠ [] then state.kvMap ++ [(state.key, state.value)] else state.kvMap

/-- `KVReader::ToString(true)`. -/
def kvValues (kvMap : List (Bytes × Bytes)) : Bytes :=
  kvMap.flatMap fun pair => char '\\' :: pair.2

/-- `KVReader::ToString`, and `MapToKVString`. -/
def kvString (kvMap : List (Bytes × Bytes)) : Bytes :=
  kvMap.flatMap fun pair => char '\\' :: pair.1 ++ char '\\' :: pair.2

/-- `handle_getckey`, `handle_getchankey` and `handle_getkey` ask for the keys of a text. -/
def requestedKeys (kvString : Bytes) : List (Bytes × Bytes) :=
  let names := if kvString.length > 1 ∧ kvString.head? = some (char ':') then kvString.tail
    else kvString
  kvReader ((keyStringToVector names (char '\\')).flatMap fun name =>
    char '\\' :: name ++ ascii "\\stub")

theorem cleanup_string_eq (input : Bytes) : cleanupString input = input := by
  refine List.filter_eq_self.mpr fun ch _ => ?_
  have hlt := BitVec.toInt_lt (x := ch.toBitVec)
  simp only [decide_eq_true_eq]
  omega

section Lines

variable {delim lineDelim : UInt8}

/-- The number of bytes of tokens that are each followed by a delimiter. -/
def tokensLength (tokens : List Bytes) : Nat :=
  (tokens.map fun token => token.length + 1).sum

/-- The number of bytes of the lines of some pairs. -/
def linesLength (pairs : List (Bytes × Bytes)) : Nat :=
  (pairs.map fun pair => pair.1.length + pair.2.length + 2).sum

/-- The number of bytes of a key that has no value yet. -/
def keyLength (key : Bytes) : Nat :=
  if key = [] then 0 else key.length + 1

/-- The number of bytes that a state was read from, at least. -/
def LineState.length (state : LineState) : Nat :=
  linesLength state.kvMap + keyLength state.key

@[simp] theorem tokens_length_cons (token : Bytes) (tokens : List Bytes) :
    tokensLength (token :: tokens) = token.length + 1 + tokensLength tokens := by
  simp [tokensLength]

@[simp] theorem lines_length_concat (pairs : List (Bytes × Bytes)) (pair : Bytes × Bytes) :
    linesLength (pairs ++ [pair]) = linesLength pairs + (pair.1.length + pair.2.length + 2) := by
  simp [linesLength]

theorem key_length_le (key : Bytes) : keyLength key ≤ key.length + 1 := by
  unfold keyLength
  split
  · exact Nat.zero_le _
  · exact Nat.le_refl _

/-- The tokens of a text are not longer than the text. -/
theorem tokens_length_getlines (delim : UInt8) (s : Bytes) :
    tokensLength (getlines delim s) ≤ s.length + 1 := by
  induction s with
  | nil => simp [getlines, tokensLength]
  | cons b rest ih =>
      rw [getlines]
      split
      · simpa [Nat.add_comm] using ih
      · split
        · simp [tokensLength]
        · next token tokens heq =>
            rw [heq, tokens_length_cons] at ih
            rw [tokens_length_cons, List.length_cons, List.length_cons]
            omega

/-- A line that is read adds no more than its tokens. -/
theorem read_line_length (state : LineState) (tokens : List Bytes) :
    (readLine state tokens).length ≤ state.length + tokensLength tokens := by
  induction state, tokens using readLine.induct with
  | case1 state => exact Nat.le_add_right _ _
  | case2 state key =>
      have hkey := key_length_le key
      simp only [readLine, LineState.length, tokens_length_cons]
      omega
  | case3 state key value tokens ih =>
      have hmap : linesLength (if hasKey state.kvMap key then state.kvMap
          else state.kvMap ++ [(cleanupString key, cleanupString value)]) ≤
          linesLength state.kvMap + (key.length + value.length + 2) := by
        split
        · exact Nat.le_add_right _ _
        · rw [lines_length_concat, cleanup_string_eq, cleanup_string_eq]
      have hempty : keyLength [] = 0 := rfl
      simp only [LineState.length, hempty, tokens_length_cons] at ih ⊢
      rw [readLine]
      omega

/-- What is read from lines adds no more than the lines. -/
theorem read_lines_length (delim : UInt8) (state : LineState) (lines : List Bytes) :
    (lines.foldl (fun state line => readLine state (getlines delim line)) state).length ≤
      state.length + tokensLength lines := by
  induction lines generalizing state with
  | nil => exact Nat.le_add_right _ _
  | cons line lines ih =>
      have hline := read_line_length state (getlines delim line)
      have htokens := tokens_length_getlines delim line
      have hrest := ih (readLine state (getlines delim line))
      rw [List.foldl_cons, tokens_length_cons]
      omega

/-- The pairs of a text, and the key of the last one, are not longer than the text. -/
theorem kv_reader_lines_length {text : Bytes} {pairs : List (Bytes × Bytes)}
    {last : Bytes × Bytes} (h : kvReaderLines delim lineDelim text = pairs ++ [last]) :
    linesLength pairs + last.1.length ≤ text.length := by
  unfold kvReaderLines at h
  extract_lets kvPair state at h
  have hpair : kvPair.length ≤ text.length := by
    unfold kvPair
    split
    · rw [List.length_tail]
      omega
    · exact Nat.le_refl _
  have hstate : state.length ≤ kvPair.length + 1 := by
    have hlines := read_lines_length delim ⟨[], [], []⟩ (getlines lineDelim kvPair)
    have htokens := tokens_length_getlines lineDelim kvPair
    have hempty : LineState.length ⟨[], [], []⟩ = 0 := rfl
    unfold state
    omega
  unfold LineState.length at hstate
  split at h
  · next hkey =>
      obtain ⟨rfl, hlast⟩ := List.append_inj' h rfl
      obtain rfl := (List.singleton_inj.mp hlast).symm
      rw [keyLength, if_neg hkey] at hstate
      show linesLength state.kvMap + state.key.length ≤ text.length
      omega
  · rw [h, lines_length_concat] at hstate
    omega

end Lines

end OpenSpy
