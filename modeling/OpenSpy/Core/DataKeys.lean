import OpenSpy.Core.KVReader
import OpenSpy.Library.MachineInt

/-!
# Binary values in key value texts

`OS::KVReader` can be told that the value of a key is binary and that its length is the value of
another key. Such a value is read into a block of memory that `malloc` returns: if the text ends
before it does, the rest of the block stays as it was found, `heap`. `read_fields_data` says what
becomes of the value, and `read_fields_no_data` that nothing depends on the memory without it.
-/

namespace OpenSpy

open Bytes MachineInt

/-- The key with a binary value, and the key of its length: the `data_map` of
`GS::Peer::handle_packet`. -/
def dataKey : Bytes :=
  ascii "data"

def lengthKey : Bytes :=
  ascii "length"

/-- `std::getline(line_ss, token, '\\')` where the stream is good and this is left of its text, or
where it is not good. -/
def getline : Option Bytes → Option (Bytes × Option Bytes)
  | none => none
  | some [] => none
  | some text =>
      let token := text.takeWhile (· ≠ char '\\')
      some (token,
        if char '\\' ∈ text then some (text.drop (token.length + 1))
        -- the token goes to the end of the text, and the stream is not good behind it
        else none)

/-- What `line_ss.read` makes of a block of memory of a size. -/
def blockRead (heap : Nat → UInt8) (size : Nat) (stream : Option Bytes) : Bytes :=
  (List.range size).map fun i => (stream.getD [])[i]?.getD (heap i)

/-- The stream behind such a `read` and `seekg(1, std::ios_base::cur)`, which both fail at the end
of the text. -/
def behindBlock (size : Nat) (stream : Option Bytes) : Option Bytes :=
  if size < (stream.getD []).length then some ((stream.getD []).drop (size + 1)) else none

/-- A pair is added unless its key is there already. -/
def addField (kvMap : List (Bytes × Bytes)) (key value : Bytes) : List (Bytes × Bytes) :=
  if hasKey kvMap key then kvMap else kvMap ++ [(cleanupString key, cleanupString value)]

/-- The loop of the constructor of `KVReader` with a line delimiter of 0. `limit` is the length of
the text. -/
def readFields (heap : Nat → UInt8) (limit : Nat) :
    Nat → List (Bytes × Bytes) → Option Bytes → List (Bytes × Bytes)
  | 0, kvMap, _ => kvMap
  | fuel + 1, kvMap, stream =>
      match getline stream with
      | none => kvMap
      | some (key, stream) =>
          if key = dataKey then
            -- no token is read for its value, also not if the key is there already
            if hasKey kvMap key then readFields heap limit fuel kvMap stream
            else
              let dataLen := sizeT (getValueInt kvMap lengthKey)
              if dataLen > limit then kvMap ++ [(key, [])]
              else
                readFields heap limit fuel (addField kvMap key (blockRead heap dataLen stream))
                  (behindBlock dataLen stream)
          else
            match getline stream with
            | none => if key.length ≠ 0 then kvMap ++ [(key, [])] else kvMap
            | some (value, stream) =>
                readFields heap limit fuel (addField kvMap key value) stream

/-- The text that the constructor reads. -/
def fieldText (kvPair : Bytes) : Bytes :=
  if kvPair.head? = some (char '\\') then kvPair.tail else kvPair

/-- `KVReader::KVReader` with the data key. -/
def dataReader (heap : Nat → UInt8) (kvPair : Bytes) : List (Bytes × Bytes) :=
  readFields heap (fieldText kvPair).length ((fieldText kvPair).length + 1) []
    (some (fieldText kvPair))

/-- The fields before the first data key and the stream behind it, if there is a data key. -/
def findData : Nat → List (Bytes × Bytes) → Option Bytes →
    Option (List (Bytes × Bytes) × Option Bytes)
  | 0, _, _ => none
  | fuel + 1, kvMap, stream =>
      match getline stream with
      | none => none
      | some (key, stream) =>
          if key = dataKey then some (kvMap, stream)
          else
            match getline stream with
            | none => none
            | some (value, stream) =>
                findData fuel (addField kvMap key value) stream

/-- The fields of a text that come before its data key, and what follows the key. -/
def dataField (kvPair : Bytes) : Option (List (Bytes × Bytes) × Bytes) :=
  let text := fieldText kvPair
  (findData (text.length + 1) [] (some text)).map fun (before, stream) => (before, stream.getD [])

section Fields

variable {heap : Nat → UInt8} {limit : Nat}

@[simp] theorem has_key_append (kvMap more : List (Bytes × Bytes)) (name : Bytes) :
    hasKey (kvMap ++ more) name = (hasKey kvMap name || hasKey more name) := by
  simp [hasKey]

/-- A key keeps its value when pairs are added. -/
theorem find_key_of_prefix {kvMap more : List (Bytes × Bytes)} {name : Bytes}
    (hmore : kvMap <+: more) (hkey : hasKey kvMap name) :
    (more.find? fun pair => pair.1 == name) = kvMap.find? fun pair => pair.1 == name := by
  obtain ⟨rest, rfl⟩ := hmore
  have hsome : (kvMap.find? fun pair => pair.1 == name).isSome := by
    rw [List.find?_isSome]
    exact List.any_eq_true.mp hkey
  obtain ⟨pair, hpair⟩ := Option.isSome_iff_exists.mp hsome
  rw [List.find?_append, hpair]
  rfl

theorem get_value_more {kvMap more : List (Bytes × Bytes)} {name : Bytes}
    (hmore : kvMap <+: more) (hkey : hasKey kvMap name) :
    getValue more name = getValue kvMap name := by
  rw [getValue, getValue, find_key_of_prefix hmore hkey]

theorem get_value_int_more {kvMap more : List (Bytes × Bytes)} {name : Bytes}
    (hmore : kvMap <+: more) (hkey : hasKey kvMap name) :
    getValueInt more name = getValueInt kvMap name := by
  rw [getValueInt, getValueInt, find_key_of_prefix hmore hkey]

theorem find_key_none {kvMap : List (Bytes × Bytes)} {name : Bytes}
    (hkey : hasKey kvMap name = false) : (kvMap.find? fun pair => pair.1 == name) = none := by
  rw [List.find?_eq_none]
  simpa [hasKey] using hkey

theorem get_value_of_missing {kvMap : List (Bytes × Bytes)} {name : Bytes}
    (hkey : hasKey kvMap name = false) : getValue kvMap name = [] := by
  rw [getValue, find_key_none hkey]

theorem get_value_int_of_missing {kvMap : List (Bytes × Bytes)} {name : Bytes}
    (hkey : hasKey kvMap name = false) : getValueInt kvMap name = 0 := by
  rw [getValueInt, find_key_none hkey]

/-- A new key has the value that it is added with. -/
theorem get_value_concat {kvMap : List (Bytes × Bytes)} {name : Bytes}
    (hkey : hasKey kvMap name = false) (value : Bytes) :
    getValue (kvMap ++ [(name, value)]) name = value := by
  rw [getValue, List.find?_append, find_key_none hkey]
  simp

theorem prefix_add_field (kvMap : List (Bytes × Bytes)) (key value : Bytes) :
    kvMap <+: addField kvMap key value := by
  unfold addField
  split
  · exact List.prefix_rfl
  · exact List.prefix_append _ _

theorem add_field_new {kvMap : List (Bytes × Bytes)} {key : Bytes}
    (hkey : hasKey kvMap key = false) (value : Bytes) :
    addField kvMap key value = kvMap ++ [(key, value)] := by
  rw [addField, if_neg (by simp [hkey]), cleanup_string_eq, cleanup_string_eq]

/-- Another key is not added. -/
theorem has_key_add_field {kvMap : List (Bytes × Bytes)} {key name : Bytes} (hne : key ≠ name)
    (value : Bytes) : hasKey (addField kvMap key value) name = hasKey kvMap name := by
  unfold addField
  split
  · rfl
  · rw [has_key_append, cleanup_string_eq]
    simp [hasKey, hne]

/-- A token is followed by the rest of the text. -/
theorem getline_suffix {stream : Option Bytes} {token : Bytes × Option Bytes}
    (h : getline stream = some token) : token.2.getD [] <:+ stream.getD [] := by
  rw [getline.eq_def] at h
  split at h
  · cases h
  · cases h
  · next text _ =>
      cases h
      show (if _ then some _ else none : Option Bytes).getD [] <:+ text
      split
      · exact List.drop_suffix _ _
      · exact List.nil_suffix

/-- A token uses up a part of the text. -/
theorem getline_length {stream : Option Bytes} {token : Bytes × Option Bytes}
    (h : getline stream = some token) : (token.2.getD []).length < (stream.getD []).length := by
  rw [getline.eq_def] at h
  split at h
  · cases h
  · cases h
  · next text hne =>
      have hpos : 0 < text.length := List.length_pos_iff.mpr fun heq => hne (by rw [heq])
      cases h
      show ((if _ then some _ else none : Option Bytes).getD []).length < text.length
      split
      · rw [Option.getD_some, List.length_drop]
        omega
      · exact hpos

/-- What is behind a block is not longer than what is in front of it. -/
theorem behind_block_length (size : Nat) (stream : Option Bytes) :
    ((behindBlock size stream).getD []).length ≤ (stream.getD []).length := by
  unfold behindBlock
  split
  · rw [Option.getD_some, List.length_drop]
    omega
  · exact Nat.zero_le _

/-- The loop does not need more rounds than the text has bytes. -/
theorem read_fields_fuel (heap : Nat → UInt8) (limit : Nat) {fuel : Nat}
    (kvMap : List (Bytes × Bytes)) {stream : Option Bytes} (h : (stream.getD []).length < fuel) :
    readFields heap limit (fuel + 1) kvMap stream = readFields heap limit fuel kvMap stream := by
  induction fuel generalizing kvMap stream with
  | zero => exact absurd h (Nat.not_lt_zero _)
  | succ fuel ih =>
      conv_lhs => rw [readFields]
      conv_rhs => rw [readFields]
      cases hline : getline stream with
      | none => rfl
      | some token =>
          have hkey := getline_length hline
          have hblock : ∀ size, ((behindBlock size token.2).getD []).length < fuel := by
            intro size
            have hbehind := behind_block_length size token.2
            omega
          cases hnext : getline token.2 with
          | none =>
              simp only [hnext]
              rw [ih kvMap (by omega), ih _ (hblock _)]
          | some value =>
              have hvalue := getline_length hnext
              simp only [hnext]
              rw [ih kvMap (by omega), ih _ (hblock _), ih _ (by omega)]

/-- What follows the data key is the rest of the text. -/
theorem find_data_suffix {fuel : Nat} {kvMap before : List (Bytes × Bytes)}
    {stream rest : Option Bytes} (h : findData fuel kvMap stream = some (before, rest)) :
    rest.getD [] <:+ stream.getD [] := by
  induction fuel generalizing kvMap stream with
  | zero => simp [findData] at h
  | succ fuel ih =>
      rw [findData] at h
      cases hline : getline stream with
      | none => simp [hline] at h
      | some token =>
          have hkey := getline_suffix hline
          simp only [hline] at h
          split at h
          · obtain ⟨rfl, rfl⟩ := Prod.mk.inj (Option.some.inj h)
            exact hkey
          · cases hnext : getline token.2 with
            | none => simp [hnext] at h
            | some value =>
                simp only [hnext] at h
                exact (ih h).trans ((getline_suffix hnext).trans hkey)

@[simp] theorem block_read_length (heap : Nat → UInt8) (size : Nat) (stream : Option Bytes) :
    (blockRead heap size stream).length = size := by
  simp [blockRead]

/-- A block that the text fills. -/
theorem block_read_inside (heap : Nat → UInt8) {size : Nat} {stream : Option Bytes}
    (h : size ≤ (stream.getD []).length) :
    blockRead heap size stream = (stream.getD []).take size := by
  apply List.ext_getElem
  · simpa using h
  · intro i hi hother
    rw [block_read_length] at hi
    simp [blockRead, List.getElem?_eq_getElem (show i < (stream.getD []).length by omega)]

/-- A block that the text does not fill is not the same for every memory. -/
theorem block_read_beyond {size : Nat} {stream : Option Bytes}
    (h : (stream.getD []).length < size) :
    blockRead (fun _ => 0) size stream ≠ blockRead (fun _ => 1) size stream := by
  intro heq
  have hbyte := congrArg (·[(stream.getD []).length]?) heq
  simp [blockRead, h] at hbyte

/-- The loop adds pairs. -/
theorem read_fields_prefix (heap : Nat → UInt8) (limit fuel : Nat) (kvMap : List (Bytes × Bytes))
    (stream : Option Bytes) : kvMap <+: readFields heap limit fuel kvMap stream := by
  induction fuel generalizing kvMap stream with
  | zero => exact List.prefix_rfl
  | succ fuel ih =>
      rw [readFields]
      split
      · exact List.prefix_rfl
      · split
        · split
          · exact ih _ _
          · extract_lets dataLen
            split
            · exact List.prefix_append _ _
            · exact (prefix_add_field _ _ _).trans (ih _ _)
        · split
          · split
            · exact List.prefix_append _ _
            · exact List.prefix_rfl
          · exact (prefix_add_field _ _ _).trans (ih _ _)

/-- Once the data key is there, the memory does not matter. -/
theorem read_fields_of_has_data (heap heap' : Nat → UInt8) (limit fuel : Nat)
    {kvMap : List (Bytes × Bytes)} (hdata : hasKey kvMap dataKey) (stream : Option Bytes) :
    readFields heap limit fuel kvMap stream = readFields heap' limit fuel kvMap stream := by
  induction fuel generalizing kvMap stream with
  | zero => rfl
  | succ fuel ih =>
      rw [readFields, readFields]
      split
      · rfl
      · next key rest _ =>
          by_cases hkey : key = dataKey
          · subst hkey
            rw [if_pos rfl, if_pos rfl, if_pos hdata, if_pos hdata]
            exact ih hdata rest
          · rw [if_neg hkey, if_neg hkey]
            split
            · rfl
            · next value more _ => exact ih ((has_key_add_field hkey value).trans hdata) more

/-- Without a data key the memory does not matter, and there is no value for it. -/
theorem read_fields_no_data (heap heap' : Nat → UInt8) (limit : Nat) {fuel : Nat}
    {kvMap : List (Bytes × Bytes)} {stream : Option Bytes} (hdata : hasKey kvMap dataKey = false)
    (hfind : findData fuel kvMap stream = none) :
    readFields heap limit fuel kvMap stream = readFields heap' limit fuel kvMap stream ∧
      hasKey (readFields heap limit fuel kvMap stream) dataKey = false := by
  induction fuel generalizing kvMap stream with
  | zero => exact ⟨rfl, hdata⟩
  | succ fuel ih =>
      rw [findData] at hfind
      rw [readFields, readFields]
      cases hline : getline stream with
      | none => exact ⟨rfl, hdata⟩
      | some token =>
          simp only [hline] at hfind ⊢
          by_cases hkey : token.1 = dataKey
          · simp [hkey] at hfind
          · rw [if_neg hkey] at hfind ⊢
            rw [if_neg hkey]
            cases hnext : getline token.2 with
            | none =>
                refine ⟨rfl, ?_⟩
                show hasKey (if _ then _ else _) _ = _
                split
                · rw [has_key_append, hdata]
                  simp [hasKey, hkey]
                · exact hdata
            | some value =>
                simp only [hnext] at hfind
                exact ih ((has_key_add_field hkey value.1).trans hdata) hfind

/-- What becomes of the value of the data key. -/
theorem read_fields_data (limit : Nat) {fuel : Nat} {kvMap before : List (Bytes × Bytes)}
    {stream rest : Option Bytes} (hdata : hasKey kvMap dataKey = false)
    (hfind : findData fuel kvMap stream = some (before, rest)) :
    hasKey before dataKey = false ∧ ∃ fuel', ∀ heap,
      readFields heap limit fuel kvMap stream =
        let dataLen := sizeT (getValueInt before lengthKey)
        if dataLen > limit then before ++ [(dataKey, [])]
        else
          readFields heap limit fuel' (before ++ [(dataKey, blockRead heap dataLen rest)])
            (behindBlock dataLen rest) := by
  induction fuel generalizing kvMap stream with
  | zero => simp [findData] at hfind
  | succ fuel ih =>
      rw [findData] at hfind
      cases hline : getline stream with
      | none => simp [hline] at hfind
      | some token =>
          simp only [hline] at hfind
          by_cases hkey : token.1 = dataKey
          · rw [if_pos hkey] at hfind
            obtain ⟨rfl, rfl⟩ := Prod.mk.inj (Option.some.inj hfind)
            refine ⟨hdata, fuel, fun heap => ?_⟩
            rw [readFields]
            simp only [hline, hkey, if_true, hdata, add_field_new hdata]
            rfl
          · rw [if_neg hkey] at hfind
            cases hnext : getline token.2 with
            | none => simp [hnext] at hfind
            | some value =>
                simp only [hnext] at hfind
                obtain ⟨hbefore, fuel', hrun⟩ :=
                  ih ((has_key_add_field hkey value.1).trans hdata) hfind
                refine ⟨hbefore, fuel', fun heap => ?_⟩
                rw [readFields]
                simp only [hline, hnext, if_neg hkey]
                exact hrun heap

end Fields

section Reader

variable {kvPair rest : Bytes} {before : List (Bytes × Bytes)}

/-- The number of bytes that a text states for its binary value, as a `size_t`. -/
def statedLength (before : List (Bytes × Bytes)) : Nat :=
  sizeT (getValueInt before lengthKey)

theorem data_reader_no_data (hfield : dataField kvPair = none) (heap heap' : Nat → UInt8) :
    dataReader heap kvPair = dataReader heap' kvPair ∧
      hasKey (dataReader heap kvPair) dataKey = false :=
  read_fields_no_data heap heap' _ rfl (Option.map_eq_none_iff.mp hfield)

theorem field_text_suffix (kvPair : Bytes) : fieldText kvPair <:+ kvPair := by
  unfold fieldText
  split
  · exact List.tail_suffix kvPair
  · exact List.suffix_rfl

/-- What follows the data key is a part of the text. -/
theorem data_field_suffix (hfield : dataField kvPair = some (before, rest)) :
    rest <:+ fieldText kvPair := by
  obtain ⟨⟨_, stream⟩, hfind, heq⟩ := Option.map_eq_some_iff.mp hfield
  obtain ⟨rfl, rfl⟩ := Prod.mk.inj heq
  exact find_data_suffix hfind

/-- The fields of a text that has a data key. -/
theorem data_reader_eq (hfield : dataField kvPair = some (before, rest)) :
    hasKey before dataKey = false ∧ ∃ fuel stream, ∀ heap,
      dataReader heap kvPair =
        if statedLength before > (fieldText kvPair).length then before ++ [(dataKey, [])]
        else
          readFields heap (fieldText kvPair).length fuel
            (before ++ [(dataKey, blockRead heap (statedLength before) (some rest))]) stream := by
  obtain ⟨⟨_, stream⟩, hfind, heq⟩ := Option.map_eq_some_iff.mp hfield
  obtain ⟨rfl, rfl⟩ := Prod.mk.inj heq
  obtain ⟨hbefore, fuel, hread⟩ := read_fields_data (fieldText kvPair).length rfl hfind
  exact ⟨hbefore, fuel, _, hread⟩

/-- A text that states more bytes than it has is not read any further. -/
theorem data_reader_too_long (hfield : dataField kvPair = some (before, rest))
    (hlong : (fieldText kvPair).length < statedLength before) (heap : Nat → UInt8) :
    dataReader heap kvPair = before ++ [(dataKey, [])] := by
  obtain ⟨-, fuel, stream, hread⟩ := data_reader_eq hfield
  rw [hread heap, if_pos hlong]

/-- Otherwise the value has as many bytes as are stated, from the text and then from the memory. -/
theorem data_reader_value (hfield : dataField kvPair = some (before, rest))
    (hfits : statedLength before ≤ (fieldText kvPair).length) (heap : Nat → UInt8) :
    before <+: dataReader heap kvPair ∧
      getValue (dataReader heap kvPair) dataKey =
        blockRead heap (statedLength before) (some rest) := by
  obtain ⟨hbefore, fuel, stream, hread⟩ := data_reader_eq hfield
  have hmore := read_fields_prefix heap (fieldText kvPair).length fuel
    (before ++ [(dataKey, blockRead heap (statedLength before) (some rest))]) stream
  rw [hread heap, if_neg (by omega)]
  refine ⟨(List.prefix_append _ _).trans hmore, ?_⟩
  rw [get_value_more hmore (by simp [hasKey]), get_value_concat hbefore]

/-- The memory does not matter if the text has the bytes. -/
theorem data_reader_inside (hfield : dataField kvPair = some (before, rest))
    (hinside : statedLength before ≤ rest.length) (heap heap' : Nat → UInt8) :
    dataReader heap kvPair = dataReader heap' kvPair := by
  obtain ⟨-, fuel, stream, hread⟩ := data_reader_eq hfield
  rw [hread heap, hread heap', block_read_inside heap hinside, block_read_inside heap' hinside]
  split
  · rfl
  · exact read_fields_of_has_data heap heap' _ fuel (by simp [hasKey]) stream

end Reader

end OpenSpy
