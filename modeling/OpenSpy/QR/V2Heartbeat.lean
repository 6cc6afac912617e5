import OpenSpy.Core.BufferStorage
import OpenSpy.QR.ServerInfo

/-!
# The version 2 heartbeat

`handle_v2_heartbeat` reads keys with their values and then tables, each behind the number of its
rows: the names of the columns up to an empty string, and the values row by row. `statedTables` is
what it reads of the tables, and `read_tables_eq` says that it stores just that. A table has as many
values as its count says, be they there or not: `cells_within_packet_iff`.

The buffer is a `Storage`, as strings may be read beyond its end. There is no answer where a read
leaves the memory.
-/

namespace OpenSpy.QR

open Bytes Commands MultiMap

/-- `PACKET_HEARTBEAT`. -/
def packetHeartbeat : UInt8 := 0x03

/-- `REQUEST_KEY_LEN`. -/
def requestKeyLen : Nat := 4

/-- The memory that a buffer has not read yet. -/
def memoryLeft (buffer : Storage) : Nat :=
  buffer.memory.length - buffer.readCursor

section Progress

variable {buffer next : Storage} {ret : Bytes}

/-- A string that is read lies in the memory. -/
theorem read_nts_memory (h : buffer.readNTS = some (ret, next)) :
    memoryLeft next ≤ memoryLeft buffer ∧ (ret ≠ [] → memoryLeft next < memoryLeft buffer) := by
  unfold Storage.readNTS at h
  by_cases hnone : buffer.readRemaining < 1
  · rw [if_pos hnone] at h
    obtain ⟨rfl, rfl⟩ := Prod.mk.inj (Option.some.inj h)
    exact ⟨Nat.le_refl _, fun hne => absurd rfl hne⟩
  · by_cases hnul : 0 ∈ buffer.memory.drop buffer.readCursor
    · simp only [if_neg hnone, if_pos hnul, Option.some.injEq, Prod.mk.injEq] at h
      obtain ⟨-, rfl⟩ := h
      have hlt : buffer.readCursor < buffer.memory.length := by
        by_contra hle
        rw [List.drop_eq_nil_of_le (Nat.le_of_not_lt hle)] at hnul
        exact absurd hnul List.not_mem_nil
      unfold memoryLeft Storage.incReadCursor
      dsimp only
      omega
    · simp only [if_neg hnone, if_neg hnul, reduceCtorEq] at h

end Progress

/-- `num_values = htons(buffer.ReadShort())`. There is no answer if the memory ends in front of the
two bytes. -/
def readNumValues (buffer : Storage) : Option (Nat × Storage) :=
  if buffer.readRemaining < 2 ∨ buffer.readCursor + 2 ≤ buffer.memory.length then
    some (htons buffer.readShort.1.toNat, buffer.readShort.2)
  else none

/-- A number other than 0 lies in the memory. -/
theorem read_num_values_memory {buffer next : Storage} {numValues : Nat}
    (h : readNumValues buffer = some (numValues, next)) (hne : numValues ≠ 0) :
    memoryLeft next < memoryLeft buffer := by
  unfold readNumValues at h
  unfold Storage.readShort Storage.readNumber Storage.readFixed at h
  by_cases hshort : buffer.readRemaining < 2
  · simp only [hshort, true_or, if_true, Option.some.injEq, Prod.mk.injEq] at h
    exact absurd h.1.symm hne
  · by_cases hfits : buffer.readCursor + 2 ≤ buffer.memory.length
    · simp only [hshort, hfits, or_true, if_true, if_false, Option.some.injEq, Prod.mk.injEq] at h
      obtain ⟨-, rfl⟩ := h
      unfold memoryLeft Storage.incReadCursor
      dsimp only
      omega
    · simp [hshort, hfits] at h

/-- The loop over the keys, with a turn for the key and one for its value. `value` is empty whenever
a key is read. -/
def readKeys (keys : List (Bytes × Bytes)) (buffer : Storage) :
    Option (List (Bytes × Bytes) × Storage) :=
  match _ : buffer.readNTS with
  | none => none
  | some (key, behindKey) =>
      if key = [] then some (keys, behindKey)
      else
        match _ : behindKey.readNTS with
        | none => none
        | some (value, behindValue) =>
            readKeys (if value ≠ [] ∧ key ∉ keys.map Prod.fst then keys ++ [(key, value)] else keys)
              behindValue
termination_by memoryLeft buffer
decreasing_by
  have hlt := (read_nts_memory ‹buffer.readNTS = some (key, behindKey)›).2 ‹_›
  have hle := (read_nts_memory ‹behindKey.readNTS = some (value, behindValue)›).1
  omega

/-- `while(buffer.readRemaining() && (x = buffer.ReadNTS()).length() > 0)`. -/
def readNames (buffer : Storage) : Option (List Bytes × Storage) :=
  if buffer.readRemaining = 0 then some ([], buffer)
  else
    match _ : buffer.readNTS with
    | none => none
    | some (x, behind) =>
        if x = [] then some ([], behind)
        else (readNames behind).map fun (nameValueList, rest) => (x :: nameValueList, rest)
termination_by memoryLeft buffer
decreasing_by exact (read_nts_memory ‹buffer.readNTS = some (x, behind)›).2 ‹_›

section Turns

/-- A turn of the loop over the keys. -/
theorem read_keys_step (keys : List (Bytes × Bytes)) (buffer : Storage) :
    readKeys keys buffer = buffer.readNTS.bind fun (key, behindKey) =>
      if key = [] then some (keys, behindKey)
      else behindKey.readNTS.bind fun (value, behindValue) =>
        readKeys (if value ≠ [] ∧ key ∉ keys.map Prod.fst then keys ++ [(key, value)] else keys)
          behindValue := by
  rw [readKeys]
  split
  · next hkey => rw [hkey, Option.bind_none]
  · next hkey =>
      rw [hkey, Option.bind_some]
      refine if_congr Iff.rfl rfl ?_
      split
      · next hvalue => rw [hvalue, Option.bind_none]
      · next hvalue => rw [hvalue, Option.bind_some]

/-- A turn of the loop over the names. -/
theorem read_names_step (buffer : Storage) :
    readNames buffer =
      if buffer.readRemaining = 0 then some ([], buffer)
      else buffer.readNTS.bind fun (x, behind) =>
        if x = [] then some ([], behind)
        else (readNames behind).map fun (nameValueList, rest) => (x :: nameValueList, rest) := by
  rw [readNames]
  refine if_congr Iff.rfl rfl ?_
  split
  · next hread => rw [hread, Option.bind_none]
  · next hread => rw [hread, Option.bind_some]

end Turns

/-- A value of a column. -/
def ServerInfo.store (info : ServerInfo) (name : Bytes) (player : Nat) (x : Bytes) : ServerInfo :=
  if isTeamString name then { info with teamKeys := put name player x info.teamKeys }
  else { info with playerKeys := put name player x info.playerKeys }

/-- `while(num_values_t--)`. -/
def readValues (nameValueList : List Bytes) (numKeys : Nat) :
    Nat → Nat → Nat → ServerInfo → Storage → Option (ServerInfo × Storage)
  | 0, _, _, info, buffer => some (info, buffer)
  | numValuesT + 1, i, player, info, buffer => do
      let name ← nameValueList[i]?
      let (x, buffer) ← buffer.readNTS
      let info := info.store name player x
      if i + 1 ≥ numKeys then readValues nameValueList numKeys numValuesT 0 (player + 1) info buffer
      else readValues nameValueList numKeys numValuesT (i + 1) player info buffer

/-- The names of a table lie in the memory. -/
theorem read_names_memory {buffer next : Storage} {nameValueList : List Bytes}
    (h : readNames buffer = some (nameValueList, next)) :
    memoryLeft next ≤ memoryLeft buffer := by
  fun_induction readNames buffer generalizing nameValueList with
  | case1 buffer hnone =>
      obtain ⟨-, rfl⟩ := Prod.mk.inj (Option.some.inj h)
      exact Nat.le_refl _
  | case2 buffer hsome hread => cases h
  | case3 buffer hsome behind hread =>
      obtain ⟨-, rfl⟩ := Prod.mk.inj (Option.some.inj h)
      exact (read_nts_memory hread).1
  | case4 buffer hsome x behind hread hx ih =>
      obtain ⟨⟨names, rest⟩, hnames, heq⟩ := Option.map_eq_some_iff.mp h
      obtain ⟨-, rfl⟩ := Prod.mk.inj heq
      exact (ih hnames).trans (read_nts_memory hread).1

/-- The values of a table lie in the memory. -/
theorem read_values_memory {nameValueList : List Bytes} {numKeys numValuesT i player : Nat}
    {info stored : ServerInfo} {buffer next : Storage}
    (h : readValues nameValueList numKeys numValuesT i player info buffer = some (stored, next)) :
    memoryLeft next ≤ memoryLeft buffer := by
  induction numValuesT generalizing i player info buffer with
  | zero =>
      obtain ⟨-, rfl⟩ := Prod.mk.inj (Option.some.inj h)
      exact Nat.le_refl _
  | succ numValuesT ih =>
      obtain ⟨name, -, h⟩ := Option.bind_eq_some_iff.mp h
      obtain ⟨⟨x, behind⟩, hread, h⟩ := Option.bind_eq_some_iff.mp h
      refine le_trans ?_ (read_nts_memory hread).1
      dsimp only at h
      split at h
      · exact ih h
      · exact ih h

/-- `while((num_values = htons(buffer.ReadShort())))`. The number of keys and of values are
`uint32_t`. -/
def readTables (info : ServerInfo) (buffer : Storage) : Option ServerInfo :=
  match _ : readNumValues buffer with
  | none => none
  | some (numValues, behindNumber) =>
      if numValues = 0 then some info
      else if behindNumber.readRemaining ≤ 3 then some info
      else
        match _ : readNames behindNumber with
        | none => none
        | some (nameValueList, behindNames) =>
            let numKeys := nameValueList.length % 2 ^ 32
            match _ : readValues nameValueList numKeys (numValues * numKeys % 2 ^ 32) 0 0 info
                behindNames with
            | none => none
            | some (info, behindValues) => readTables info behindValues
termination_by memoryLeft buffer
decreasing_by
  have hnumber := read_num_values_memory ‹readNumValues buffer = some (numValues, behindNumber)› ‹_›
  have hnames := read_names_memory ‹readNames behindNumber = some (nameValueList, behindNames)›
  have hvalues := read_values_memory ‹_›
  omega

/-- `Driver::handle_v2_heartbeat`: the request that it adds. -/
def handleV2Heartbeat (fromAddress : Address) (instanceKey : Bytes) (buffer : Storage) :
    Option PushRequest := do
  let (keys, buffer) ← readKeys [] buffer
  let server ← readTables { ServerInfo.ofAddress fromAddress with keys := keys } buffer
  pure ⟨fromAddress, LittleEndian.toNat instanceKey, server, 2⟩

/-- The buffer that `on_udp_read` fills with a packet. -/
def receivedBuffer (behind packet : Bytes) : Storage where
  memory := packet ++ behind
  allocSize := packet.length + behind.length
  pointerOwner := true
  readCursor := 0
  writeCursor := packet.length
  writeCursorLast := 0

/-- `Driver::handle_v2_packet`, for a heartbeat. -/
def handleV2Packet (fromAddress : Address) (behind packet : Bytes) : Option (Option PushRequest) :=
  let (type, buffer) := (receivedBuffer behind packet).readByte
  if buffer.readRemaining < requestKeyLen then some none
  else
    let (instanceKey, buffer) := buffer.readBuffer (List.replicate requestKeyLen 0)
    if type = packetHeartbeat then
      (handleV2Heartbeat fromAddress instanceKey buffer).map some
    else some none

/-- So many strings. -/
def readStrings : Nat → Storage → Option (List Bytes × Storage)
  | 0, buffer => some ([], buffer)
  | n + 1, buffer => do
      let (x, buffer) ← buffer.readNTS
      let (rest, buffer) ← readStrings n buffer
      pure (x :: rest, buffer)

/-- A table as a packet states it: the names of the columns, and as many values as its numbers of
rows and names make. -/
structure StatedTable where
  columns : List Bytes
  values : List Bytes
  deriving DecidableEq

/-- The value at a position of a table. -/
def putAt (columns : List Bytes) (position : Nat) (x : Bytes) : Put Bytes Bytes :=
  ⟨columns.getD (position % columns.length) [], position / columns.length, x⟩

/-- The values of a table with their columns and rows. -/
def StatedTable.puts (table : StatedTable) : List (Put Bytes Bytes) :=
  table.values.mapIdx (putAt table.columns)

theorem read_strings_memory {n : Nat} {buffer next : Storage} {strings : List Bytes}
    (h : readStrings n buffer = some (strings, next)) :
    memoryLeft next ≤ memoryLeft buffer := by
  induction n generalizing buffer strings with
  | zero =>
      obtain ⟨-, rfl⟩ := Prod.mk.inj (Option.some.inj h)
      exact Nat.le_refl _
  | succ n ih =>
      obtain ⟨⟨x, behind⟩, hread, h⟩ := Option.bind_eq_some_iff.mp h
      obtain ⟨⟨strings', behind'⟩, hstrings, h⟩ := Option.bind_eq_some_iff.mp h
      obtain ⟨-, rfl⟩ := Prod.mk.inj (Option.some.inj h)
      exact (ih hstrings).trans (read_nts_memory hread).1

/-- The tables that are read. -/
def statedTables (buffer : Storage) : Option (List StatedTable) :=
  match _ : readNumValues buffer with
  | none => none
  | some (numValues, behindNumber) =>
      if numValues = 0 then some []
      else if behindNumber.readRemaining ≤ 3 then some []
      else
        match _ : readNames behindNumber with
        | none => none
        | some (nameValueList, behindNames) =>
            let columns := nameValueList.take (nameValueList.length % 2 ^ 32)
            match _ : readStrings (numValues * columns.length % 2 ^ 32) behindNames with
            | none => none
            | some (values, behindValues) =>
                (statedTables behindValues).map fun tables => ⟨columns, values⟩ :: tables
termination_by memoryLeft buffer
decreasing_by
  have hnumber := read_num_values_memory ‹readNumValues buffer = some (numValues, behindNumber)› ‹_›
  have hnames := read_names_memory ‹readNames behindNumber = some (nameValueList, behindNames)›
  have hvalues := read_strings_memory ‹_›
  omega

/-- The tables of a packet. -/
def packetTables (behind packet : Bytes) : Option (List StatedTable) :=
  let (type, buffer) := (receivedBuffer behind packet).readByte
  if buffer.readRemaining < requestKeyLen ∨ type ≠ packetHeartbeat then some []
  else do
    let (_, buffer) ← readKeys [] (buffer.readBuffer (List.replicate requestKeyLen 0)).2
    statedTables buffer

/-- The values of tables, stored one after the other. -/
def ServerInfo.storeAll (info : ServerInfo) (puts : List (Put Bytes Bytes)) : ServerInfo :=
  puts.foldl (fun info p => info.store p.key p.row p.value) info

section Stored

/-- The values of a table are stored where they belong. `i` and `player` are the place of the next
one. -/
theorem read_values_eq {nameValueList : List Bytes} {numKeys i : Nat}
    (hkeys : numKeys ≤ nameValueList.length) (hi : i < numKeys) (numValuesT player : Nat)
    (info : ServerInfo) (buffer : Storage) :
    readValues nameValueList numKeys numValuesT i player info buffer =
      (readStrings numValuesT buffer).map fun (values, rest) =>
        (info.storeAll (values.mapIdx fun k =>
          putAt (nameValueList.take numKeys) (player * numKeys + i + k)), rest) := by
  induction numValuesT generalizing i player info buffer with
  | zero => rfl
  | succ numValuesT ih =>
      have hcolumns : (nameValueList.take numKeys).length = numKeys := List.length_take_of_le hkeys
      have hname : nameValueList[i]? = some (nameValueList.getD i []) := by
        rw [List.getD_eq_getElem?_getD, List.getElem?_eq_getElem (hi.trans_le hkeys)]
        rfl
      have hput (x : Bytes) : putAt (nameValueList.take numKeys) (player * numKeys + i + 0) x =
          ⟨nameValueList.getD i [], player, x⟩ := by
        rw [putAt, hcolumns, Nat.add_zero, Nat.mul_comm, Nat.mul_add_mod, Nat.mod_eq_of_lt hi,
          Nat.mul_add_div (by omega), Nat.div_eq_of_lt hi, Nat.add_zero,
          List.getD_eq_getElem?_getD, List.getD_eq_getElem?_getD, List.getElem?_take_of_lt hi]
      rw [readValues, readStrings, hname]
      cases hread : buffer.readNTS with
      | none => rfl
      | some read =>
          obtain ⟨x, behind⟩ := read
          -- the place of the next value, be it in this row or in the next one
          have hrest (i' player' : Nat) (hi' : i' < numKeys)
              (hplace : player' * numKeys + i' = player * numKeys + i + 1) :
              readValues nameValueList numKeys numValuesT i' player'
                  (info.store (nameValueList.getD i []) player x) behind =
                ((readStrings numValuesT behind).bind fun (rest, next) =>
                  some (x :: rest, next)).map fun (values, rest) =>
                    (info.storeAll (values.mapIdx fun k =>
                      putAt (nameValueList.take numKeys) (player * numKeys + i + k)), rest) := by
            have hshift :
                (fun k => putAt (nameValueList.take numKeys) (player' * numKeys + i' + k)) =
                  fun k => putAt (nameValueList.take numKeys) (player * numKeys + i + (k + 1)) := by
              funext k
              congr 1
              omega
            rw [ih hi', hshift]
            cases readStrings numValuesT behind with
            | none => rfl
            | some rest =>
                obtain ⟨values, next⟩ := rest
                show some (_, next) = some (_, next)
                rw [List.mapIdx_cons, hput]
                rfl
          simp only [Option.bind_eq_bind, Option.bind_some]
          split
          · next hlast =>
              refine hrest 0 (player + 1) (by omega) ?_
              rw [Nat.succ_mul]
              omega
          · next hmore => exact hrest (i + 1) player (by omega) rfl

/-- The read of a table without its name list is the read of its strings. -/
theorem read_table_eq (nameValueList : List Bytes) (numValues : Nat) (info : ServerInfo)
    (buffer : Storage) :
    let numKeys := nameValueList.length % 2 ^ 32
    let columns := nameValueList.take numKeys
    readValues nameValueList numKeys (numValues * numKeys % 2 ^ 32) 0 0 info buffer =
      (readStrings (numValues * columns.length % 2 ^ 32) buffer).map fun (values, rest) =>
        (info.storeAll (StatedTable.puts ⟨columns, values⟩), rest) := by
  intro numKeys columns
  have hkeys : numKeys ≤ nameValueList.length := Nat.mod_le _ _
  have hcolumns : columns.length = numKeys := List.length_take_of_le hkeys
  rw [hcolumns]
  by_cases hzero : numKeys = 0
  · rw [hzero, Nat.mul_zero, Nat.zero_mod]
    rfl
  · rw [read_values_eq hkeys (by omega)]
    have hstart : (fun k => putAt columns (0 * numKeys + 0 + k)) = putAt columns := by
      funext k
      congr 1
      omega
    rw [hstart]
    rfl

/-- A turn of the loop over the tables. -/
theorem stated_tables_step (buffer : Storage) :
    statedTables buffer = (readNumValues buffer).bind fun (numValues, behindNumber) =>
      if numValues = 0 then some []
      else if behindNumber.readRemaining ≤ 3 then some []
      else (readNames behindNumber).bind fun (nameValueList, behindNames) =>
        let columns := nameValueList.take (nameValueList.length % 2 ^ 32)
        (readStrings (numValues * columns.length % 2 ^ 32) behindNames).bind
          fun (values, behindValues) =>
            (statedTables behindValues).map fun tables => ⟨columns, values⟩ :: tables := by
  rw [statedTables]
  split
  · next hnumber => rw [hnumber, Option.bind_none]
  · next hnumber =>
      rw [hnumber, Option.bind_some]
      refine if_congr Iff.rfl rfl (if_congr Iff.rfl rfl ?_)
      split
      · next hnames => rw [hnames, Option.bind_none]
      · next hnames =>
          rw [hnames, Option.bind_some]
          dsimp only
          split
          · next hvalues => rw [hvalues, Option.bind_none]
          · next hvalues => rw [hvalues, Option.bind_some]

/-- The handler stores the tables that it reads, and nothing else. -/
theorem read_tables_eq (info : ServerInfo) (buffer : Storage) :
    readTables info buffer =
      (statedTables buffer).map fun tables => info.storeAll (tables.flatMap StatedTable.puts) := by
  fun_induction readTables info buffer with
  | case1 info buffer hnumber =>
      rw [stated_tables_step, hnumber]
      rfl
  | case2 info buffer next hnumber =>
      rw [stated_tables_step, hnumber]
      rfl
  | case3 info buffer numValues next hnumber hzero hshort =>
      rw [stated_tables_step, hnumber, Option.bind_some]
      dsimp only
      rw [if_neg hzero, if_pos hshort]
      rfl
  | case4 info buffer numValues next hnumber hzero hshort hnames =>
      rw [stated_tables_step, hnumber, Option.bind_some]
      dsimp only
      rw [if_neg hzero, if_neg hshort, hnames]
      rfl
  | case5 info buffer numValues next hnumber hzero hshort names behindNames hnames numKeys
      hvalues =>
      rw [read_table_eq, Option.map_eq_none_iff] at hvalues
      rw [stated_tables_step, hnumber, Option.bind_some]
      dsimp only
      rw [if_neg hzero, if_neg hshort, hnames, Option.bind_some]
      dsimp only
      rw [hvalues]
      rfl
  | case6 info buffer numValues next hnumber hzero hshort names behindNames hnames numKeys stored
      behindValues hvalues ih =>
      rw [read_table_eq] at hvalues
      obtain ⟨⟨values, rest⟩, hstrings, heq⟩ := Option.map_eq_some_iff.mp hvalues
      obtain ⟨rfl, rfl⟩ := Prod.mk.inj heq
      rw [ih, stated_tables_step buffer, hnumber, Option.bind_some]
      dsimp only
      rw [if_neg hzero, if_neg hshort, hnames, Option.bind_some]
      dsimp only
      rw [hstrings, Option.bind_some, Option.map_map]
      congr 1
      funext tables
      rw [Function.comp_apply, List.flatMap_cons, ServerInfo.storeAll, ServerInfo.storeAll,
        ServerInfo.storeAll, List.foldl_append]

/-- The two maps get the values of their own columns. -/
theorem store_all_eq (info : ServerInfo) (puts : List (Put Bytes Bytes)) :
    info.storeAll puts =
      { info with
        playerKeys := (puts.filter fun p => !isTeamString p.key).foldl
          (fun map p => put p.key p.row p.value map) info.playerKeys
        teamKeys := (puts.filter fun p => isTeamString p.key).foldl
          (fun map p => put p.key p.row p.value map) info.teamKeys } := by
  induction puts generalizing info with
  | nil => rfl
  | cons p puts ih =>
      rw [ServerInfo.storeAll, List.foldl_cons]
      refine (ih _).trans ?_
      by_cases hteam : isTeamString p.key = true
      · simp [ServerInfo.store, hteam]
      · simp [ServerInfo.store, hteam]

/-- Each row of a table follows the one before it. -/
theorem table_follows (table : StatedTable) : AtEvery Follows table.puts := by
  rw [at_every_iff]
  intro i hi
  obtain ⟨columns, values⟩ := table
  have hvalues : i < values.length := by
    simpa [StatedTable.puts] using hi
  rw [Follows, given_is_some_iff]
  by_cases hrow : i / columns.length = 0
  · left
    simpa [StatedTable.puts, putAt] using hrow
  · right
    have hpos : 0 < columns.length := by
      by_contra hzero
      simp [Nat.eq_zero_of_not_pos hzero] at hrow
    have hle : columns.length ≤ i := by
      by_contra hlt
      exact hrow (Nat.div_eq_of_lt (Nat.lt_of_not_le hlt))
    refine List.mem_map.mpr ⟨putAt columns (i - columns.length) values[i - columns.length], ?_, ?_⟩
    · rw [List.mem_take_iff_getElem]
      refine ⟨i - columns.length, by omega, by simp [StatedTable.puts]⟩
    · have hmod : (i - columns.length) % columns.length = i % columns.length :=
        (Nat.mod_eq_sub_mod hle).symm
      have hdiv : (i - columns.length) / columns.length = i / columns.length - 1 := by
        rw [Nat.div_eq_sub_div hpos hle, Nat.add_sub_cancel]
      simp [StatedTable.puts, putAt, hmod, hdiv]

theorem tables_follow (tables : List StatedTable) :
    AtEvery Follows (tables.flatMap StatedTable.puts) := by
  induction tables with
  | nil => exact at_every_nil
  | cons table tables ih => exact follows_append (table_follows table) ih

end Stored

/-- The cells that tables state, each a column and a row of it. -/
def statedCells (tables : List StatedTable) : Finset (Bytes × Nat) :=
  ((tables.flatMap StatedTable.puts).map fun p => (p.key, p.row)).toFinset

/-- The values that a request brings to its two maps of columns. -/
def PushRequest.cells (request : PushRequest) : Nat :=
  total request.server.playerKeys + total request.server.teamKeys

section Cells

/-- There are as many cells as the tables state. -/
theorem store_all_cells (info : ServerInfo) (hplayers : info.playerKeys = [])
    (hteams : info.teamKeys = []) (tables : List StatedTable) :
    let stored := info.storeAll (tables.flatMap StatedTable.puts)
    total stored.playerKeys + total stored.teamKeys = (statedCells tables).card := by
  intro stored
  have hfollow := tables_follow tables
  have hcells (keep : Bytes → Bool) :
      total (putAll ((tables.flatMap StatedTable.puts).filter fun p => keep p.key)) =
        ((statedCells tables).filter fun cell => keep cell.1).card := by
    rw [total_put_all (follows_filter keep hfollow)]
    congr 1
    ext cell
    simp only [statedCells, List.mem_toFinset, List.mem_map, List.mem_filter, Finset.mem_filter]
    grind
  have hplayer := hcells fun name => !isTeamString name
  have hteam := hcells isTeamString
  have hnot : ((statedCells tables).filter fun cell => (!isTeamString cell.1) = true) =
      (statedCells tables).filter fun cell => ¬ isTeamString cell.1 = true :=
    Finset.filter_congr fun cell _ => by simp
  rw [show stored = _ from store_all_eq _ _, hplayers, hteams,
    ← Finset.card_filter_add_card_filter_not (s := statedCells tables)
      (fun cell => isTeamString cell.1 = true), ← hnot, ← hplayer, ← hteam, Nat.add_comm]
  rfl

/-- What a packet brings to the tables is what its own tables state. -/
theorem handle_v2_packet_cells (fromAddress : Address) (behind packet : Bytes) :
    (handleV2Packet fromAddress behind packet).map (·.elim 0 PushRequest.cells) =
      (packetTables behind packet).map fun tables => (statedCells tables).card := by
  unfold handleV2Packet packetTables
  dsimp only
  by_cases hshort : (receivedBuffer behind packet).readByte.2.readRemaining < requestKeyLen
  · rw [if_pos hshort, if_pos (Or.inl hshort)]
    rfl
  · by_cases htype : (receivedBuffer behind packet).readByte.1 = packetHeartbeat
    · rw [if_neg hshort, if_pos htype, if_neg (by tauto), handleV2Heartbeat]
      cases readKeys [] _ with
      | none => rfl
      | some read =>
          obtain ⟨keys, buffer⟩ := read
          simp only [Option.bind_eq_bind, Option.bind_some, read_tables_eq]
          cases statedTables buffer with
          | none => rfl
          | some tables => exact congrArg some (store_all_cells _ rfl rfl tables)
    · rw [if_neg hshort, if_neg htype, if_pos (Or.inr htype)]
      rfl

/-- A heartbeat brings no more cells than its packet has bytes exactly if its tables do not state
more, with the missing values counted, and no read leaves the memory. -/
theorem cells_within_packet_iff (fromAddress : Address) (behind packet : Bytes) :
    (∃ request, handleV2Packet fromAddress behind packet = some request ∧
        ∀ added ∈ request, added.cells ≤ packet.length) ↔
      ∃ tables, packetTables behind packet = some tables ∧
        (statedCells tables).card ≤ packet.length := by
  have hcells := handle_v2_packet_cells fromAddress behind packet
  constructor
  · rintro ⟨request, hrequest, hle⟩
    rw [hrequest, Option.map_some] at hcells
    obtain ⟨tables, htables, heq⟩ := Option.map_eq_some_iff.mp hcells.symm
    refine ⟨tables, htables, ?_⟩
    rw [heq]
    cases request with
    | none => exact Nat.zero_le _
    | some added => exact hle added rfl
  · rintro ⟨tables, htables, hle⟩
    rw [htables, Option.map_some] at hcells
    obtain ⟨request, hrequest, heq⟩ := Option.map_eq_some_iff.mp hcells
    refine ⟨request, hrequest, fun added hadded => ?_⟩
    rw [Option.mem_def.mp hadded] at heq
    exact heq.le.trans hle

/-- Twelve bytes: an instance key, no keys, and sixteen rows of a column `ab` without a value. -/
theorem missing_values_stored :
    ¬ ∀ (fromAddress : Address) (behind packet : Bytes),
      ∃ request, handleV2Packet fromAddress behind packet = some request ∧
        ∀ added ∈ request, added.cells ≤ packet.length := by
  intro h
  obtain ⟨request, hrequest, hle⟩ := h ⟨⟨10, 0, 0, 1⟩, 6500⟩ []
    [0x03, 1, 2, 3, 4, 0, 0, 16, 97, 98, 0, 0]
  have hcells : (handleV2Packet ⟨⟨10, 0, 0, 1⟩, 6500⟩ []
      [0x03, 1, 2, 3, 4, 0, 0, 16, 97, 98, 0, 0]).map (·.map PushRequest.cells) =
        some (some 16) := by
    decide +kernel
  rw [hrequest, Option.map_some, Option.some.injEq] at hcells
  obtain ⟨added, hadded, heq⟩ := Option.map_eq_some_iff.mp hcells
  have hbound := hle added hadded
  rw [heq] at hbound
  exact absurd hbound (by decide)

end Cells

end OpenSpy.QR
