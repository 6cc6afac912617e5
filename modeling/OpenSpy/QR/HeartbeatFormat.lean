import OpenSpy.QR.V2Heartbeat

/-!
# A heartbeat of version 2 as a client writes it

A `Heartbeat` has keys with their values and two tables. `Heartbeat.packet` is its packet: strings
with their NULs, an empty string behind the keys and behind the names of each table's columns, and
the number of rows in front of the names. `packet_tables_written` says that such a packet states
its own tables, and `heartbeat_read_back` that the server gets the keys and the tables.
-/

namespace OpenSpy.QR

open Bytes Commands MultiMap

/-- A table whose columns are those of teams or those of players. -/
structure KeyTable (team : Bool) where
  names : List Bytes
  rows : List (List Bytes)
  has_names : names ≠ []
  has_rows : rows ≠ []
  distinct : names.Nodup
  named : ∀ name ∈ names, name ≠ [] ∧ 0 ∉ name ∧ ([char '_', char 't'] <:+ name ↔ team = true)
  filled : ∀ row ∈ rows, row.length = names.length ∧ ∀ value ∈ row, 0 ∉ value

/-- The value at a row of a column. -/
def KeyTable.cell {team : Bool} (table : KeyTable team) (name : Bytes) (row : Nat) : Option Bytes :=
  (table.rows[row]?).bind fun values => values[table.names.idxOf name]?

/-- A heartbeat. -/
structure Heartbeat where
  keys : List (Bytes × Bytes)
  players : KeyTable false
  teams : KeyTable true
  distinct : (keys.map Prod.fst).Nodup
  filled : ∀ pair ∈ keys, pair.1 ≠ [] ∧ pair.2 ≠ [] ∧ 0 ∉ pair.1 ∧ 0 ∉ pair.2

/-- Strings with their NULs. -/
def ntStrings (strings : List Bytes) : Bytes :=
  strings.flatMap fun str => str ++ [0]

/-- A table in a packet. -/
def KeyTable.bytes {team : Bool} (table : KeyTable team) : Bytes :=
  .ofNat (table.rows.length / 256) :: .ofNat table.rows.length ::
    (ntStrings table.names ++ 0 :: ntStrings table.rows.flatten)

/-- The packet of a heartbeat. -/
def Heartbeat.packet (heartbeat : Heartbeat) (instanceKey : UInt32) : Bytes :=
  packetHeartbeat :: (LittleEndian.toBytes requestKeyLen instanceKey.toNat ++
    (ntStrings (heartbeat.keys.flatMap fun pair => [pair.1, pair.2]) ++
      0 :: (heartbeat.players.bytes ++ heartbeat.teams.bytes)))

/-- A buffer that has these bytes left to read. -/
structure Reads (buffer : Storage) (rest : Bytes) : Prop where
  ordered : buffer.Ordered
  unread : buffer.view.unread = rest

section Reading

variable {buffer : Storage} {rest : Bytes}

@[simp] theorem nt_strings_cons (str : Bytes) (strings : List Bytes) :
    ntStrings (str :: strings) = str ++ 0 :: ntStrings strings := by
  simp [ntStrings]

theorem Reads.remaining (h : Reads buffer rest) : buffer.readRemaining = rest.length := by
  rw [Storage.read_remaining_eq h.ordered.read, ← h.ordered.unread_length, h.unread]

/-- The read cursor behind some bytes. -/
theorem Reads.skip {bytes : Bytes} (h : Reads buffer (bytes ++ rest)) :
    Reads (buffer.incReadCursor bytes.length) rest := by
  have hlen : bytes.length ≤ buffer.view.unread.length := by
    rw [h.unread, List.length_append]
    exact Nat.le_add_right _ _
  obtain ⟨hordered, hview⟩ := h.ordered.inc_read_cursor hlen
  refine ⟨hordered, ?_⟩
  rw [hview, Buffer.skipRead, h.unread, List.drop_left' rfl]

theorem Reads.nts {str : Bytes} (h : Reads buffer (str ++ 0 :: rest)) (hstr : 0 ∉ str) :
    ∃ next, buffer.readNTS = some (str, next) ∧ Reads next rest := by
  have hskip : Reads buffer ((str ++ [0]) ++ rest) := by
    rwa [List.append_assoc, List.singleton_append]
  refine ⟨_, h.ordered.read_nts hstr h.unread, ?_⟩
  simpa using hskip.skip

/-- A packet has been received. -/
theorem reads_received (behind packet : Bytes) : Reads (receivedBuffer behind packet) packet := by
  refine ⟨⟨Nat.zero_le _, ?_⟩, ?_⟩
  · show packet.length ≤ (packet ++ behind).length
    rw [List.length_append]
    exact Nat.le_add_right _ _
  · show ((packet ++ behind).take packet.length).drop 0 = packet
    rw [List.take_left' rfl, List.drop_zero]

theorem Reads.byte {byte : UInt8} (h : Reads buffer (byte :: rest)) :
    ∃ next, buffer.readByte = (byte, next) ∧ Reads next rest := by
  have hbytes : LittleEndian.toBytes 1 byte.toNat = [byte] := by
    rw [LittleEndian.toBytes, LittleEndian.toBytes, UInt8.ofNat_toNat]
  have hnext : buffer.view.unread = LittleEndian.toBytes 1 byte.toNat ++ rest := by
    rw [h.unread, hbytes, List.singleton_append]
  have hnumber := h.ordered.read_number byte.toNat_lt hnext
  have hskip : Reads buffer ([byte] ++ rest) := h
  refine ⟨buffer.incReadCursor 1, ?_, hskip.skip⟩
  rw [Storage.readByte, hnumber, UInt8.ofNat_toNat]

/-- A number of two bytes, the high one first. -/
theorem Reads.num_values {high low : UInt8} (h : Reads buffer (high :: low :: rest)) :
    ∃ next, readNumValues buffer = some (high.toNat * 256 + low.toNat, next) ∧ Reads next rest := by
  have hhigh := high.toNat_lt
  have hlow := low.toNat_lt
  have hbytes : LittleEndian.toBytes 2 (high.toNat + 256 * low.toNat) = [high, low] := by
    have hrest : (high.toNat + 256 * low.toNat) / 256 = low.toNat := by omega
    have hfirst : UInt8.ofNat (high.toNat + 256 * low.toNat) = high := by
      apply UInt8.toNat_inj.mp
      rw [UInt8.toNat_ofNat']
      omega
    rw [LittleEndian.toBytes, LittleEndian.toBytes, LittleEndian.toBytes, hrest, hfirst,
      UInt8.ofNat_toNat]
  have hnext : buffer.view.unread =
      LittleEndian.toBytes 2 (high.toNat + 256 * low.toNat) ++ rest := by
    rw [h.unread, hbytes, List.cons_append, List.singleton_append]
  have hnumber := h.ordered.read_number (by omega) hnext
  have hskip : Reads buffer ([high, low] ++ rest) := h
  refine ⟨buffer.incReadCursor 2, ?_, hskip.skip⟩
  have hcursor := h.ordered.read
  have hwritten := h.ordered.written
  have hlen := h.ordered.unread_length
  rw [h.unread, List.length_cons, List.length_cons] at hlen
  rw [readNumValues, if_pos (Or.inr (by omega)), Storage.readShort, hnumber]
  have hshort : (UInt16.ofNat (high.toNat + 256 * low.toNat)).toNat =
      high.toNat + 256 * low.toNat := by
    rw [UInt16.toNat_ofNat']
    omega
  have hswap : htons (high.toNat + 256 * low.toNat) = high.toNat * 256 + low.toNat := by
    unfold htons
    omega
  rw [hshort, hswap]

/-- Nothing is left to read. -/
theorem Reads.no_values (h : Reads buffer []) : statedTables buffer = some [] := by
  have hshort : buffer.readRemaining < 2 := by
    rw [h.remaining]
    decide
  have hnumber : readNumValues buffer = some (0, buffer) := by
    rw [readNumValues, if_pos (Or.inl hshort), Storage.readShort, Storage.readNumber,
      Storage.readFixed, if_pos hshort]
    simp [htons]
  rw [stated_tables_step, hnumber]
  rfl

theorem Reads.strings {strings : List Bytes} (h : Reads buffer (ntStrings strings ++ rest))
    (hstrings : ∀ str ∈ strings, 0 ∉ str) :
    ∃ next, readStrings strings.length buffer = some (strings, next) ∧ Reads next rest := by
  induction strings generalizing buffer with
  | nil => exact ⟨buffer, rfl, h⟩
  | cons str strings ih =>
      rw [nt_strings_cons, List.append_assoc, List.cons_append] at h
      obtain ⟨next, hread, hnext⟩ := h.nts (hstrings str List.mem_cons_self)
      obtain ⟨last, hrest, hlast⟩ := ih hnext fun s hs => hstrings s (List.mem_cons_of_mem _ hs)
      refine ⟨last, ?_, hlast⟩
      rw [List.length_cons, readStrings, hread]
      simp [hrest]

theorem Reads.names {names : List Bytes} (h : Reads buffer (ntStrings names ++ 0 :: rest))
    (hnames : ∀ name ∈ names, name ≠ [] ∧ 0 ∉ name) :
    ∃ next, readNames buffer = some (names, next) ∧ Reads next rest := by
  have hsome : buffer.readRemaining ≠ 0 := by
    rw [h.remaining]
    simp
  induction names generalizing buffer with
  | nil =>
      have hempty : Reads buffer ([] ++ 0 :: rest) := h
      obtain ⟨next, hread, hnext⟩ := hempty.nts List.not_mem_nil
      refine ⟨next, ?_, hnext⟩
      rw [read_names_step, if_neg hsome, hread]
      rfl
  | cons name names ih =>
      obtain ⟨hname, hnul⟩ := hnames name List.mem_cons_self
      rw [nt_strings_cons, List.append_assoc, List.cons_append] at h
      obtain ⟨next, hread, hnext⟩ := h.nts hnul
      have hmore : next.readRemaining ≠ 0 := by
        rw [hnext.remaining]
        simp
      obtain ⟨last, hrest, hlast⟩ :=
        ih hnext (fun other hmem => hnames other (List.mem_cons_of_mem _ hmem)) hmore
      refine ⟨last, ?_, hlast⟩
      rw [read_names_step, if_neg hsome, hread, Option.bind_some]
      dsimp only
      rw [if_neg hname, hrest]
      rfl

theorem Reads.keys {keys pairs : List (Bytes × Bytes)}
    (h : Reads buffer (ntStrings (pairs.flatMap fun pair => [pair.1, pair.2]) ++ 0 :: rest))
    (hpairs : ∀ pair ∈ pairs, pair.1 ≠ [] ∧ pair.2 ≠ [] ∧ 0 ∉ pair.1 ∧ 0 ∉ pair.2)
    (hdistinct : ((keys ++ pairs).map Prod.fst).Nodup) :
    ∃ next, readKeys keys buffer = some (keys ++ pairs, next) ∧ Reads next rest := by
  induction pairs generalizing keys buffer with
  | nil =>
      have hempty : Reads buffer ([] ++ 0 :: rest) := h
      obtain ⟨next, hread, hnext⟩ := hempty.nts List.not_mem_nil
      refine ⟨next, ?_, hnext⟩
      rw [read_keys_step, hread, List.append_nil]
      rfl
  | cons pair pairs ih =>
      obtain ⟨key, value⟩ := pair
      obtain ⟨hkey, hvalue, hkeyNul, hvalueNul⟩ := hpairs _ List.mem_cons_self
      rw [List.flatMap_cons, List.cons_append, List.singleton_append, nt_strings_cons,
        nt_strings_cons, List.append_assoc, List.cons_append, List.append_assoc,
        List.cons_append] at h
      obtain ⟨behindKey, hreadKey, hbehindKey⟩ := h.nts hkeyNul
      obtain ⟨behindValue, hreadValue, hbehindValue⟩ := hbehindKey.nts hvalueNul
      have hnew : key ∉ keys.map Prod.fst := by
        rw [List.map_append, List.map_cons] at hdistinct
        exact fun hmem => (List.nodup_append.mp hdistinct).2.2 _ hmem _ List.mem_cons_self rfl
      have happend : keys ++ (key, value) :: pairs = (keys ++ [(key, value)]) ++ pairs :=
        List.append_cons ..
      rw [read_keys_step, hreadKey, Option.bind_some]
      dsimp only
      rw [if_neg hkey, hreadValue, Option.bind_some]
      dsimp only
      rw [if_pos ⟨hvalue, hnew⟩]
      rw [happend] at hdistinct ⊢
      exact ih hbehindValue (fun other hmem => hpairs other (List.mem_cons_of_mem _ hmem)) hdistinct

end Reading

section Tables

theorem le_nt_strings_length (strings : List Bytes) :
    strings.length ≤ (ntStrings strings).length := by
  induction strings with
  | nil => exact Nat.le_refl _
  | cons str strings ih =>
      rw [nt_strings_cons, List.length_append, List.length_cons, List.length_cons]
      omega

/-- Rows of one length, one after the other. -/
theorem flatten_length {rows : List (List Bytes)} {width : Nat}
    (h : ∀ row ∈ rows, row.length = width) : rows.flatten.length = rows.length * width := by
  induction rows with
  | nil => simp
  | cons row rows ih =>
      rw [List.flatten_cons, List.length_append, h row List.mem_cons_self,
        ih fun other hmem => h other (List.mem_cons_of_mem _ hmem), List.length_cons, Nat.succ_mul,
        Nat.add_comm]

theorem flatten_cell {rows : List (List Bytes)} {width col : Nat}
    (h : ∀ row ∈ rows, row.length = width) (hcol : col < width) (row : Nat) :
    rows.flatten[row * width + col]? = (rows[row]?).bind (·[col]?) := by
  induction rows generalizing row with
  | nil => simp
  | cons first rows ih =>
      have hfirst := h first List.mem_cons_self
      have hrest := ih fun other hmem => h other (List.mem_cons_of_mem _ hmem)
      rw [List.flatten_cons]
      cases row with
      | zero => rw [Nat.zero_mul, Nat.zero_add, List.getElem?_append_left (by omega)]; rfl
      | succ row =>
          rw [Nat.succ_mul, List.getElem?_append_right (by omega)]
          have hindex : row * width + width + col - first.length = row * width + col := by omega
          rw [hindex, hrest]
          rfl

/-- A table that is next is read, if its numbers fit. -/
theorem Reads.table {buffer : Storage} {rest : Bytes} {team : Bool} {table : KeyTable team}
    (h : Reads buffer (table.bytes ++ rest)) (hsize : table.bytes.length < 2 ^ 16) :
    ∃ next, statedTables buffer =
        (statedTables next).map (fun tables => ⟨table.names, table.rows.flatten⟩ :: tables) ∧
      Reads next rest := by
  have hwidth : ∀ row ∈ table.rows, row.length = table.names.length := fun row hrow =>
    (table.filled row hrow).1
  have hvalues := flatten_length hwidth
  have hnames : 0 < table.names.length := List.length_pos_of_ne_nil table.has_names
  have hrows : 0 < table.rows.length := List.length_pos_of_ne_nil table.has_rows
  have hnameBytes := le_nt_strings_length table.names
  have hvalueBytes := le_nt_strings_length table.rows.flatten
  have hmore : table.rows.length ≤ table.rows.flatten.length := by
    rw [hvalues]
    exact Nat.le_mul_of_pos_right _ hnames
  obtain ⟨name, others, hcons⟩ := List.exists_cons_of_ne_nil table.has_names
  have hname : 0 < name.length := by
    refine List.length_pos_of_ne_nil (table.named name ?_).1
    rw [hcons]
    exact List.mem_cons_self
  have hfirst : name.length + 1 ≤ (ntStrings table.names).length := by
    rw [hcons, nt_strings_cons, List.length_append, List.length_cons]
    omega
  rw [KeyTable.bytes, List.length_cons, List.length_cons, List.length_append,
    List.length_cons] at hsize
  rw [KeyTable.bytes, List.cons_append, List.cons_append, List.append_assoc, List.cons_append] at h
  obtain ⟨behindNumber, hnumber, hbehindNumber⟩ := h.num_values
  have hremaining := hbehindNumber.remaining
  rw [List.length_append, List.length_cons, List.length_append] at hremaining
  obtain ⟨behindNames, hreadNames, hbehindNames⟩ := hbehindNumber.names fun name hmem =>
    ⟨(table.named name hmem).1, (table.named name hmem).2.1⟩
  obtain ⟨next, hread, hnext⟩ := hbehindNames.strings fun value hmem => by
    obtain ⟨row, hrow, hvalue⟩ := List.mem_flatten.mp hmem
    exact (table.filled row hrow).2 value hvalue
  have hcount : (UInt8.ofNat (table.rows.length / 256)).toNat * 256 +
      (UInt8.ofNat table.rows.length).toNat = table.rows.length := by
    rw [UInt8.toNat_ofNat', UInt8.toNat_ofNat']
    omega
  have hcolumns : table.names.take (table.names.length % 2 ^ 32) = table.names := by
    rw [Nat.mod_eq_of_lt (by omega), List.take_length]
  have hnumValues :
      table.rows.length * table.names.length % 2 ^ 32 = table.rows.flatten.length := by
    rw [← hvalues, Nat.mod_eq_of_lt (by omega)]
  refine ⟨next, ?_, hnext⟩
  rw [stated_tables_step, hnumber, Option.bind_some]
  dsimp only
  rw [hcount, if_neg (by omega), if_neg (by omega), hreadNames, Option.bind_some]
  dsimp only
  rw [hcolumns, hnumValues, hread, Option.bind_some]

/-- The tables of a heartbeat, with nothing behind them. -/
theorem Reads.tables {buffer : Storage} {players : KeyTable false} {teams : KeyTable true}
    (h : Reads buffer (players.bytes ++ teams.bytes)) (hplayers : players.bytes.length < 2 ^ 16)
    (hteams : teams.bytes.length < 2 ^ 16) :
    statedTables buffer =
      some [⟨players.names, players.rows.flatten⟩, ⟨teams.names, teams.rows.flatten⟩] := by
  obtain ⟨behindPlayers, hplayers, hbehindPlayers⟩ := h.table hplayers
  rw [← List.append_nil teams.bytes] at hbehindPlayers
  obtain ⟨behindTeams, hteams, hbehindTeams⟩ := hbehindPlayers.table hteams
  rw [hteams, hbehindTeams.no_values] at hplayers
  exact hplayers

/-- The place of a value of a table. -/
theorem put_at_iff {columns : List Bytes} (hne : columns ≠ []) (hdistinct : columns.Nodup)
    (position : Nat) (x name : Bytes) (row : Nat) :
    ((putAt columns position x).key = name ∧ (putAt columns position x).row = row) ↔
      name ∈ columns ∧ position = row * columns.length + columns.idxOf name := by
  have hpos : 0 < columns.length := List.length_pos_of_ne_nil hne
  have hmod : position % columns.length < columns.length := Nat.mod_lt _ hpos
  have hkey : (putAt columns position x).key = columns[position % columns.length] := by
    rw [putAt, List.getD_eq_getElem?_getD, List.getElem?_eq_getElem hmod]
    rfl
  rw [hkey]
  constructor
  · rintro ⟨rfl, rfl⟩
    refine ⟨List.getElem_mem hmod, ?_⟩
    rw [hdistinct.idxOf_getElem]
    exact (Nat.div_add_mod' position columns.length).symm
  · rintro ⟨hmem, rfl⟩
    have hcol : columns.idxOf name < columns.length := List.idxOf_lt_length_of_mem hmem
    constructor
    · simp [Nat.mod_eq_of_lt hcol]
    · show (row * columns.length + columns.idxOf name) / columns.length = row
      rw [Nat.mul_comm, Nat.mul_add_div hpos, Nat.div_eq_of_lt hcol, Nat.add_zero]

/-- The values of a table, at their rows. -/
theorem given_puts {columns : List Bytes} (hne : columns ≠ []) (hdistinct : columns.Nodup)
    (values : List Bytes) (name : Bytes) (row : Nat) :
    given (StatedTable.puts ⟨columns, values⟩) name row =
      if name ∈ columns then values[row * columns.length + columns.idxOf name]? else none := by
  induction values using List.reverseRecOn with
  | nil => simp [StatedTable.puts]
  | append_singleton values x ih =>
      have hputs : StatedTable.puts ⟨columns, values ++ [x]⟩ =
          StatedTable.puts ⟨columns, values⟩ ++ [putAt columns values.length x] := by
        simp [StatedTable.puts]
      rw [hputs, given_concat, ih, if_congr (put_at_iff hne hdistinct ..) rfl rfl]
      by_cases hmem : name ∈ columns
      · simp only [hmem, true_and, if_true]
        generalize row * columns.length + columns.idxOf name = place
        by_cases hlast : values.length = place
        · rw [if_pos hlast, ← hlast, List.getElem?_concat_length]
          rfl
        · rw [if_neg hlast, List.getElem?_append]
          split
          · rfl
          · next hbeyond =>
              rw [List.getElem?_eq_none (Nat.le_of_not_lt hbeyond), List.getElem?_eq_none]
              rw [List.length_singleton]
              omega
      · simp [hmem]

/-- A table that has been stored has the cells of the table. -/
theorem table_cells {team : Bool} (table : KeyTable team) (name : Bytes) (row : Nat) :
    cell (putAll (StatedTable.puts ⟨table.names, table.rows.flatten⟩)) name row =
      table.cell name row := by
  have hwidth : ∀ row ∈ table.rows, row.length = table.names.length := fun row hrow =>
    (table.filled row hrow).1
  rw [cell_put_all (table_follows _), given_puts table.has_names table.distinct]
  by_cases hmem : name ∈ table.names
  · rw [if_pos hmem, flatten_cell hwidth (List.idxOf_lt_length_of_mem hmem)]
    rfl
  · rw [if_neg hmem, KeyTable.cell, List.idxOf_eq_length hmem]
    cases hrow : table.rows[row]? with
    | none => rfl
    | some values =>
        have hlen := hwidth values (List.mem_of_getElem? hrow)
        rw [Option.bind_some, List.getElem?_eq_none hlen.le]

/-- The columns of a table are of its kind. -/
theorem table_puts_named {team : Bool} (table : KeyTable team) :
    ∀ p ∈ StatedTable.puts ⟨table.names, table.rows.flatten⟩, isTeamString p.key = team := by
  intro p hmem
  obtain ⟨position, hposition, rfl⟩ := List.mem_mapIdx.mp hmem
  have hmod : position % table.names.length < table.names.length :=
    Nat.mod_lt _ (List.length_pos_of_ne_nil table.has_names)
  have hkey : (table.names.getD (position % table.names.length) []) ∈ table.names := by
    rw [List.getD_eq_getElem?_getD, List.getElem?_eq_getElem hmod]
    exact List.getElem_mem hmod
  obtain ⟨-, hnul, hteam⟩ := table.named _ hkey
  exact Bool.eq_iff_iff.mpr ((is_team_string_iff hnul).trans hteam)

/-- Each table is stored in its own map. -/
theorem stored_tables (info : ServerInfo) (hplayers : info.playerKeys = [])
    (hteams : info.teamKeys = []) (players : KeyTable false) (teams : KeyTable true) :
    info.storeAll (List.flatMap StatedTable.puts
        [⟨players.names, players.rows.flatten⟩, ⟨teams.names, teams.rows.flatten⟩]) =
      { info with
        playerKeys := putAll (StatedTable.puts ⟨players.names, players.rows.flatten⟩)
        teamKeys := putAll (StatedTable.puts ⟨teams.names, teams.rows.flatten⟩) } := by
  have hplayer := table_puts_named players
  have hteam := table_puts_named teams
  rw [store_all_eq, hplayers, hteams, List.flatMap_cons, List.flatMap_cons, List.flatMap_nil,
    List.append_nil, List.filter_append, List.filter_append]
  rw [List.filter_eq_self.mpr fun p hp => by rw [hplayer p hp]; rfl,
    List.filter_eq_nil_iff.mpr fun p hp => by rw [hteam p hp]; decide,
    List.filter_eq_nil_iff.mpr fun p hp => by rw [hplayer p hp]; decide,
    List.filter_eq_self.mpr fun p hp => hteam p hp, List.append_nil, List.nil_append]
  rfl

end Tables

/-- The packet of a heartbeat is read up to its end: its type, its key, the keys of the server and
the tables. -/
theorem packet_read (heartbeat : Heartbeat) (instanceKey : UInt32) (behind : Bytes)
    (h : (heartbeat.packet instanceKey).length < 2 ^ 16) :
    ∃ behindType behindInstance behindKeys,
      (receivedBuffer behind (heartbeat.packet instanceKey)).readByte =
          (packetHeartbeat, behindType) ∧
        ¬ behindType.readRemaining < requestKeyLen ∧
        behindType.readBuffer (List.replicate requestKeyLen 0) =
          (LittleEndian.toBytes requestKeyLen instanceKey.toNat, behindInstance) ∧
        readKeys [] behindInstance = some (heartbeat.keys, behindKeys) ∧
        statedTables behindKeys =
          some [⟨heartbeat.players.names, heartbeat.players.rows.flatten⟩,
            ⟨heartbeat.teams.names, heartbeat.teams.rows.flatten⟩] := by
  rw [Heartbeat.packet, List.length_cons, List.length_append, List.length_append, List.length_cons,
    List.length_append] at h
  obtain ⟨behindType, htype, hbehindType⟩ :=
    (reads_received behind (heartbeat.packet instanceKey)).byte
  have hkeyLength := LittleEndian.to_bytes_length requestKeyLen instanceKey.toNat
  have hremaining : ¬ behindType.readRemaining < requestKeyLen := by
    rw [hbehindType.remaining, List.length_append, hkeyLength]
    omega
  have htarget : (List.replicate requestKeyLen (0 : UInt8)).length =
      (LittleEndian.toBytes requestKeyLen instanceKey.toNat).length := by
    rw [List.length_replicate, hkeyLength]
  have hinstance := hbehindType.ordered.read_buffer htarget hbehindType.unread
  have hdistinct : (([] ++ heartbeat.keys).map Prod.fst).Nodup := heartbeat.distinct
  obtain ⟨behindKeys, hkeys, hbehindKeys⟩ := hbehindType.skip.keys heartbeat.filled hdistinct
  exact ⟨behindType, _, behindKeys, htype, hremaining, hinstance, hkeys,
    hbehindKeys.tables (by omega) (by omega)⟩

/-- The tables that a heartbeat states are those that were written. -/
theorem packet_tables_written (heartbeat : Heartbeat) (instanceKey : UInt32) (behind : Bytes)
    (h : (heartbeat.packet instanceKey).length < 2 ^ 16) :
    packetTables behind (heartbeat.packet instanceKey) =
      some [⟨heartbeat.players.names, heartbeat.players.rows.flatten⟩,
        ⟨heartbeat.teams.names, heartbeat.teams.rows.flatten⟩] := by
  obtain ⟨behindType, behindInstance, behindKeys, htype, hremaining, hinstance, hkeys, htables⟩ :=
    packet_read heartbeat instanceKey behind h
  rw [packetTables, htype]
  dsimp only
  rw [if_neg (by simp [hremaining]), hinstance]
  dsimp only
  rw [hkeys]
  exact htables

/-- The server gets the keys and the tables of a heartbeat as they were written, cell by cell, and
no others. A packet is a datagram, and so has less than `2 ^ 16` bytes. -/
theorem heartbeat_read_back (heartbeat : Heartbeat) (instanceKey : UInt32) (fromAddress : Address)
    (behind : Bytes) (h : (heartbeat.packet instanceKey).length < 2 ^ 16) :
    ∃ server, handleV2Packet fromAddress behind (heartbeat.packet instanceKey) =
        some (some ⟨fromAddress, instanceKey.toNat, server, 2⟩) ∧
      server.address = fromAddress ∧ server.keys = heartbeat.keys ∧
      (∀ name row, cell server.playerKeys name row = heartbeat.players.cell name row) ∧
      ∀ name row, cell server.teamKeys name row = heartbeat.teams.cell name row := by
  obtain ⟨behindType, behindInstance, behindKeys, htype, hremaining, hinstance, hkeys, htables⟩ :=
    packet_read heartbeat instanceKey behind h
  refine ⟨⟨fromAddress, heartbeat.keys,
    putAll (StatedTable.puts ⟨heartbeat.players.names, heartbeat.players.rows.flatten⟩),
    putAll (StatedTable.puts ⟨heartbeat.teams.names, heartbeat.teams.rows.flatten⟩)⟩,
    ?_, rfl, rfl, table_cells heartbeat.players, table_cells heartbeat.teams⟩
  have hstored := stored_tables { ServerInfo.ofAddress fromAddress with keys := heartbeat.keys }
    rfl rfl heartbeat.players heartbeat.teams
  have hkey : LittleEndian.toNat (LittleEndian.toBytes requestKeyLen instanceKey.toNat) =
      instanceKey.toNat := LittleEndian.to_nat_to_bytes instanceKey.toNat_lt
  unfold handleV2Packet
  rw [htype]
  dsimp only
  rw [if_neg hremaining, hinstance]
  dsimp only
  rw [if_pos rfl, handleV2Heartbeat, hkeys]
  simp only [Option.bind_eq_bind, Option.bind_some, read_tables_eq, htables, Option.map_some,
    hstored, hkey]
  rfl

/-- A server with a player, a nameless one and a team. -/
def smallHeartbeat : Heartbeat where
  keys := [(ascii "hostname", ascii "host")]
  players :=
    { names := [ascii "player_", ascii "ping_"]
      rows := [[ascii "ann", ascii "20"], [[], ascii "35"]]
      has_names := by decide
      has_rows := by decide
      distinct := by decide
      named := by decide
      filled := by decide }
  teams :=
    { names := [ascii "team_t"]
      rows := [[ascii "red"]]
      has_names := by decide
      has_rows := by decide
      distinct := by decide
      named := by decide
      filled := by decide }
  distinct := by decide
  filled := by decide

theorem heartbeat_read_back_small :
    ∃ server, handleV2Packet ⟨⟨10, 0, 0, 1⟩, 6500⟩ [] (smallHeartbeat.packet 7) =
        some (some ⟨⟨⟨10, 0, 0, 1⟩, 6500⟩, 7, server, 2⟩) ∧
      server.address = ⟨⟨10, 0, 0, 1⟩, 6500⟩ ∧ server.keys = smallHeartbeat.keys ∧
      (∀ name row, cell server.playerKeys name row = smallHeartbeat.players.cell name row) ∧
      ∀ name row, cell server.teamKeys name row = smallHeartbeat.teams.cell name row :=
  heartbeat_read_back smallHeartbeat 7 ⟨⟨10, 0, 0, 1⟩, 6500⟩ [] (by decide)

end OpenSpy.QR
