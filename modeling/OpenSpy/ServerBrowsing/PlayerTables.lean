import Mathlib.Data.List.MinMax
import OpenSpy.Library.MultiMap
import OpenSpy.Library.Redis

/-!
# The player and team tables of a server

A heartbeat brings a table of the players and one of the teams, by columns. `WriteServerData`
stores them by rows: every row has a hash, with a field for each cell that is not empty.
`LoadCustomInfo_AllPlayerKeys` and `LoadCustomInfo_AllTeamKeys` read the rows back for a server
that is sent to a client, from row 0 on up to the first one that is not there. A row of empty
cells has no hash, so the rows behind it are not found: `tables_survive_iff`.
-/

namespace OpenSpy.ServerBrowsing.PlayerTables

open Bytes Redis

/-- The columns of a table. The source keeps them in a map, so their names are distinct. -/
structure Table where
  columns : List (Bytes × List Bytes)
  distinct : (columns.map Prod.fst).Nodup

/-- The cell of a row under a name has the value, and is not empty. -/
def Table.Filled (table : Table) (row : Nat) (key value : Bytes) : Prop :=
  ∃ column, (key, column) ∈ table.columns ∧ column[row]? = some value ∧ value ≠ []

/-- A row has a cell that is not empty. -/
def Table.HasRow (table : Table) (row : Nat) : Prop :=
  ∃ key value, table.Filled row key value

/-- The number of rows. -/
def Table.height (table : Table) : Nat :=
  (table.columns.map fun column => column.2.length).foldr max 0

/-- What is used of `ServerInfo`. -/
structure ServerInfo where
  keys : List (Bytes × Bytes)
  playerKeys : Table
  teamKeys : Table

/-- The key of a server, `gamename:id:`, which is one word in the text of a command. It has no
NUL, so that a key that starts with it is a C string. -/
structure ServerKey where
  text : Bytes
  word : 0 ∉ text

/-- The key of the hash of custom keys. -/
def ServerKey.custkeys (key : ServerKey) : Bytes :=
  key.text ++ ascii "custkeys"

/-- The key of the hash of a player's row. -/
def ServerKey.player (key : ServerKey) (row : Nat) : Bytes :=
  key.text ++ ascii "custkeys_player_" ++ printNat row

/-- The key of the hash of a team's row. -/
def ServerKey.team (key : ServerKey) (row : Nat) : Bytes :=
  key.text ++ ascii "custkeys_team_" ++ printNat row

/-- The hashes in redis. -/
abbrev Keyspace := Bytes → Option Hash

/-- The hash of a key, which has no fields if it is not there. -/
def Keyspace.hash (db : Keyspace) (key : Bytes) : Hash :=
  (db key).getD fun _ => none

/-- `HMSET`, whose arguments are C strings. -/
def Keyspace.hmset (db : Keyspace) (key : Bytes) (pairs : List (Bytes × Bytes)) : Keyspace :=
  Function.update db (cString key)
    (some (Redis.hmset (db.hash (cString key))
      (pairs.map fun pair => (cString pair.1, cString pair.2))))

/-- `EXISTS`. -/
def Keyspace.exist (db : Keyspace) (key : Bytes) : Bool :=
  (db (cString key)).isSome

/-- The rows as they are collected in `transposed_keys`. -/
abbrev Rows := MultiMap Bytes (Bytes × Bytes)

/-- The inner loop over the cells of a column. -/
def transposeColumn (rowKey : Nat → Bytes) (key : Bytes) : Nat → List Bytes → Rows → Rows
  | _, [], rows => rows
  | i, value :: rest, rows =>
      transposeColumn rowKey key (i + 1) rest
        (if 0 < value.length then rows.push (rowKey i) (key, value) else rows)

/-- The loop over the columns of a table. -/
def transpose (rowKey : Nat → Bytes) (columns : List (Bytes × List Bytes)) (rows : Rows) : Rows :=
  columns.foldl (fun rows column => transposeColumn rowKey column.1 0 column.2 rows) rows

/-- `transposed_keys`: the rows of the players, then those of the teams. -/
def transposedKeys (key : ServerKey) (server : ServerInfo) : Rows :=
  transpose key.team server.teamKeys.columns
    (transpose key.player server.playerKeys.columns [])

/-- The loop that writes the rows. -/
def writeRows (rows : Rows) (db : Keyspace) : Keyspace :=
  rows.foldl (fun db row =>
    if row.2 = [] then db else db.hmset row.1 (row.2.filter fun pair => pair.2 ≠ [])) db

/-- The hashes of custom keys that `WriteServerData` writes. -/
def writeServerData (key : ServerKey) (server : ServerInfo) (db : Keyspace) : Keyspace :=
  writeRows (transposedKeys key server)
    (if server.keys = [] then db else db.hmset key.custkeys server.keys)

/-- What is used of a server that is sent to a client. -/
structure Server where
  kvPlayers : Nat → Hash
  kvTeams : Nat → Hash

/-- A server as it is before its rows are loaded. -/
def Server.empty : Server :=
  ⟨fun _ _ => none, fun _ _ => none⟩

/-- The loop that looks for the first row that is not there, or none if the fuel runs out. -/
def probe (db : Keyspace) (rowKey : Nat → Bytes) : Nat → Nat → Option Nat
  | 0, _ => none
  | fuel + 1, idx => if db.exist (rowKey idx) then probe db rowKey fuel (idx + 1) else some idx

/-- The loop over the replies of `HGETALL`. -/
def loadRows (hgetall : Bytes → List (Bytes × Bytes)) (rowKey : Nat → Bytes) (idx : Nat)
    (rows : Nat → Hash) : Nat → Hash :=
  (List.range idx).foldl (fun rows i =>
    Function.update rows i (Redis.hmset (rows i) ((hgetall (rowKey i)).map fun pair =>
      (cString pair.1, cString pair.2)))) rows

/-- `LoadCustomInfo_AllPlayerKeys`. `hgetall` has the replies of `HGETALL`. -/
def loadCustomInfoAllPlayerKeys (fuel : Nat) (db : Keyspace)
    (hgetall : Bytes → List (Bytes × Bytes)) (key : ServerKey) (server : Server) :
    Option Server :=
  (probe db key.player fuel 0).map fun idx =>
    { server with kvPlayers := loadRows hgetall key.player idx server.kvPlayers }

/-- `LoadCustomInfo_AllTeamKeys`. -/
def loadCustomInfoAllTeamKeys (fuel : Nat) (db : Keyspace)
    (hgetall : Bytes → List (Bytes × Bytes)) (key : ServerKey) (server : Server) :
    Option Server :=
  (probe db key.team fuel 0).map fun idx =>
    { server with kvTeams := loadRows hgetall key.team idx server.kvTeams }

/-- The rows have distinct keys, which are C strings. -/
def Tidy (rows : Rows) : Prop :=
  rows.Distinct ∧ ∀ key ∈ rows.map Prod.fst, 0 ∉ key

theorem tidy_nil : Tidy [] :=
  ⟨MultiMap.distinct_nil, by simp⟩

theorem tidy_push {rows : Rows} (h : Tidy rows) {key : Bytes} (hkey : 0 ∉ key)
    (pair : Bytes × Bytes) : Tidy (rows.push key pair) := by
  refine ⟨MultiMap.distinct_push h.1 key pair, fun other hmem => ?_⟩
  rcases MultiMap.mem_keys_push.mp hmem with hmem | heq
  · exact h.2 other hmem
  · rwa [heq]

section Transpose

variable {rowKey : Nat → Bytes}

/-- A column adds its cells that are not empty, each to its own row. -/
theorem mem_transpose_column {key : Bytes} {i : Nat} {column : List Bytes} {rows : Rows}
    {wanted : Bytes} {pair : Bytes × Bytes} :
    pair ∈ (transposeColumn rowKey key i column rows).find wanted ↔
      pair ∈ rows.find wanted ∨ ∃ n value, column[n]? = some value ∧ value ≠ [] ∧
        rowKey (i + n) = wanted ∧ pair = (key, value) := by
  induction column generalizing i rows with
  | nil => simp [transposeColumn]
  | cons first rest ih =>
      have hsplit : (∃ n value, (first :: rest)[n]? = some value ∧ value ≠ [] ∧
            rowKey (i + n) = wanted ∧ pair = (key, value)) ↔
          (first ≠ [] ∧ rowKey i = wanted ∧ pair = (key, first)) ∨
            ∃ n value, rest[n]? = some value ∧ value ≠ [] ∧
              rowKey (i + 1 + n) = wanted ∧ pair = (key, value) := by
        constructor
        · rintro ⟨n, value, hvalue, hrow⟩
          cases n with
          | zero =>
              obtain rfl : first = value := by simpa using hvalue
              exact .inl hrow
          | succ n =>
              have hadd : i + (n + 1) = i + 1 + n := by omega
              exact .inr ⟨n, value, by simpa using hvalue, hadd ▸ hrow⟩
        · rintro (hrow | ⟨n, value, hvalue, hrow⟩)
          · exact ⟨0, first, rfl, hrow⟩
          · have hadd : i + (n + 1) = i + 1 + n := by omega
            exact ⟨n + 1, value, by simpa using hvalue, hadd ▸ hrow⟩
      rw [transposeColumn, ih, hsplit, ← or_assoc]
      refine or_congr_left ?_
      by_cases hfirst : first = []
      · simp [hfirst]
      · have hpos : 0 < first.length := List.length_pos_iff.mpr hfirst
        rw [if_pos hpos, MultiMap.find_push, List.mem_append]
        by_cases hwanted : rowKey i = wanted <;> simp [hfirst, hwanted]

theorem tidy_transpose_column (hword : ∀ row, 0 ∉ rowKey row) {key : Bytes} {i : Nat}
    {column : List Bytes} {rows : Rows} (h : Tidy rows) :
    Tidy (transposeColumn rowKey key i column rows) := by
  induction column generalizing i rows with
  | nil => exact h
  | cons first rest ih =>
      rw [transposeColumn]
      split_ifs with hfirst
      · exact ih (tidy_push h (hword i) _)
      · exact ih h

/-- A table adds its cells that are not empty, each to its own row. -/
theorem mem_transpose {columns : List (Bytes × List Bytes)} {rows : Rows} {wanted : Bytes}
    {pair : Bytes × Bytes} :
    pair ∈ (transpose rowKey columns rows).find wanted ↔
      pair ∈ rows.find wanted ∨ ∃ row, rowKey row = wanted ∧
        ∃ column, (pair.1, column) ∈ columns ∧ column[row]? = some pair.2 ∧ pair.2 ≠ [] := by
  induction columns generalizing rows with
  | nil => simp [transpose]
  | cons first rest ih =>
      obtain ⟨key, cells⟩ := first
      have hstep : transpose rowKey ((key, cells) :: rest) rows =
          transpose rowKey rest (transposeColumn rowKey key 0 cells rows) := rfl
      rw [hstep, ih, mem_transpose_column, or_assoc]
      refine or_congr_right ?_
      constructor
      · rintro (⟨n, value, hvalue, hne, hrow, rfl⟩ | ⟨row, hrow, column, hmem, hcell⟩)
        · exact ⟨n, by simpa using hrow, cells, List.mem_cons_self, hvalue, hne⟩
        · exact ⟨row, hrow, column, List.mem_cons_of_mem _ hmem, hcell⟩
      · rintro ⟨row, hrow, column, hmem, hvalue, hne⟩
        rcases List.mem_cons.mp hmem with heq | hmem
        · obtain ⟨hkey, rfl⟩ := Prod.mk.inj heq
          exact .inl ⟨row, pair.2, hvalue, hne, by simpa using hrow, by rw [← hkey]⟩
        · exact .inr ⟨row, hrow, column, hmem, hvalue, hne⟩

theorem tidy_transpose (hword : ∀ row, 0 ∉ rowKey row) {columns : List (Bytes × List Bytes)}
    {rows : Rows} (h : Tidy rows) : Tidy (transpose rowKey columns rows) := by
  induction columns generalizing rows with
  | nil => exact h
  | cons first rest ih => exact ih (tidy_transpose_column hword h)

end Transpose

/-- A row that has pairs is written as one hash, and the other keys stay as they are. -/
theorem write_rows_apply {rows : Rows} (h : Tidy rows) (db : Keyspace) (key : Bytes) :
    writeRows rows db key =
      if rows.find key = [] then db key
      else some (Redis.hmset (db.hash key)
        (((rows.find key).filter fun pair => pair.2 ≠ []).map fun pair =>
          (cString pair.1, cString pair.2))) := by
  induction rows generalizing db with
  | nil => rfl
  | cons row rest ih =>
      obtain ⟨rowKey, pairs⟩ := row
      obtain ⟨hnot, hrest⟩ := List.nodup_cons.mp h.1
      have htidy : Tidy rest :=
        ⟨hrest, fun key hmem => h.2 key (List.mem_cons_of_mem _ hmem)⟩
      have hword : cString rowKey = rowKey := c_string_eq_self (h.2 rowKey List.mem_cons_self)
      have hstep : writeRows ((rowKey, pairs) :: rest) db = writeRows rest
          (if pairs = [] then db else db.hmset rowKey (pairs.filter fun pair => pair.2 ≠ [])) :=
        rfl
      rw [hstep, ih htidy]
      by_cases hkey : rowKey = key
      · subst hkey
        have hnone : MultiMap.find rest rowKey = [] := MultiMap.find_of_not_mem hnot
        by_cases hpairs : pairs = []
        · simp [MultiMap.find, hnone, hpairs]
        · simp [MultiMap.find, hnone, hpairs, Keyspace.hmset, hword]
      · have hsame : (if pairs = [] then db
            else db.hmset rowKey (pairs.filter fun pair => pair.2 ≠ [])) key = db key := by
          split_ifs with hpairs
          · rfl
          · rw [Keyspace.hmset, hword, Function.update_of_ne (Ne.symm hkey)]
        simp only [MultiMap.find, hkey, if_false, Keyspace.hash, hsame]

theorem zero_not_mem_row_key {s : Bytes} (hword : 0 ∉ s) (text : String)
    (htext : 0 ∉ ascii text) (row : Nat) : 0 ∉ s ++ ascii text ++ printNat row := by
  have hnumber : 0 ∉ printNat row := fun hmem => absurd (print_nat_digits row 0 hmem) (by decide)
  simp only [List.mem_append, not_or]
  exact ⟨⟨hword, htext⟩, hnumber⟩

theorem ServerKey.player_word (key : ServerKey) (row : Nat) : 0 ∉ key.player row :=
  zero_not_mem_row_key key.word _ (by decide) row

theorem ServerKey.team_word (key : ServerKey) (row : Nat) : 0 ∉ key.team row :=
  zero_not_mem_row_key key.word _ (by decide) row

theorem ServerKey.player_injective (key : ServerKey) : Function.Injective key.player :=
  fun _ _ h => print_nat_injective (List.append_cancel_left h)

theorem ServerKey.team_injective (key : ServerKey) : Function.Injective key.team :=
  fun _ _ h => print_nat_injective (List.append_cancel_left h)

/-- No player's row has the key of a team's row. -/
theorem ServerKey.player_ne_team (key : ServerKey) (row other : Nat) :
    key.player row ≠ key.team other := by
  intro h
  have hplayer : ascii "custkeys_player_" = ascii "custkeys_" ++ ascii "player_" := by decide
  have hteam : ascii "custkeys_team_" = ascii "custkeys_" ++ ascii "team_" := by decide
  simp only [player, team, hplayer, hteam, List.append_assoc, List.append_cancel_left_eq] at h
  -- behind the common part one goes on with `p`, the other with `t`
  have hhead := congrArg List.head? h
  simp [ascii, char] at hhead

/-- The row's key is not the key of the custom keys. -/
theorem ServerKey.row_ne_custkeys (key : ServerKey) (row : Nat) :
    key.player row ≠ key.custkeys ∧ key.team row ≠ key.custkeys := by
  have hlength : (ascii "custkeys").length < (ascii "custkeys_player_").length ∧
      (ascii "custkeys").length < (ascii "custkeys_team_").length := by decide
  constructor <;> intro h <;>
  · have hlen := congrArg List.length h
    simp only [player, team, custkeys, List.length_append] at hlen
    omega

/-- No key of the server that starts with `custkeys` is there. -/
def Cleared (key : ServerKey) (db : Keyspace) : Prop :=
  ∀ rest, db (key.text ++ ascii "custkeys" ++ rest) = none

theorem Cleared.rows {key : ServerKey} {db : Keyspace} (h : Cleared key db) (row : Nat) :
    db (key.player row) = none ∧ db (key.team row) = none := by
  have hplayer : ascii "custkeys_player_" = ascii "custkeys" ++ ascii "_player_" := by decide
  have hteam : ascii "custkeys_team_" = ascii "custkeys" ++ ascii "_team_" := by decide
  constructor
  · rw [ServerKey.player, hplayer, ← List.append_assoc, List.append_assoc _ (ascii "_player_")]
    exact h _
  · rw [ServerKey.team, hteam, ← List.append_assoc, List.append_assoc _ (ascii "_team_")]
    exact h _

/-- Two cells of a row under one name are the same. -/
theorem Table.filled_unique {table : Table} {row : Nat} {key value other : Bytes}
    (h : table.Filled row key value) (hother : table.Filled row key other) : other = value := by
  obtain ⟨column, hmem, hvalue, -⟩ := h
  obtain ⟨second, hsecond, hvalue', -⟩ := hother
  have hcolumn : second = column := by
    have hpair := List.inj_on_of_nodup_map table.distinct hsecond hmem rfl
    exact (Prod.mk.inj hpair).2
  subst hcolumn
  rw [hvalue] at hvalue'
  exact (Option.some.inj hvalue').symm

/-- A row that has a cell is one of the rows. -/
theorem Table.has_row_lt {table : Table} {row : Nat} (h : table.HasRow row) :
    row < table.height := by
  obtain ⟨key, value, column, hmem, hvalue, -⟩ := h
  have hlt : row < column.length := (List.getElem?_eq_some_iff.mp hvalue).1
  refine lt_of_lt_of_le hlt (List.le_max_of_le' 0 ?_ le_rfl)
  exact List.mem_map.mpr ⟨(key, column), hmem, rfl⟩

/-- The hashes hold the rows of a table: the hash of a row is there if the row has a cell, every
cell is a field, and every field comes from a cell. -/
structure Stored (db : Keyspace) (rowKey : Nat → Bytes) (table : Table) : Prop where
  exist : ∀ row, db.exist (rowKey row) = true ↔ table.HasRow row
  field : ∀ row name text, db.hash (rowKey row) name = some text →
    ∃ key value, table.Filled row key value ∧ name = cString key ∧ text = cString value
  plain : (∀ row key value, table.Filled row key value → 0 ∉ key ∧ 0 ∉ value) →
    ∀ row key value, table.Filled row key value → db.hash (rowKey row) key = some value

section Stored

variable {db : Keyspace} {rowKey : Nat → Bytes} {table : Table}

/-- Rows that were written where nothing was before are stored. -/
theorem stored_of_rows {rows : Rows} {before : Keyspace} (hrows : Tidy rows)
    (hword : ∀ row, 0 ∉ rowKey row) (hnone : ∀ row, before (rowKey row) = none)
    (hcells : ∀ row pair, pair ∈ rows.find (rowKey row) ↔ table.Filled row pair.1 pair.2) :
    Stored (writeRows rows before) rowKey table := by
  have hstring : ∀ row, cString (rowKey row) = rowKey row := fun row => c_string_eq_self (hword row)
  have happly := fun row => write_rows_apply hrows before (rowKey row)
  have hhash : ∀ row, (writeRows rows before).hash (rowKey row) =
      Redis.hmset (fun _ => none) ((rows.find (rowKey row)).map fun pair =>
        (cString pair.1, cString pair.2)) := by
    intro row
    have hfilter : (rows.find (rowKey row)).filter (fun pair => pair.2 ≠ []) =
        rows.find (rowKey row) := by
      rw [List.filter_eq_self]
      intro pair hmem
      obtain ⟨_, _, _, hne⟩ := (hcells row pair).mp hmem
      simpa using hne
    rw [Keyspace.hash, happly, hfilter, Keyspace.hash, hnone]
    split_ifs with hempty
    · rw [hempty]
      rfl
    · rfl
  refine ⟨fun row => ?_, fun row name text h => ?_, fun hplain row key value h => ?_⟩
  · rw [Keyspace.exist, hstring, happly, hnone]
    constructor
    · intro h
      obtain ⟨pair, hmem⟩ : ∃ pair, pair ∈ rows.find (rowKey row) := by
        refine List.exists_mem_of_ne_nil _ fun hempty => ?_
        simp [hempty] at h
      exact ⟨pair.1, pair.2, (hcells row pair).mp hmem⟩
    · rintro ⟨key, value, h⟩
      have hmem := (hcells row (key, value)).mpr h
      rw [if_neg (List.ne_nil_of_mem hmem)]
      rfl
  · rw [hhash, hmset_apply, Option.or_none] at h
    obtain ⟨pair, hmem, hpair⟩ := List.mem_map.mp (mem_of_lookup_reverse h)
    obtain ⟨rfl, rfl⟩ := Prod.mk.inj hpair
    exact ⟨pair.1, pair.2, (hcells row pair).mp hmem, rfl, rfl⟩
  · obtain ⟨hkey, hvalue⟩ := hplain row key value h
    have hmem := (hcells row (key, value)).mpr h
    rw [hhash]
    refine hmset_of_mem (List.mem_map.mpr ⟨(key, value), hmem, ?_⟩) fun other hother => ?_
    · simp only [c_string_eq_self hkey, c_string_eq_self hvalue]
    · obtain ⟨pair, hpair, heq⟩ := List.mem_map.mp hother
      obtain ⟨hname, htext⟩ := Prod.mk.inj heq
      have hfilled := (hcells row pair).mp hpair
      obtain ⟨hkey', hvalue'⟩ := hplain row pair.1 pair.2 hfilled
      rw [c_string_eq_self hkey'] at hname
      rw [c_string_eq_self hvalue'] at htext
      rw [hname, htext] at hfilled
      exact Table.filled_unique h hfilled

/-- The loop stops at the first row that is not there, if the fuel reaches behind the rows. -/
theorem probe_eq_some {fuel idx : Nat}
    (hfuel : ∀ row, db.exist (rowKey row) = true → row + 1 < fuel + idx)
    (hbefore : ∀ row < idx, db.exist (rowKey row) = true) (hpos : 0 < fuel) :
    ∃ stop, probe db rowKey fuel idx = some stop ∧
      (∀ row < stop, db.exist (rowKey row) = true) ∧ db.exist (rowKey stop) = false := by
  induction fuel generalizing idx with
  | zero => omega
  | succ fuel ih =>
      rw [probe]
      cases hexist : db.exist (rowKey idx) with
      | false => exact ⟨idx, rfl, hbefore, hexist⟩
      | true =>
          have hlt := hfuel idx hexist
          refine ih (fun row hrow => ?_) (fun row hrow => ?_) (by omega)
          · have := hfuel row hrow
            omega
          · rcases Nat.lt_succ_iff_lt_or_eq.mp hrow with hrow | rfl
            · exact hbefore row hrow
            · exact hexist

/-- The rows before the stop are loaded with their fields, and the others are left as they
are. -/
theorem load_rows_apply {hgetall : Bytes → List (Bytes × Bytes)}
    (complete : ∀ key, HGetAll (db.hash key) (hgetall key))
    (stored : Stored db rowKey table) (stop row : Nat) (name : Bytes) :
    loadRows hgetall rowKey stop (fun _ _ => none) row name =
      if row < stop then db.hash (rowKey row) name else none := by
  -- what is stored are C strings, so nothing is cut off when it is read
  have hstrings : ∀ row name text, db.hash (rowKey row) name = some text →
      cString name = name ∧ cString text = text := by
    intro row name text h
    obtain ⟨key, value, -, rfl, rfl⟩ := stored.field row name text h
    exact ⟨c_string_c_string key, c_string_c_string value⟩
  induction stop generalizing row name with
  | zero => rfl
  | succ stop ih =>
      have hstep : loadRows hgetall rowKey (stop + 1) (fun _ _ => none) =
          Function.update (loadRows hgetall rowKey stop fun _ _ => none) stop
            (Redis.hmset (loadRows hgetall rowKey stop (fun _ _ => none) stop)
              ((hgetall (rowKey stop)).map fun pair => (cString pair.1, cString pair.2))) := by
        simp only [loadRows, List.range_succ, List.foldl_append, List.foldl_cons, List.foldl_nil]
      have hreply : (hgetall (rowKey stop)).map (fun pair => (cString pair.1, cString pair.2)) =
          hgetall (rowKey stop) := by
        refine (List.map_congr_left fun pair hpair => ?_).trans (List.map_id _)
        obtain ⟨hname, htext⟩ := hstrings stop pair.1 pair.2 ((complete _ _ _).mp hpair)
        rw [hname, htext, id]
      have hnew : loadRows hgetall rowKey stop (fun _ _ => none) stop = fun _ => none := by
        funext other
        rw [ih, if_neg (lt_irrefl _)]
      rw [hstep, hreply, hnew, hmset_hgetall (complete _)]
      by_cases hrow : row = stop
      · subst hrow
        rw [Function.update_self, if_pos (Nat.lt_succ_self _)]
      · have hiff : row < stop + 1 ↔ row < stop := by omega
        rw [Function.update_of_ne hrow, ih, if_congr hiff rfl rfl]

/-- Every row before one with a cell has a cell, and no cell or name has a NUL. -/
def Table.Survives (table : Table) : Prop :=
  (∀ row, table.HasRow row → ∀ before < row, table.HasRow before) ∧
    ∀ row key value, table.Filled row key value → 0 ∉ key ∧ 0 ∉ value

/-- What is loaded of stored rows is their table exactly if the table survives. -/
theorem loaded_iff (stored : Stored db rowKey table)
    {hgetall : Bytes → List (Bytes × Bytes)}
    (complete : ∀ key, HGetAll (db.hash key) (hgetall key)) {fuel : Nat}
    (hfuel : table.height < fuel) :
    ∃ stop, probe db rowKey fuel 0 = some stop ∧
      ((∀ row key value, loadRows hgetall rowKey stop (fun _ _ => none) row key = some value ↔
        table.Filled row key value) ↔ table.Survives) := by
  have hrows : ∀ row, db.exist (rowKey row) = true → row + 1 < fuel + 0 := by
    intro row hrow
    have := Table.has_row_lt ((stored.exist row).mp hrow)
    omega
  obtain ⟨stop, hprobe, hbefore, hstop⟩ := probe_eq_some hrows (by simp) (by omega)
  refine ⟨stop, hprobe, ?_⟩
  simp only [load_rows_apply complete stored]
  constructor
  · intro h
    have hfilled : ∀ row key value, table.Filled row key value →
        row < stop ∧ db.hash (rowKey row) key = some value := by
      intro row key value hcell
      simpa [ite_eq_iff] using (h row key value).mpr hcell
    refine ⟨fun row hrow before hlt => ?_, fun row key value hcell => ?_⟩
    · obtain ⟨key, value, hcell⟩ := hrow
      have hrow := (hfilled row key value hcell).1
      exact (stored.exist before).mp (hbefore before (hlt.trans hrow))
    · obtain ⟨name, text, -, rfl, rfl⟩ :=
        stored.field row key value (hfilled row key value hcell).2
      exact ⟨zero_not_mem_c_string name, zero_not_mem_c_string text⟩
  · rintro ⟨hgap, hplain⟩ row key value
    have hlt : table.HasRow row → row < stop := by
      intro hrow
      by_contra hle
      have hhas : table.HasRow stop := by
        rcases Nat.lt_or_eq_of_le (Nat.le_of_not_lt hle) with hlt | rfl
        · exact hgap row hrow stop hlt
        · exact hrow
      rw [(stored.exist stop).mpr hhas] at hstop
      cases hstop
    constructor
    · intro h
      have hhash : db.hash (rowKey row) key = some value := by
        split_ifs at h
        exact h
      obtain ⟨name, text, hcell, rfl, rfl⟩ := stored.field row key value hhash
      obtain ⟨hname, htext⟩ := hplain row name text hcell
      rwa [c_string_eq_self hname, c_string_eq_self htext]
    · intro hcell
      rw [if_pos (hlt ⟨key, value, hcell⟩)]
      exact stored.plain hplain row key value hcell

end Stored

/-- A heartbeat's tables are stored under the keys of the server. -/
theorem write_server_data_stores (key : ServerKey) (server : ServerInfo) {db : Keyspace}
    (cleared : Cleared key db) :
    Stored (writeServerData key server db) key.player server.playerKeys ∧
      Stored (writeServerData key server db) key.team server.teamKeys := by
  have htidy : Tidy (transposedKeys key server) :=
    tidy_transpose key.team_word (tidy_transpose key.player_word tidy_nil)
  have hcustkeys : ∀ rowKey, rowKey ≠ key.custkeys → db rowKey = none →
      (if server.keys = [] then db else db.hmset key.custkeys server.keys) rowKey = none := by
    intro rowKey hne hnone
    have hword : cString key.custkeys = key.custkeys := by
      refine c_string_eq_self ?_
      simp only [ServerKey.custkeys, List.mem_append, not_or]
      exact ⟨key.word, by decide⟩
    split_ifs with hkeys
    · exact hnone
    · rw [Keyspace.hmset, hword, Function.update_of_ne hne, hnone]
  have hmem : ∀ wanted pair, pair ∈ (transposedKeys key server).find wanted ↔
      (∃ row, key.player row = wanted ∧ server.playerKeys.Filled row pair.1 pair.2) ∨
        ∃ row, key.team row = wanted ∧ server.teamKeys.Filled row pair.1 pair.2 := by
    intro wanted pair
    rw [transposedKeys, mem_transpose, mem_transpose]
    simp [MultiMap.find, Table.Filled]
  constructor
  · refine stored_of_rows htidy key.player_word (fun row => ?_) fun row pair => ?_
    · exact hcustkeys _ (key.row_ne_custkeys row).1 (cleared.rows row).1
    · rw [hmem]
      constructor
      · rintro (⟨other, heq, hcell⟩ | ⟨other, heq, -⟩)
        · exact key.player_injective heq ▸ hcell
        · exact absurd heq.symm (key.player_ne_team row other)
      · exact fun hcell => .inl ⟨row, rfl, hcell⟩
  · refine stored_of_rows htidy key.team_word (fun row => ?_) fun row pair => ?_
    · exact hcustkeys _ (key.row_ne_custkeys row).2 (cleared.rows row).2
    · rw [hmem]
      constructor
      · rintro (⟨other, heq, -⟩ | ⟨other, heq, hcell⟩)
        · exact absurd heq (key.player_ne_team other row)
        · exact key.team_injective heq ▸ hcell
      · exact fun hcell => .inr ⟨row, rfl, hcell⟩

/-- `LoadCustomInfo_AllPlayerKeys`, then `LoadCustomInfo_AllTeamKeys`. -/
def loadCustomInfoAll (fuel : Nat) (db : Keyspace) (hgetall : Bytes → List (Bytes × Bytes))
    (key : ServerKey) (server : Server) : Option Server :=
  (loadCustomInfoAllPlayerKeys fuel db hgetall key server).bind
    (loadCustomInfoAllTeamKeys fuel db hgetall key)

/-- A server has the cells of the heartbeat's tables that are not empty, each in its own row, and
nothing else. -/
def Server.HasTables (loaded : Server) (server : ServerInfo) : Prop :=
  (∀ row key value, loaded.kvPlayers row key = some value ↔
      server.playerKeys.Filled row key value) ∧
    ∀ row key value, loaded.kvTeams row key = some value ↔ server.teamKeys.Filled row key value

/-- Once a heartbeat is stored where nothing was, a server is loaded with its tables exactly if
both tables survive: a row of empty cells hides the rows behind it. -/
theorem tables_survive_iff (key : ServerKey) (server : ServerInfo) (db : Keyspace)
    (cleared : Cleared key db) (hgetall : Bytes → List (Bytes × Bytes))
    (complete : ∀ rowKey,
      HGetAll ((writeServerData key server db).hash rowKey) (hgetall rowKey))
    (fuel : Nat) (hplayers : server.playerKeys.height < fuel)
    (hteams : server.teamKeys.height < fuel) :
    ∃ loaded,
      loadCustomInfoAll fuel (writeServerData key server db) hgetall key .empty = some loaded ∧
        (loaded.HasTables server ↔ server.playerKeys.Survives ∧ server.teamKeys.Survives) := by
  obtain ⟨hstoredPlayers, hstoredTeams⟩ := write_server_data_stores key server cleared
  obtain ⟨players, hprobePlayers, hloadPlayers⟩ := loaded_iff hstoredPlayers complete hplayers
  obtain ⟨teams, hprobeTeams, hloadTeams⟩ := loaded_iff hstoredTeams complete hteams
  refine ⟨⟨loadRows hgetall key.player players fun _ _ => none,
    loadRows hgetall key.team teams fun _ _ => none⟩, ?_, and_congr hloadPlayers hloadTeams⟩
  simp [loadCustomInfoAll, loadCustomInfoAllPlayerKeys, loadCustomInfoAllTeamKeys, hprobePlayers,
    hprobeTeams, Server.empty]

/-- The server of id 1 of the game `gs`. -/
def gsKey : ServerKey :=
  ⟨ascii "gs:1:", by decide⟩

/-- A heartbeat with one column, for the names of the players. -/
def namesHeartbeat (names : List Bytes) : ServerInfo :=
  ⟨[], ⟨[(ascii "player_", names)], by simp⟩, ⟨[], by simp⟩⟩

/-- The replies when one row has a field. -/
def oneRowReplies (row : Nat) (rowKey : Bytes) : List (Bytes × Bytes) :=
  if rowKey = gsKey.player row then [(ascii "player_", ascii "Bob")] else []

/-- A hash with one field is listed by one pair. -/
theorem one_row_complete (row : Nat) (rowKey : Bytes) :
    HGetAll (Keyspace.hash (Keyspace.hmset (fun _ => none) (gsKey.player row)
      [(ascii "player_", ascii "Bob")]) rowKey) (oneRowReplies row rowKey) := by
  have hword : cString (gsKey.player row) = gsKey.player row :=
    c_string_eq_self (gsKey.player_word row)
  have hname : cString (ascii "player_") = ascii "player_" := by decide
  have hbob : cString (ascii "Bob") = ascii "Bob" := by decide
  intro field value
  by_cases hkey : rowKey = gsKey.player row
  · simp only [oneRowReplies, hkey, if_true, Keyspace.hash, Keyspace.hmset, hword,
      Function.update_self, Option.getD_some, Option.getD_none, List.map_cons, List.map_nil, hname,
      hbob, Redis.hmset, List.foldl_cons, List.foldl_nil, List.mem_singleton, Prod.mk.injEq,
      Function.update_apply]
    split_ifs with hfield
    · simp [hfield, eq_comm]
    · simp [hfield]
  · simp [oneRowReplies, hkey, Keyspace.hash, Keyspace.hmset, hword]

/-- The name of the only player is loaded. -/
theorem tables_survive_one_player :
    ∃ loaded,
      loadCustomInfoAll 2 (writeServerData gsKey (namesHeartbeat [ascii "Bob"]) fun _ => none)
          (oneRowReplies 0) gsKey .empty = some loaded ∧
        (loaded.HasTables (namesHeartbeat [ascii "Bob"]) ↔
          (namesHeartbeat [ascii "Bob"]).playerKeys.Survives ∧
            (namesHeartbeat [ascii "Bob"]).teamKeys.Survives) :=
  tables_survive_iff gsKey (namesHeartbeat [ascii "Bob"]) (fun _ => none) (fun _ => rfl)
    (oneRowReplies 0) (one_row_complete 0) 2 (by decide) (by decide)

/-- Behind a first player without a name the second one is not loaded. -/
theorem row_behind_empty_row_lost :
    ¬ ∀ (key : ServerKey) (server : ServerInfo) (db : Keyspace), Cleared key db →
      ∀ hgetall : Bytes → List (Bytes × Bytes),
        (∀ rowKey, HGetAll ((writeServerData key server db).hash rowKey) (hgetall rowKey)) →
        ∀ fuel, server.playerKeys.height < fuel → server.teamKeys.height < fuel →
        ∀ loaded,
          loadCustomInfoAll fuel (writeServerData key server db) hgetall key .empty =
            some loaded → loaded.HasTables server := by
  intro h
  have htables := h gsKey (namesHeartbeat [[], ascii "Bob"]) (fun _ => none) (fun _ => rfl)
    (oneRowReplies 1) (one_row_complete 1) 3 (by decide) (by decide) .empty rfl
  have hcell : (namesHeartbeat [[], ascii "Bob"]).playerKeys.Filled 1 (ascii "player_")
      (ascii "Bob") := ⟨[[], ascii "Bob"], List.mem_singleton_self _, rfl, by decide⟩
  have hloaded := (htables.1 1 (ascii "player_") (ascii "Bob")).mpr hcell
  cases hloaded

end OpenSpy.ServerBrowsing.PlayerTables
