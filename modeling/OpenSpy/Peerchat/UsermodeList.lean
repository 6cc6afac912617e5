import OpenSpy.Peerchat.UsermodeCache

/-!
# Listing the cached usermodes

`Perform_ListUsermodes_Cached` scans for every usermode there is and loads each into the record of
its one response. `list_of_channel_iff` says when the reports are the records of the requested
channel: there is no record of another channel in the cache, and no record without a game comes
behind one with a game.
-/

namespace OpenSpy.Peerchat

open Bytes Redis

/-- A `TaskResponse`, as far as it is filled here. -/
structure ListResponse where
  channelName : Bytes
  isStart : Bool
  isEnd : Bool
  usermode : UsermodeRecord

/-- The body of the loop over the keys of a reply. `reports` are the calls of the callback. -/
def reportUsermode (unset : UserSummary) (cache : UsermodeCache)
    (state : ListResponse × List ListResponse) (key : Bytes) : ListResponse × List ListResponse :=
  let (response, reports) := state
  let response :=
    { response with
      usermode := loadUsermodeFromCache unset (cache.records (cString key)) response.usermode }
  ({ response with isStart := false }, reports ++ [response])

/-- The loop over the replies of the scan, and the report behind it. A failed command ends the
task without that report. -/
def scanUsermodes (unset : UserSummary) (cache : UsermodeCache)
    (state : ListResponse × List ListResponse) : List (Option (List Bytes)) → List ListResponse
  | [] =>
      let (response, reports) := state
      reports ++ [{ response with
        isEnd := true
        usermode := { response.usermode with usermodeid := 0 } }]
  | none :: _ => state.2
  | some keys :: replies =>
      scanUsermodes unset cache (keys.foldl (reportUsermode unset cache) state) replies

/-- `Perform_ListUsermodes_Cached`: the calls of the callback. -/
def performListUsermodesCached (unset : UserSummary) (cache : UsermodeCache) (chanmask : Bytes)
    (replies : List (Option (List Bytes))) : List ListResponse :=
  scanUsermodes unset cache (⟨chanmask, true, false, .empty⟩, []) replies

/-- The id has a record in the cache. -/
def UsermodeCache.HasId (cache : UsermodeCache) (id : BitVec 32) : Prop :=
  ∃ field, (cache.hashOf id field).isSome

/-- The replies of a complete scan for usermodes. -/
def UsermodeScan (cache : UsermodeCache) (replies : List (List Bytes)) : Prop :=
  ∀ key, (∃ reply ∈ replies, key ∈ reply) ↔ ∃ id, cache.HasId id ∧ key = usermodeKey (printBits id)

/-- The reports are the records of a channel, each as it is stored under its id, and one report
is the end. -/
structure ListsChannel (unset : UserSummary) (cache : UsermodeCache)
    (ofChannel : UsermodeRecord → Prop) (reports : List ListResponse) : Prop where
  records : ∀ record, (∃ report ∈ reports, report.isEnd = false ∧ report.usermode = record) ↔
    ∃ id, cache.HasId id ∧ cache.load unset id = record ∧ ofChannel record
  own : ∀ report ∈ reports, report.isEnd = false →
    report.usermode = cache.load unset report.usermode.usermodeid
  one_end : reports.countP (·.isEnd) = 1

/-- The game that is left in the response behind a record. -/
def nextGame (game : BitVec 32) (r : UsermodeRecord) : BitVec 32 :=
  if r.hasGameid then r.gameid else game

/-- The game of the last record with a game. -/
def carriedGame (records : List UsermodeRecord) : BitVec 32 :=
  records.foldl nextGame (-1)

/-- No record without a game comes behind a game. -/
def GamesKept (records : List UsermodeRecord) : Prop :=
  ∀ front r back, records = front ++ r :: back → r.hasGameid = false → carriedGame front = -1

/-- The records of a scan in its order, as they are stored. -/
def scannedRecords (unset : UserSummary) (cache : UsermodeCache) (replies : List (List Bytes)) :
    List UsermodeRecord :=
  replies.flatten.map fun key => loadUsermodeFromCache unset (cache.records (cString key)) .empty

/-- A record that has gone through the response before: nothing but the game of it shows in the
next one. -/
structure Carried (r : UsermodeRecord) : Prop where
  hostmask : r.hostmask = []
  setAt : r.setAt = 0
  isGlobal : r.isGlobal = false
  setBy : { r.setByUserSummary with nick := [], hostname := [], profileid := 0 } = UserSummary.empty

/-- The hash of a record that was written. -/
def WrittenHash (hash : Hash) : Prop :=
  (∀ field ∈ ["id", "chanmask", "comment", "machineid", "profileid", "modeflags", "setByNick",
    "setByHost", "setByPid", "expiresAt"], (hash (ascii field)).isSome) ∧
    ∀ field ∈ ["hostname", "setAt", "setBy"], hash (ascii field) = none

/-- A record that is loaded over another one has the game of that one if it has none. -/
theorem load_over (unset : UserSummary) {hash : Hash} (hhash : WrittenHash hash)
    {old : UsermodeRecord} (hold : Carried old) :
    loadUsermodeFromCache unset hash old =
        { loadUsermodeFromCache unset hash .empty with
          gameid := nextGame old.gameid (loadUsermodeFromCache unset hash .empty) } ∧
      Carried (loadUsermodeFromCache unset hash old) := by
  obtain ⟨hwritten, hunwritten⟩ := hhash
  have hvalue (field : String) (hfield : (hash (ascii field)).isSome) :
      ∃ value, hash (ascii field) = some value :=
    Option.isSome_iff_exists.mp hfield
  obtain ⟨id, hid⟩ := hvalue "id" (hwritten _ (by simp))
  obtain ⟨chanmask, hchanmask⟩ := hvalue "chanmask" (hwritten _ (by simp))
  obtain ⟨comment, hcomment⟩ := hvalue "comment" (hwritten _ (by simp))
  obtain ⟨machineid, hmachineid⟩ := hvalue "machineid" (hwritten _ (by simp))
  obtain ⟨profileid, hprofileid⟩ := hvalue "profileid" (hwritten _ (by simp))
  obtain ⟨modeflags, hmodeflags⟩ := hvalue "modeflags" (hwritten _ (by simp))
  obtain ⟨nick, hnick⟩ := hvalue "setByNick" (hwritten _ (by simp))
  obtain ⟨host, hhost⟩ := hvalue "setByHost" (hwritten _ (by simp))
  obtain ⟨pid, hpid⟩ := hvalue "setByPid" (hwritten _ (by simp))
  obtain ⟨expiresAt, hexpiresAt⟩ := hvalue "expiresAt" (hwritten _ (by simp))
  have hhostname := hunwritten "hostname" (by simp)
  have hsetAt := hunwritten "setAt" (by simp)
  have hsetBy := hunwritten "setBy" (by simp)
  have hsummary (nick host : Bytes) (pid : Int) :
      { old.setByUserSummary with hostname := host, profileid := pid, nick := nick } =
        { UserSummary.empty with hostname := host, profileid := pid, nick := nick } := by
    rw [← hold.setBy]
  have hload (old : UsermodeRecord) : loadUsermodeFromCache unset hash old =
      { usermodeid := readBits 32 id
        chanmask := cString chanmask
        hostmask := old.hostmask
        comment := cString comment
        machineid := cString machineid
        profileid := readBits 32 profileid
        modeflags := readBits 32 modeflags
        isGlobal := old.isGlobal
        hasGameid := (hash (ascii "gameid")).isSome
        gameid := intField 32 hash "gameid" old.gameid
        expiresAt := readBits 64 expiresAt
        setAt := old.setAt
        setByUserSummary :=
          { old.setByUserSummary with
            hostname := cString host, profileid := atoi pid, nick := cString nick } } := by
    simp only [loadUsermodeFromCache, intField, textField, hid, hchanmask, hcomment, hmachineid,
      hprofileid, hmodeflags, hnick, hhost, hpid, hexpiresAt, hhostname, hsetAt, hsetBy,
      Option.map_some, Option.map_none, Option.getD_some, Option.getD_none]
  rw [hload old, hload .empty, hsummary, hold.hostmask, hold.setAt, hold.isGlobal]
  refine ⟨?_, rfl, rfl, rfl, rfl⟩
  cases hgame : hash (ascii "gameid") with
  | none => simp [nextGame, intField, hgame, UsermodeRecord.empty]
  | some game => simp [nextGame, intField, hgame, UsermodeRecord.empty]

/-- A record without a game is loaded with the default. -/
theorem load_no_game (unset : UserSummary) (hash : Hash)
    (hgame : (loadUsermodeFromCache unset hash .empty).hasGameid = false) :
    (loadUsermodeFromCache unset hash .empty).gameid = -1 := by
  have hnone : hash (ascii "gameid") = none := by
    simpa [loadUsermodeFromCache] using hgame
  simp [loadUsermodeFromCache, intField, hnone, UsermodeRecord.empty]

/-- The records of a scan as they are reported, with the games that are left in the response. -/
def carriedRecords (game : BitVec 32) : List UsermodeRecord → List UsermodeRecord
  | [] => []
  | r :: records =>
      { r with gameid := nextGame game r } :: carriedRecords (nextGame game r) records

/-- The reports are right just if no game is left where a record has none. -/
theorem carried_records_eq_iff {records : List UsermodeRecord}
    (hdefault : ∀ r ∈ records, r.hasGameid = false → r.gameid = -1) (game : BitVec 32) :
    carriedRecords game records = records ↔
      ∀ front r back, records = front ++ r :: back → r.hasGameid = false →
        front.foldl nextGame game = -1 := by
  induction records generalizing game with
  | nil =>
      refine iff_of_true rfl ?_
      intro front r back hsplit
      simp at hsplit
  | cons r records ih =>
      have hrest := ih (fun other hother => hdefault other (List.mem_cons_of_mem r hother))
        (nextGame game r)
      have hfirst : { r with gameid := nextGame game r } = r ↔
          (r.hasGameid = false → game = -1) := by
        have hsame : { r with gameid := nextGame game r } = r ↔ nextGame game r = r.gameid :=
          ⟨fun h => congrArg UsermodeRecord.gameid h, fun h => by rw [h]⟩
        rw [hsame]
        cases hgame : r.hasGameid with
        | true => simp [nextGame, hgame]
        | false => simp [nextGame, hgame, hdefault r List.mem_cons_self hgame]
      rw [carriedRecords, List.cons.injEq, hfirst, hrest]
      constructor
      · rintro ⟨hgame, hlater⟩ front other back hsplit hnone
        cases front with
        | nil =>
            obtain ⟨rfl, -⟩ := List.cons.inj hsplit
            exact hgame hnone
        | cons first front =>
            rw [List.cons_append] at hsplit
            obtain ⟨rfl, htail⟩ := List.cons.inj hsplit
            exact hlater front other back htail hnone
      · intro hall
        exact ⟨fun hnone => hall [] r records rfl hnone, fun front other back hsplit hnone =>
          hall (r :: front) other back (by rw [hsplit, List.cons_append]) hnone⟩

/-- Every report is the record that is stored under its id just if they all are right. -/
theorem carried_own_iff {stored : BitVec 32 → UsermodeRecord} {records : List UsermodeRecord}
    (hstored : ∀ r ∈ records, stored r.usermodeid = r) (game : BitVec 32) :
    (∀ r ∈ carriedRecords game records, r = stored r.usermodeid) ↔
      carriedRecords game records = records := by
  induction records generalizing game with
  | nil => simp [carriedRecords]
  | cons r records ih =>
      have hrest := ih (fun other hother => hstored other (List.mem_cons_of_mem r hother))
        (nextGame game r)
      rw [carriedRecords, List.forall_mem_cons, hrest, List.cons.injEq]
      simp only [hstored r List.mem_cons_self]

section Scan

variable (unset : UserSummary) (cache : UsermodeCache)

/-- The calls of the callback for keys: one for each, none of them the end, with the games that
are left in the response. -/
theorem report_keys (keys : List Bytes)
    (hkeys : ∀ key ∈ keys, WrittenHash (cache.records (cString key)))
    (response : ListResponse) (reports : List ListResponse) (hold : Carried response.usermode)
    (hend : response.isEnd = false) :
    ∃ last calls, keys.foldl (reportUsermode unset cache) (response, reports) =
        (last, reports ++ calls) ∧ (∀ call ∈ calls, call.isEnd = false) ∧
      calls.map (·.usermode) = carriedRecords response.usermode.gameid
        (keys.map fun key => loadUsermodeFromCache unset (cache.records (cString key)) .empty) := by
  induction keys generalizing response reports with
  | nil => exact ⟨response, [], by simp, by simp, rfl⟩
  | cons key keys ih =>
      obtain ⟨hload, hcarried⟩ := load_over unset (hkeys key List.mem_cons_self) hold
      set record := loadUsermodeFromCache unset (cache.records (cString key)) response.usermode
      set stored := loadUsermodeFromCache unset (cache.records (cString key)) .empty
      obtain ⟨last, calls, hfold, hcalls, hrecords⟩ :=
        ih (fun other hother => hkeys other (List.mem_cons_of_mem key hother))
          { response with usermode := record, isStart := false }
          (reports ++ [{ response with usermode := record }]) hcarried hend
      have hgame : record.gameid = nextGame response.usermode.gameid stored := by
        rw [hload]
      refine ⟨last, { response with usermode := record } :: calls, ?_, ?_, ?_⟩
      · rw [List.foldl_cons, List.append_cons]
        exact hfold
      · exact List.forall_mem_cons.mpr ⟨hend, hcalls⟩
      · rw [List.map_cons, List.map_cons, hrecords, carriedRecords]
        exact congrArg₂ List.cons hload (by rw [hgame])

/-- The batches of a scan do not matter. -/
theorem scan_usermodes_eq (replies : List (List Bytes)) (state : ListResponse × List ListResponse) :
    scanUsermodes unset cache state (replies.map some) =
      scanUsermodes unset cache (replies.flatten.foldl (reportUsermode unset cache) state) [] := by
  induction replies generalizing state with
  | nil => rfl
  | cons keys replies ih =>
      have hstep : scanUsermodes unset cache state ((keys :: replies).map some) =
          scanUsermodes unset cache (keys.foldl (reportUsermode unset cache) state)
            (replies.map some) := rfl
      rw [hstep, ih, List.flatten_cons, List.foldl_append]

end Scan

section Cached

variable (unset : UserSummary) (writes : List UsermodeRecord)

/-- The ids in the cache are those that were written. -/
theorem has_id_iff (id : BitVec 32) :
    (writeUsermodesToCache writes .empty).HasId id ↔ ∃ r ∈ writes, r.usermodeid = id := by
  have hfields (field : Bytes) : ((writeUsermodesToCache writes .empty).hashOf id field).isSome ↔
      ∃ r ∈ recordsOf id writes, ∃ value, (field, value) ∈ usermodeFields r := by
    have hempty : UsermodeCache.empty.hashOf id field = none := rfl
    rw [hash_of_writes, field_of_writes, hempty, Option.isSome_none,
      or_iff_left Bool.false_ne_true]
  unfold UsermodeCache.HasId
  simp only [hfields]
  constructor
  · rintro ⟨field, r, hr, -⟩
    obtain ⟨hwritten, hid⟩ := List.mem_filter.mp hr
    exact ⟨r, hwritten, by simpa using hid⟩
  · rintro ⟨r, hr, hid⟩
    exact ⟨ascii "id", r, List.mem_filter.mpr ⟨hr, by simpa using hid⟩, _, List.mem_cons_self⟩

/-- The hash of an id that was written has the fields of the writer. -/
theorem written_hash {id : BitVec 32} (hid : (writeUsermodesToCache writes .empty).HasId id) :
    WrittenHash ((writeUsermodesToCache writes .empty).hashOf id) := by
  obtain ⟨r, hr, hrid⟩ := (has_id_iff writes id).mp hid
  have hrecord : r ∈ recordsOf id writes := List.mem_filter.mpr ⟨hr, by simpa using hrid⟩
  have hempty : UsermodeCache.empty.hashOf id = fun _ => none := rfl
  rw [hash_of_writes, hempty]
  obtain ⟨hhostname, hsetAt, hsetBy, -⟩ := special_fields_of_writes (recordsOf id writes)
  refine ⟨fun field hfield => ?_, ?_⟩
  · rw [field_of_writes]
    refine .inl ⟨r, hrecord, (field_written_iff r (ascii field)).mpr (.inl ?_)⟩
    refine List.mem_map_of_mem ?_
    revert field
    decide
  · simp only [List.forall_mem_cons, List.not_mem_nil, false_imp_iff, implies_true, and_true]
    exact ⟨hhostname, hsetAt, hsetBy⟩

/-- A record is stored with its id. -/
theorem load_usermodeid {id : BitVec 32} (hid : (writeUsermodesToCache writes .empty).HasId id) :
    ((writeUsermodesToCache writes .empty).load unset id).usermodeid = id := by
  obtain ⟨r, hr, hrid⟩ := (has_id_iff writes id).mp hid
  have hne : recordsOf id writes ≠ [] :=
    List.ne_nil_of_mem (List.mem_filter.mpr ⟨hr, by simpa using hrid⟩)
  obtain ⟨gameid, hload, -⟩ := load_last unset (List.dropLast_append_getLast hne).symm
  have hlast := (List.mem_filter.mp (List.getLast_mem hne)).2
  rw [hload]
  simpa [UsermodeRecord.readBack] using hlast

theorem c_string_usermode_key (id : BitVec 32) :
    cString (usermodeKey (printBits id)) = usermodeKey (printBits id) := by
  refine c_string_eq_self fun hmem => ?_
  rcases List.mem_append.mp hmem with hmem | hmem
  · revert hmem
    decide
  · exact print_int_no_nul id.toInt 0 hmem rfl

/-- The records of a complete scan are those in the cache. -/
theorem mem_scanned_records {replies : List (List Bytes)}
    (hscan : UsermodeScan (writeUsermodesToCache writes .empty) replies) (record : UsermodeRecord) :
    record ∈ scannedRecords unset (writeUsermodesToCache writes .empty) replies ↔
      ∃ id, (writeUsermodesToCache writes .empty).HasId id ∧
        (writeUsermodesToCache writes .empty).load unset id = record := by
  unfold scannedRecords
  simp only [List.mem_map, List.mem_flatten]
  constructor
  · rintro ⟨key, hkey, rfl⟩
    obtain ⟨id, hid, rfl⟩ := (hscan key).mp hkey
    refine ⟨id, hid, ?_⟩
    rw [c_string_usermode_key]
    rfl
  · rintro ⟨id, hid, rfl⟩
    refine ⟨_, (hscan _).mpr ⟨id, hid, rfl⟩, ?_⟩
    rw [c_string_usermode_key]
    rfl

end Cached

/-- The scan of a cache with one record. -/
theorem scan_of_one {r : UsermodeRecord} (hid : r.usermodeid = 1) :
    UsermodeScan (writeUsermodesToCache [r] .empty) [[], [ascii "USERMODE_1"]] := by
  intro key
  have hkey : usermodeKey (printBits (1 : BitVec 32)) = ascii "USERMODE_1" := by decide
  simp [has_id_iff, hid, ← hkey]

/-- A complete scan is reported as the records of the requested channel, each as it is stored,
exactly if every cached record is one of the channel and no record without a game comes behind one
with a game. `ofChannel` says which records are those of the channel. -/
theorem list_of_channel_iff (unset : UserSummary) (writes : List UsermodeRecord) (chanmask : Bytes)
    (ofChannel : UsermodeRecord → Prop) {replies : List (List Bytes)}
    (hscan : UsermodeScan (writeUsermodesToCache writes .empty) replies) :
    ListsChannel unset (writeUsermodesToCache writes .empty) ofChannel
        (performListUsermodesCached unset (writeUsermodesToCache writes .empty) chanmask
          (replies.map some)) ↔
      (∀ id, (writeUsermodesToCache writes .empty).HasId id →
          ofChannel ((writeUsermodesToCache writes .empty).load unset id)) ∧
        GamesKept (scannedRecords unset (writeUsermodesToCache writes .empty) replies) := by
  set cache := writeUsermodesToCache writes .empty with hcache
  set records := scannedRecords unset cache replies with hrecords
  have hmem := mem_scanned_records unset writes hscan
  have hkeys : ∀ key ∈ replies.flatten, WrittenHash (cache.records (cString key)) := by
    intro key hkey
    obtain ⟨id, hid, rfl⟩ := (hscan key).mp (List.mem_flatten.mp hkey)
    rw [c_string_usermode_key]
    exact written_hash writes hid
  have hstored : ∀ r ∈ records, cache.load unset r.usermodeid = r := by
    intro r hr
    obtain ⟨id, hid, rfl⟩ := (hmem r).mp hr
    rw [load_usermodeid unset writes hid]
  have hdefault : ∀ r ∈ records, r.hasGameid = false → r.gameid = -1 := by
    intro r hr
    obtain ⟨id, hid, rfl⟩ := (hmem r).mp hr
    exact load_no_game unset (cache.hashOf id)
  obtain ⟨last, calls, hfold, hcalls, hreported⟩ := report_keys unset cache replies.flatten hkeys
    ⟨chanmask, true, false, .empty⟩ [] ⟨rfl, rfl, rfl, rfl⟩ rfl
  have hreported : calls.map (·.usermode) = carriedRecords (-1) records := hreported
  obtain ⟨final, hfinal, hlist⟩ : ∃ final : ListResponse, final.isEnd = true ∧
      performListUsermodesCached unset cache chanmask (replies.map some) = calls ++ [final] := by
    rw [performListUsermodesCached, scan_usermodes_eq, hfold]
    exact ⟨{ last with isEnd := true, usermode := { last.usermode with usermodeid := 0 } }, rfl, rfl⟩
  have hreports (p : UsermodeRecord → Prop) :
      (∃ report ∈ calls ++ [final], report.isEnd = false ∧ p report.usermode) ↔
        ∃ r ∈ carriedRecords (-1) records, p r := by
    rw [← hreported]
    simp only [List.mem_append, List.mem_singleton, List.mem_map]
    constructor
    · rintro ⟨report, hreport | rfl, hend, hp⟩
      · exact ⟨report.usermode, ⟨report, hreport, rfl⟩, hp⟩
      · exact absurd hend (by rw [hfinal]; decide)
    · rintro ⟨r, ⟨report, hreport, rfl⟩, hp⟩
      exact ⟨report, .inl hreport, hcalls report hreport, hp⟩
  have hown : (∀ report ∈ calls ++ [final], report.isEnd = false →
      report.usermode = cache.load unset report.usermode.usermodeid) ↔
        carriedRecords (-1) records = records := by
    rw [← carried_own_iff hstored]
    have hnot := not_congr (hreports fun r => r ≠ cache.load unset r.usermodeid)
    simpa only [not_exists, not_and, not_not] using hnot
  have hkept : carriedRecords (-1) records = records ↔ GamesKept records :=
    carried_records_eq_iff hdefault (-1)
  rw [hlist]
  constructor
  · intro hlists
    have hsame := hown.mp hlists.own
    refine ⟨fun id hid => ?_, hkept.mp hsame⟩
    have hrecord := hlists.records (cache.load unset id)
    rw [hreports fun r => r = cache.load unset id, hsame] at hrecord
    obtain ⟨other, -, hother, hchannel⟩ :=
      hrecord.mp ⟨_, (hmem _).mpr ⟨id, hid, rfl⟩, rfl⟩
    exact hchannel
  · rintro ⟨hchannel, hgames⟩
    have hsame := hkept.mpr hgames
    refine ⟨fun record => ?_, hown.mpr hsame, ?_⟩
    · rw [hreports fun r => r = record, hsame]
      constructor
      · rintro ⟨r, hr, rfl⟩
        obtain ⟨id, hid, hload⟩ := (hmem r).mp hr
        exact ⟨id, hid, hload, hload ▸ hchannel id hid⟩
      · rintro ⟨id, hid, hload, -⟩
        exact ⟨record, (hmem record).mpr ⟨id, hid, hload⟩, rfl⟩
    · have hnone : calls.countP (·.isEnd) = 0 :=
        List.countP_eq_zero.mpr fun call hcall => by simp [hcalls call hcall]
      simp [List.countP_append, hnone, hfinal]

/-- One record with a game is cached, and listed with its channel. -/
theorem list_of_one_record :
    let writes :=
      [{ UsermodeRecord.empty with usermodeid := 1, chanmask := ascii "#a", hasGameid := true }]
    UsermodeScan (writeUsermodesToCache writes .empty) [[], [ascii "USERMODE_1"]] ∧
      (ListsChannel .empty (writeUsermodesToCache writes .empty) (·.chanmask = ascii "#a")
          (performListUsermodesCached .empty (writeUsermodesToCache writes .empty) (ascii "#a")
            ([[], [ascii "USERMODE_1"]].map some)) ↔
        (∀ id, (writeUsermodesToCache writes .empty).HasId id →
            ((writeUsermodesToCache writes .empty).load .empty id).chanmask = ascii "#a") ∧
          GamesKept (scannedRecords .empty (writeUsermodesToCache writes .empty)
            [[], [ascii "USERMODE_1"]])) := by
  intro writes
  have hscan : UsermodeScan (writeUsermodesToCache writes .empty) [[], [ascii "USERMODE_1"]] :=
    scan_of_one rfl
  exact ⟨hscan, list_of_channel_iff .empty writes (ascii "#a") (·.chanmask = ascii "#a") hscan⟩

/-- The record of another channel is listed, too. -/
theorem other_channel_listed :
    ¬ ∀ (unset : UserSummary) (writes : List UsermodeRecord) (chanmask : Bytes)
      (replies : List (List Bytes)),
      UsermodeScan (writeUsermodesToCache writes .empty) replies →
        ListsChannel unset (writeUsermodesToCache writes .empty) (·.chanmask = chanmask)
          (performListUsermodesCached unset (writeUsermodesToCache writes .empty) chanmask
            (replies.map some)) := by
  intro h
  let r := { UsermodeRecord.empty with usermodeid := 1, chanmask := ascii "#a" }
  let reports := performListUsermodesCached .empty (writeUsermodesToCache [r] .empty) (ascii "#b")
    ([[], [ascii "USERMODE_1"]].map some)
  have hlists := h .empty [r] (ascii "#b") _ (scan_of_one rfl)
  have hreport : ∃ report ∈ reports, report.isEnd = false ∧ report.usermode.chanmask ≠ ascii "#b" :=
    ⟨reports.head (by decide), List.head_mem _, by decide, by decide⟩
  obtain ⟨report, hmem, hend, hother⟩ := hreport
  obtain ⟨id, -, -, hchannel⟩ := (hlists.records report.usermode).mp ⟨report, hmem, hend, rfl⟩
  exact hother hchannel

end OpenSpy.Peerchat
