import OpenSpy.Peerchat.Usermode

/-!
# The usermode cache

`WriteUsermodeToCache` and `LoadUsermodeFromCache` have lists of fields of their own. The host mask
is written as `hostmask` and read as `hostname`, the time when the usermode was set is never
written, the expiry is read as an `int`, and a record without a game leaves the game of an earlier
record of its id in the hash. `cache_returns_last_iff` says that a record comes back exactly if it
runs into none of these.
-/

namespace OpenSpy.Peerchat

open Bytes Redis

/-- A cache without records. -/
def UsermodeCache.empty : UsermodeCache :=
  ⟨fun _ _ => none, fun _ _ => none⟩

/-- Records written one after the other. -/
def writeUsermodesToCache (writes : List UsermodeRecord) (cache : UsermodeCache) : UsermodeCache :=
  writes.foldl (fun cache usermode => writeUsermodeToCache usermode cache) cache

/-- The hash of an id. -/
def UsermodeCache.hashOf (cache : UsermodeCache) (id : BitVec 32) : Hash :=
  cache.records (usermodeKey (printBits id))

/-- The record of an id as it is loaded into a fresh one. -/
def UsermodeCache.load (unset : UserSummary) (cache : UsermodeCache) (id : BitVec 32) :
    UsermodeRecord :=
  loadUsermodeFromCache unset (cache.hashOf id) .empty

/-- The records that are written for an id. -/
def recordsOf (id : BitVec 32) (writes : List UsermodeRecord) : List UsermodeRecord :=
  writes.filter (·.usermodeid = id)

/-- The texts of a record are C strings. -/
structure UsermodeRecord.NulFree (r : UsermodeRecord) : Prop where
  chanmask : 0 ∉ r.chanmask
  hostmask : 0 ∉ r.hostmask
  comment : 0 ∉ r.comment
  machineid : 0 ∉ r.machineid
  setByNick : 0 ∉ r.setByUserSummary.nick
  setByHost : 0 ∉ r.setByUserSummary.hostname

/-- Two records agree in all that goes through the cache. -/
structure UsermodeRecord.Same (loaded r : UsermodeRecord) : Prop where
  usermodeid : loaded.usermodeid = r.usermodeid
  chanmask : loaded.chanmask = r.chanmask
  hostmask : loaded.hostmask = r.hostmask
  comment : loaded.comment = r.comment
  machineid : loaded.machineid = r.machineid
  profileid : loaded.profileid = r.profileid
  modeflags : loaded.modeflags = r.modeflags
  hasGameid : loaded.hasGameid = r.hasGameid
  gameid : loaded.gameid = r.gameid
  expiresAt : loaded.expiresAt = r.expiresAt
  setAt : loaded.setAt = r.setAt
  setByNick : loaded.setByUserSummary.nick = r.setByUserSummary.nick
  setByHost : loaded.setByUserSummary.hostname = r.setByUserSummary.hostname
  setByPid : loaded.setByUserSummary.profileid = r.setByUserSummary.profileid

/-- The last record of an id runs into no difference between writer and reader: it has no host
mask and no time when it was set, it expires at an `int`, and it has a game unless no record of
its id has one. -/
structure ReadableLast (records : List UsermodeRecord) (r : UsermodeRecord) : Prop where
  hostmask : r.hostmask = []
  setAt : r.setAt = 0
  expiresAt : -2 ^ 31 ≤ r.expiresAt.toInt ∧ r.expiresAt.toInt < 2 ^ 31
  gameid : r.hasGameid = true ∨
    r.gameid = -1 ∧ ∀ other ∈ records, other.hasGameid = false

/-- Writing a record changes the hash of its id alone. -/
theorem hash_of_write (usermode : UsermodeRecord) (cache : UsermodeCache) (id : BitVec 32) :
    (writeUsermodeToCache usermode cache).hashOf id =
      if usermode.usermodeid = id then hmset (cache.hashOf id) (usermodeFields usermode)
      else cache.hashOf id := by
  unfold UsermodeCache.hashOf writeUsermodeToCache
  by_cases hid : usermode.usermodeid = id
  · rw [if_pos hid, ← hid]
    exact Function.update_self _ _ _
  · have hkey : usermodeKey (printBits id) ≠ usermodeKey (printBits usermode.usermodeid) :=
      fun heq => hid (usermode_key_injective heq).symm
    rw [if_neg hid]
    exact Function.update_of_ne hkey _ _

/-- So the hash of an id is made by the records of that id. -/
theorem hash_of_writes (writes : List UsermodeRecord) (cache : UsermodeCache) (id : BitVec 32) :
    (writeUsermodesToCache writes cache).hashOf id =
      (recordsOf id writes).foldl (fun hash r => hmset hash (usermodeFields r))
        (cache.hashOf id) := by
  induction writes generalizing cache with
  | nil => rfl
  | cons usermode writes ih =>
      have hstep : writeUsermodesToCache (usermode :: writes) cache =
          writeUsermodesToCache writes (writeUsermodeToCache usermode cache) := rfl
      rw [hstep, ih, hash_of_write]
      by_cases hid : usermode.usermodeid = id
      · simp [recordsOf, hid]
      · simp [recordsOf, hid]

/-- A field is in the hash if a record has it. -/
theorem field_of_writes (records : List UsermodeRecord) (hash : Hash) (field : Bytes) :
    ((records.foldl (fun hash r => hmset hash (usermodeFields r)) hash) field).isSome ↔
      (∃ r ∈ records, ∃ value, (field, value) ∈ usermodeFields r) ∨ (hash field).isSome := by
  induction records generalizing hash with
  | nil => simp
  | cons r records ih =>
      rw [List.foldl_cons, ih, hmset_isSome, List.exists_mem_cons_iff, or_left_comm, or_assoc]

/-- A field that is written is one of these. -/
theorem field_written_iff (r : UsermodeRecord) (field : Bytes) :
    (∃ value, (field, value) ∈ usermodeFields r) ↔
      field ∈ ["id", "chanmask", "hostmask", "comment", "machineid", "profileid", "modeflags",
        "isGlobal", "setByNick", "setByHost", "setByPid", "expiresAt"].map ascii ∨
        r.hasGameid = true ∧ field = ascii "gameid" := by
  have hnames : (∃ value, (field, value) ∈ usermodeFields r) ↔
      field ∈ (usermodeFields r).map Prod.fst := by
    simp [List.mem_map]
  rw [hnames]
  unfold usermodeFields
  cases r.hasGameid <;> simp [or_assoc]

/-- The fields that decide what is read of a record besides its own. -/
theorem special_fields (r : UsermodeRecord) :
    (¬ ∃ value, (ascii "hostname", value) ∈ usermodeFields r) ∧
      (¬ ∃ value, (ascii "setAt", value) ∈ usermodeFields r) ∧
        (¬ ∃ value, (ascii "setBy", value) ∈ usermodeFields r) ∧
          ((∃ value, (ascii "gameid", value) ∈ usermodeFields r) ↔ r.hasGameid = true) := by
  simp only [field_written_iff]
  cases r.hasGameid <;> decide

/-- The hash that records make of nothing, in these fields. -/
theorem special_fields_of_writes (records : List UsermodeRecord) :
    let hash := records.foldl (fun hash r => hmset hash (usermodeFields r)) fun _ => none
    hash (ascii "hostname") = none ∧ hash (ascii "setAt") = none ∧ hash (ascii "setBy") = none ∧
      (hash (ascii "gameid")).isSome = records.any (·.hasGameid) := by
  intro hash
  have hfield (field : Bytes) : (hash field).isSome ↔
      ∃ r ∈ records, ∃ value, (field, value) ∈ usermodeFields r := by
    have hwrites := field_of_writes records (fun _ => none) field
    rwa [Option.isSome_none, or_iff_left Bool.false_ne_true] at hwrites
  have habsent (field : Bytes) (hnone : ∀ r, ¬ ∃ value, (field, value) ∈ usermodeFields r) :
      hash field = none := by
    by_contra hsome
    obtain ⟨r, -, hr⟩ := (hfield field).mp (Option.isSome_iff_ne_none.mpr hsome)
    exact hnone r hr
  refine ⟨habsent _ fun r => (special_fields r).1, habsent _ fun r => (special_fields r).2.1,
    habsent _ fun r => (special_fields r).2.2.1, ?_⟩
  rw [Bool.eq_iff_iff, hfield, List.any_eq_true]
  exact exists_congr fun r => and_congr_right fun _ => (special_fields r).2.2.2

/-- The record of an id as it is loaded: what is read back of the last one that was written, and
the game of an earlier one if the last has none. -/
theorem load_last (unset : UserSummary) {writes : List UsermodeRecord} {id : BitVec 32}
    {earlier : List UsermodeRecord} {r : UsermodeRecord}
    (hlast : recordsOf id writes = earlier ++ [r]) :
    ∃ gameid, (writeUsermodesToCache writes .empty).load unset id =
        { r.readBack with
          hasGameid := r.hasGameid || earlier.any (·.hasGameid)
          gameid := if r.hasGameid then r.gameid else gameid } ∧
      (earlier.any (·.hasGameid) = false → gameid = -1) := by
  obtain ⟨hhostname, hsetAt, hsetBy, hgame⟩ := special_fields_of_writes earlier
  have hhash : (writeUsermodesToCache writes .empty).hashOf id =
      hmset (earlier.foldl (fun hash r => hmset hash (usermodeFields r)) fun _ => none)
        (usermodeFields r) := by
    have hempty : UsermodeCache.empty.hashOf id = fun _ => none := rfl
    rw [hash_of_writes, hlast, hempty, List.foldl_append, List.foldl_cons, List.foldl_nil]
  generalize earlier.foldl (fun hash r => hmset hash (usermodeFields r)) (fun _ => none) = old
    at hhostname hsetAt hsetBy hgame hhash
  refine ⟨intField 32 old "gameid" (-1), ?_, fun hnone => ?_⟩
  · rw [UsermodeCache.load, hhash, load_overwritten unset hhostname hsetAt hsetBy, hgame]
  · rw [hnone, Option.isSome_eq_false_iff, Option.isNone_iff_eq_none] at hgame
    rw [intField, hgame]
    rfl

/-- The expiry is read as an `int`. -/
theorem expiry_read_iff (expiresAt : BitVec 64) :
    readBits 64 (printBits expiresAt) = expiresAt ↔
      -2 ^ 31 ≤ expiresAt.toInt ∧ expiresAt.toInt < 2 ^ 31 := by
  rw [readBits, printBits]
  constructor
  · intro heq
    have hlow := neg_two_pow_le_atoi (printInt expiresAt.toInt)
    have hhigh := atoi_lt_two_pow (printInt expiresAt.toInt)
    have hvalue : (BitVec.ofInt 64 (atoi (printInt expiresAt.toInt))).toInt =
        atoi (printInt expiresAt.toInt) := by
      rw [BitVec.toInt_ofInt]
      exact Int.bmod_eq_of_le (by omega) (by omega)
    rw [heq] at hvalue
    omega
  · rintro ⟨hlow, hhigh⟩
    rw [atoi_print_int_self hlow hhigh, BitVec.ofInt_toInt]

/-- Loading an id gives the last record that was written for it exactly if the last record has no
host mask and no time when it was set, expires at an `int`, and has a game or no record of the id
has one. -/
theorem cache_returns_last_iff (unset : UserSummary) (writes : List UsermodeRecord)
    (id : BitVec 32) {r : UsermodeRecord} (hlast : (recordsOf id writes).getLast? = some r)
    (hnul : r.NulFree) (hlow : -2 ^ 31 ≤ r.setByUserSummary.profileid)
    (hhigh : r.setByUserSummary.profileid < 2 ^ 31) :
    ((writeUsermodesToCache writes .empty).load unset id).Same r ↔
      ReadableLast (recordsOf id writes) r := by
  obtain ⟨earlier, hrecords⟩ := List.getLast?_eq_some_iff.mp hlast
  obtain ⟨gameid, hload, hgame⟩ := load_last unset hrecords
  have hany : earlier.any (·.hasGameid) = false ↔
      ∀ other ∈ earlier, other.hasGameid = false := by
    simp
  rw [hload, hrecords]
  constructor
  · intro hsame
    refine ⟨hsame.hostmask.symm, hsame.setAt.symm, (expiry_read_iff _).mp hsame.expiresAt, ?_⟩
    cases hhas : r.hasGameid with
    | true => exact .inl rfl
    | false =>
        have hnone : earlier.any (·.hasGameid) = false := by
          simpa [hhas] using hsame.hasGameid
        have hsamegame : gameid = r.gameid := by
          simpa [hhas] using hsame.gameid
        refine .inr ⟨hsamegame ▸ hgame hnone, fun other hother => ?_⟩
        rcases List.mem_append.mp hother with hother | hother
        · exact hany.mp hnone other hother
        · rwa [List.mem_singleton.mp hother]
  · intro hreadable
    have hgames : (r.hasGameid || earlier.any (·.hasGameid)) = r.hasGameid ∧
        (if r.hasGameid = true then r.gameid else gameid) = r.gameid := by
      rcases hreadable.gameid with hhas | ⟨hunset, hnone⟩
      · simp [hhas]
      · have hhas := hnone r (by simp)
        have hearlier := hany.mpr fun other hother => hnone other (by simp [hother])
        rw [hhas, hearlier, hunset, hgame hearlier]
        exact ⟨rfl, by simp⟩
    have hpid : atoi (printInt r.setByUserSummary.profileid) = r.setByUserSummary.profileid :=
      atoi_print_int_self hlow hhigh
    exact
      { usermodeid := rfl
        chanmask := c_string_eq_self hnul.chanmask
        hostmask := hreadable.hostmask.symm
        comment := c_string_eq_self hnul.comment
        machineid := c_string_eq_self hnul.machineid
        profileid := rfl
        modeflags := rfl
        hasGameid := hgames.1
        gameid := hgames.2
        expiresAt := (expiry_read_iff _).mpr hreadable.expiresAt
        setAt := hreadable.setAt.symm
        setByNick := c_string_eq_self hnul.setByNick
        setByHost := c_string_eq_self hnul.setByHost
        setByPid := hpid }

/-- A record that is written twice over another one. -/
theorem cache_returns_comment :
    let r := { UsermodeRecord.empty with usermodeid := 1, comment := ascii "a" }
    let writes := [{ r with comment := ascii "b" }, { r with usermodeid := 2 }, r]
    (recordsOf 1 writes).getLast? = some r ∧ r.NulFree ∧
      (((writeUsermodesToCache writes .empty).load .empty 1).Same r ↔
        ReadableLast (recordsOf 1 writes) r) :=
  have hnul : UsermodeRecord.NulFree
      { UsermodeRecord.empty with usermodeid := 1, comment := ascii "a" } :=
    ⟨by decide, by decide, by decide, by decide, by decide, by decide⟩
  ⟨by decide, hnul, cache_returns_last_iff .empty _ 1 (by decide) hnul (by decide) (by decide)⟩

/-- The host mask of a ban does not come back. -/
theorem host_mask_lost :
    ¬ ∀ (unset : UserSummary) (writes : List UsermodeRecord) (id : BitVec 32) (r : UsermodeRecord),
      (recordsOf id writes).getLast? = some r → r.NulFree →
        ((writeUsermodesToCache writes .empty).load unset id).Same r := by
  intro h
  have hsame := h .empty
    [{ UsermodeRecord.empty with usermodeid := 1, hostmask := ascii "10.0.0.1" }] 1 _ rfl
    ⟨by decide, by decide, by decide, by decide, by decide, by decide⟩
  exact absurd hsame.hostmask (by decide)

end OpenSpy.Peerchat
