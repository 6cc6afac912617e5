import OpenSpy.Core.Match
import OpenSpy.Core.Strings
import OpenSpy.Library.Redis
import OpenSpy.Peerchat.UserSummary

/-!
# Usermode records

A usermode record gives flags to the users that its constraints name. It is written to the hash
`USERMODE_<id>`, its id is a field of the hash `channel_<id>_usermodes`, and
`getEffectiveUsermode` reads both to collect the flags of a user who joins.
`effective_usermode_iff` says when these are the flags of exactly the records that name him.
-/

namespace OpenSpy.Peerchat

open Bytes Redis

/-- `UsermodeRecord`. -/
structure UsermodeRecord where
  usermodeid : BitVec 32
  chanmask : Bytes
  hostmask : Bytes
  comment : Bytes
  machineid : Bytes
  profileid : BitVec 32
  modeflags : BitVec 32
  isGlobal : Bool
  expiresAt : BitVec 64
  setAt : BitVec 64
  setByUserSummary : UserSummary
  hasGameid : Bool
  gameid : BitVec 32
  deriving DecidableEq, Repr

/-- `UsermodeRecord::UsermodeRecord()`. -/
def UsermodeRecord.empty : UsermodeRecord :=
  ⟨0, [], [], [], [], 0, 0, false, 0, 0, .empty, false, -1⟩

/-- The keys of usermodes: the records by their key, and the usermodes of each channel. -/
structure UsermodeCache where
  records : Bytes → Hash
  channels : BitVec 32 → Hash

/-- An integer as an `ostream` writes it. -/
def printBits {width : Nat} (n : BitVec width) : Bytes :=
  printInt n.toInt

/-- `atoi` of a reply. -/
def readBits (width : Nat) (value : Bytes) : BitVec width :=
  BitVec.ofInt width (atoi value)

/-- The key of a record, whose id is printed. -/
def usermodeKey (id : Bytes) : Bytes :=
  ascii "USERMODE_" ++ id

/-- The fields that `WriteUsermodeToCache` writes. The game is left out if there is none. -/
def usermodeFields (usermode : UsermodeRecord) : List (Bytes × Bytes) :=
  [(ascii "id", printBits usermode.usermodeid),
    (ascii "chanmask", cString usermode.chanmask),
    (ascii "hostmask", cString usermode.hostmask),
    (ascii "comment", cString usermode.comment),
    (ascii "machineid", cString usermode.machineid),
    (ascii "profileid", printBits usermode.profileid),
    (ascii "modeflags", printBits usermode.modeflags),
    (ascii "isGlobal", if 0 < usermode.usermodeid.toInt then ascii "1" else ascii "0"),
    (ascii "setByNick", cString usermode.setByUserSummary.nick),
    (ascii "setByHost", cString usermode.setByUserSummary.hostname),
    (ascii "setByPid", printInt usermode.setByUserSummary.profileid),
    (ascii "expiresAt", printBits usermode.expiresAt)] ++
  if usermode.hasGameid then [(ascii "gameid", printBits usermode.gameid)] else []

/-- `WriteUsermodeToCache`. -/
def writeUsermodeToCache (usermode : UsermodeRecord) (cache : UsermodeCache) : UsermodeCache :=
  let key := usermodeKey (printBits usermode.usermodeid)
  { cache with
    records := Function.update cache.records key
      (hmset (cache.records key) (usermodeFields usermode)) }

/-- `AssociateUsermodeToChannel`. -/
def associateUsermodeToChannel (record : UsermodeRecord) (channelId : BitVec 32)
    (cache : UsermodeCache) : UsermodeCache :=
  { cache with
    channels := Function.update cache.channels channelId
      (hmset (cache.channels channelId)
        [(printBits record.usermodeid, cString record.chanmask)]) }

/-- An integer of a reply to `HMGET`, if the field is there. -/
def intField (width : Nat) (hash : Hash) (field : String) (old : BitVec width) : BitVec width :=
  ((hash (ascii field)).map (readBits width)).getD old

/-- A text of a reply to `HMGET`, if the field is there. -/
def textField (hash : Hash) (field : String) (old : Bytes) : Bytes :=
  ((hash (ascii field)).map cString).getD old

/-- `LoadUsermodeFromCache`. The host mask is read from a field that is never written. `unset`
is the memory of a `UserSummary` that is made from a text. -/
def loadUsermodeFromCache (unset : UserSummary) (hash : Hash) (record : UsermodeRecord) :
    UsermodeRecord where
  usermodeid := intField 32 hash "id" record.usermodeid
  chanmask := textField hash "chanmask" record.chanmask
  hostmask := textField hash "hostname" record.hostmask
  comment := textField hash "comment" record.comment
  machineid := textField hash "machineid" record.machineid
  profileid := intField 32 hash "profileid" record.profileid
  modeflags := intField 32 hash "modeflags" record.modeflags
  isGlobal := record.isGlobal
  hasGameid := (hash (ascii "gameid")).isSome
  gameid := intField 32 hash "gameid" record.gameid
  expiresAt := intField 64 hash "expiresAt" record.expiresAt
  setAt := intField 64 hash "setAt" record.setAt
  setByUserSummary :=
    match hash (ascii "setBy") with
    | some setBy => UserSummary.ofString unset (cString setBy)
    | none =>
        { record.setByUserSummary with
          hostname := textField hash "setByHost" record.setByUserSummary.hostname
          profileid := ((hash (ascii "setByPid")).map atoi).getD record.setByUserSummary.profileid
          nick := textField hash "setByNick" record.setByUserSummary.nick }

/-- The test of a mask in `UsermodeMatchesUser`, which rejects the user. -/
def rejectsText (mask text : Bytes) : Bool :=
  mask.length > 0 && (sameText mask text || matchMask (cString mask) (cString text) != 0)

/-- The switch over the game of a usermode. -/
def gameidMatches (usermode : UsermodeRecord) (summary : UserSummary) : Bool :=
  if usermode.hasGameid then
    if usermode.gameid = -2 then
      if summary.gameid ≠ -1 then false else true
    else if usermode.gameid = -3 then true
    else if usermode.gameid = -4 then
      if summary.gameid = -1 then false else true
    else if summary.gameid ≠ usermode.gameid.toInt then false
    else true
  else true

/-- `UsermodeMatchesUser`. -/
def usermodeMatchesUser (usermode : UsermodeRecord) (summary : UserSummary) : Bool :=
  if usermode.profileid ≠ 0 ∧ summary.profileid ≠ usermode.profileid.toInt then false
  else if rejectsText usermode.hostmask summary.hostname then false
  else if rejectsText usermode.machineid summary.realname then false
  else gameidMatches usermode summary

/-- The body of the loop over the fields of a reply. -/
def addUsermode (unset : UserSummary) (cache : UsermodeCache) (summary : UserSummary)
    (modeflags : BitVec 32) (field : Bytes) : BitVec 32 :=
  let record := loadUsermodeFromCache unset (cache.records (usermodeKey (cString field))) .empty
  if usermodeMatchesUser record summary then modeflags ||| record.modeflags else modeflags

/-- `getEffectiveUsermode`, with the replies of the `HSCAN` of the channel's usermodes. A failed
command ends the scan. -/
def getEffectiveUsermode (unset : UserSummary) (cache : UsermodeCache) (summary : UserSummary) :
    List (Option (List Bytes)) → BitVec 32 → BitVec 32
  | [], modeflags => modeflags
  | none :: _, modeflags => modeflags
  | some fields :: replies, modeflags =>
      getEffectiveUsermode unset cache summary replies
        (fields.foldl (addUsermode unset cache summary) modeflags)

/-- Records written and associated with channels, one after the other. -/
def writeUsermodes (cache : UsermodeCache) (writes : List (UsermodeRecord × BitVec 32)) :
    UsermodeCache :=
  writes.foldl (fun cache write =>
    associateUsermodeToChannel write.1 write.2 (writeUsermodeToCache write.1 cache)) cache

/-- The records associated with a channel. -/
def usermodesOf (channelId : BitVec 32) (writes : List (UsermodeRecord × BitVec 32)) :
    List UsermodeRecord :=
  (writes.filter fun write => write.2 = channelId).map Prod.fst

/-- The bitwise or of the flags of records. -/
def flagsOf (records : List UsermodeRecord) : BitVec 32 :=
  records.foldl (fun flags record => flags ||| record.modeflags) 0

/-- The profile is unset or the user's. -/
def UsermodeRecord.ProfileFits (record : UsermodeRecord) (user : UserSummary) : Prop :=
  record.profileid = 0 ∨ user.profileid = record.profileid.toInt

/-- The mask is empty, or it is the text or matches it. -/
def TextFits (mask text : Bytes) : Prop :=
  cString mask = [] ∨ sameText mask text ∨ maskMatches (cString mask) (cString text)

/-- The game is unset, the user's, or a special value for him: -2 without encryption, -3 for
every user and -4 with encryption. -/
def UsermodeRecord.GameFits (record : UsermodeRecord) (user : UserSummary) : Prop :=
  record.hasGameid = false ∨ (record.gameid = -2 ∧ user.gameid = -1) ∨ record.gameid = -3 ∨
    (record.gameid = -4 ∧ user.gameid ≠ -1) ∨
    (record.gameid ∉ [-2, -3, -4] ∧ user.gameid = record.gameid.toInt)

/-- The user satisfies the constraints of the record. -/
def UsermodeRecord.Satisfied (record : UsermodeRecord) (user : UserSummary) : Prop :=
  record.ProfileFits user ∧ TextFits record.hostmask user.hostname ∧
    TextFits record.machineid user.realname ∧ record.GameFits user

/-- The constraints that take effect: the host mask is left out, and a machine id has to match
the real name without being equal to it. -/
def UsermodeRecord.Applied (record : UsermodeRecord) (user : UserSummary) : Prop :=
  record.ProfileFits user ∧ (cString record.machineid = [] ∨
    ¬ sameText record.machineid user.realname ∧
      maskMatches (cString record.machineid) (cString user.realname)) ∧ record.GameFits user

/-- Every flag of the record is one of some record in a list. -/
def UsermodeRecord.CoveredBy (record : UsermodeRecord) (records : List UsermodeRecord) : Prop :=
  ∀ bit, record.modeflags.getLsbD bit → ∃ other ∈ records, other.modeflags.getLsbD bit

instance (mask text : Bytes) : Decidable (TextFits mask text) :=
  inferInstanceAs (Decidable (_ ∨ _))

instance (record : UsermodeRecord) (user : UserSummary) : Decidable (record.ProfileFits user) :=
  inferInstanceAs (Decidable (_ ∨ _))

instance (record : UsermodeRecord) (user : UserSummary) : Decidable (record.GameFits user) :=
  inferInstanceAs (Decidable (_ ∨ _ ∨ _ ∨ _ ∨ _))

instance (record : UsermodeRecord) (user : UserSummary) : Decidable (record.Satisfied user) :=
  inferInstanceAs (Decidable (_ ∧ _ ∧ _ ∧ _))

instance (record : UsermodeRecord) (user : UserSummary) : Decidable (record.Applied user) :=
  inferInstanceAs (Decidable (_ ∧ _ ∧ _))

/-- An `int` is read back as it was printed. -/
theorem read_print_bits (n : BitVec 32) : readBits 32 (printBits n) = n := by
  have hlow : -2 ^ 31 ≤ n.toInt := by simpa using n.le_toInt
  have hhigh : n.toInt < 2 ^ 31 := by simpa using n.toInt_lt
  rw [readBits, printBits, atoi_print_int_self hlow hhigh, BitVec.ofInt_toInt]

/-- A printed number is a C string. -/
theorem c_string_print_bits (n : BitVec 32) : cString (printBits n) = printBits n :=
  c_string_print_int n.toInt

/-- Records have different keys if their ids are different. -/
theorem usermode_key_injective {a b : BitVec 32}
    (h : usermodeKey (printBits a) = usermodeKey (printBits b)) : a = b := by
  have hprint := congrArg (readBits 32) (List.append_cancel_left h)
  rwa [read_print_bits, read_print_bits] at hprint

/-- A record as it is read back. The host mask is gone. -/
def UsermodeRecord.readBack (r : UsermodeRecord) : UsermodeRecord where
  usermodeid := r.usermodeid
  chanmask := cString r.chanmask
  hostmask := []
  comment := cString r.comment
  machineid := cString r.machineid
  profileid := r.profileid
  modeflags := r.modeflags
  isGlobal := false
  expiresAt := readBits 64 (printBits r.expiresAt)
  setAt := 0
  setByUserSummary :=
    { UserSummary.empty with
      nick := cString r.setByUserSummary.nick
      hostname := cString r.setByUserSummary.hostname
      profileid := atoi (printInt r.setByUserSummary.profileid) }
  hasGameid := r.hasGameid
  gameid := if r.hasGameid then r.gameid else -1

/-- The reader asks for three fields that are never written. -/
theorem unwritten_field {hash : Hash} {field : Bytes}
    (hfield : field ∈ [ascii "hostname", ascii "setAt", ascii "setBy"]) (hnone : hash field = none)
    (r : UsermodeRecord) :
    ((usermodeFields r).reverse.lookup field).or (hash field) = none := by
  have hlookup : (usermodeFields r).reverse.lookup field = none := by
    unfold usermodeFields
    simp only [List.mem_cons, List.not_mem_nil, or_false] at hfield
    cases r.hasGameid <;> rcases hfield with rfl | rfl | rfl <;> rfl
  rw [hlookup, hnone]
  rfl

/-- What the reader makes of a record that is written over an old hash: a game of the old hash
stays if the record has none. -/
theorem load_overwritten (unset : UserSummary) {hash : Hash}
    (hhostname : hash (ascii "hostname") = none) (hsetAt : hash (ascii "setAt") = none)
    (hsetBy : hash (ascii "setBy") = none) (r : UsermodeRecord) :
    loadUsermodeFromCache unset (hmset hash (usermodeFields r)) .empty =
      { r.readBack with
        hasGameid := r.hasGameid || (hash (ascii "gameid")).isSome
        gameid := if r.hasGameid then r.gameid else intField 32 hash "gameid" (-1) } := by
  have hhash : hmset hash (usermodeFields r) =
      fun field => ((usermodeFields r).reverse.lookup field).or (hash field) := by
    funext field
    rw [hmset_apply]
  have hname := unwritten_field (by simp) hhostname r
  have hat := unwritten_field (by simp) hsetAt r
  have hby := unwritten_field (by simp) hsetBy r
  rw [hhash, loadUsermodeFromCache, UsermodeRecord.readBack, UsermodeRecord.mk.injEq]
  simp only [textField, intField, hname, hat, hby]
  obtain ⟨id, chanmask, hostmask, comment, machineid, profileid, modeflags, isGlobal, expiresAt,
    setAt, setBy, hasGameid, gameid⟩ := r
  have hsummary : { UserSummary.empty with
      hostname := cString (cString setBy.hostname)
      profileid := atoi (printInt setBy.profileid)
      nick := cString (cString setBy.nick) } =
      { UserSummary.empty with
        nick := cString setBy.nick
        hostname := cString setBy.hostname
        profileid := atoi (printInt setBy.profileid) } := by
    rw [c_string_c_string, c_string_c_string]
  cases hasGameid
  · exact ⟨read_print_bits id, c_string_c_string chanmask, rfl, c_string_c_string comment,
      c_string_c_string machineid, read_print_bits profileid, read_print_bits modeflags, rfl, rfl,
      rfl, hsummary, rfl, rfl⟩
  · exact ⟨read_print_bits id, c_string_c_string chanmask, rfl, c_string_c_string comment,
      c_string_c_string machineid, read_print_bits profileid, read_print_bits modeflags, rfl, rfl,
      rfl, hsummary, rfl, read_print_bits gameid⟩

/-- What the reader makes of the fields of the writer. -/
theorem load_written (unset : UserSummary) (r : UsermodeRecord) :
    loadUsermodeFromCache unset (hmset (fun _ => none) (usermodeFields r)) .empty =
      r.readBack := by
  rw [load_overwritten unset rfl rfl rfl]
  simp [UsermodeRecord.readBack, intField]

/-- A mask test passes for an empty mask, and otherwise for a text that it matches and that
differs from it. -/
theorem rejects_text_iff (mask text : Bytes) :
    rejectsText (cString mask) text = false ↔ cString mask = [] ∨
      ¬ sameText mask text ∧ maskMatches (cString mask) (cString text) := by
  have hsame : sameText (cString mask) text = sameText mask text := by
    simp only [sameText, c_string_c_string]
  have hmatch := match_mask_iff (cString mask) (cString text)
  rw [rejectsText, hsame, c_string_c_string]
  by_cases hnil : cString mask = []
  · simp [hnil]
  · have hpos := List.length_pos_of_ne_nil hnil
    simp [hpos, hnil, ← hmatch]

/-- The switch tests the game. -/
theorem gameid_matches_iff (r : UsermodeRecord) (user : UserSummary) :
    gameidMatches r user ↔ r.GameFits user := by
  unfold gameidMatches UsermodeRecord.GameFits
  cases r.hasGameid with
  | false => simp
  | true =>
      by_cases hplain : r.gameid = -2
      · simp [hplain]
      by_cases hany : r.gameid = -3
      · simp [hany]
      by_cases hencrypted : r.gameid = -4
      · simp [hencrypted]
      have hother : r.gameid ∉ [-2, -3, -4] := by
        simp only [List.mem_cons, List.not_mem_nil, or_false, not_or]
        exact ⟨hplain, hany, hencrypted⟩
      simp only [if_true, hplain, hany, hencrypted, if_false, hother, false_and, false_or,
        not_false_eq_true, true_and, Bool.true_eq_false]
      split <;> simp_all

/-- A record takes effect on the users that it is applied to. -/
theorem matches_read_back (r : UsermodeRecord) (user : UserSummary) :
    usermodeMatchesUser r.readBack user ↔ r.Applied user := by
  have hmachine := rejects_text_iff r.machineid user.realname
  have hgame : gameidMatches r.readBack user ↔ r.GameFits user := by
    rw [← gameid_matches_iff]
    unfold gameidMatches UsermodeRecord.readBack
    cases r.hasGameid <;> simp
  have hhost : rejectsText r.readBack.hostmask user.hostname = false := rfl
  have hprofile : ¬ (r.profileid ≠ 0 ∧ user.profileid ≠ r.profileid.toInt) ↔
      r.ProfileFits user := by
    unfold UsermodeRecord.ProfileFits
    tauto
  rw [UsermodeRecord.Applied, ← hprofile, ← hmachine, ← hgame]
  have htests : ∀ (p : Prop) [Decidable p] (machine game : Bool),
      (if p then false else if false then false else if machine then false else game) = true ↔
        ¬ p ∧ machine = false ∧ game = true := by
    intro p _ machine game
    by_cases hp : p <;> cases machine <;> simp [hp]
  unfold usermodeMatchesUser
  rw [hhost]
  exact htests _ _ _

/-- A record that is applied satisfies everything but perhaps the host mask. -/
theorem applied_and_host (r : UsermodeRecord) (user : UserSummary) :
    r.Applied user ∧ TextFits r.hostmask user.hostname ↔ r.Satisfied user ∧
      ¬ (cString r.machineid ≠ [] ∧ sameText r.machineid user.realname) := by
  unfold UsermodeRecord.Applied UsermodeRecord.Satisfied
  rw [show TextFits r.machineid user.realname ↔ cString r.machineid = [] ∨
    sameText r.machineid user.realname ∨
      maskMatches (cString r.machineid) (cString user.realname) from Iff.rfl]
  tauto

/-- The loop over the fields of a reply collects the flags of the records that match. -/
theorem fold_usermodes_bit (unset : UserSummary) (cache : UsermodeCache) (user : UserSummary)
    (fields : List Bytes) (flags : BitVec 32) (bit : Nat) :
    (fields.foldl (addUsermode unset cache user) flags).getLsbD bit ↔ flags.getLsbD bit ∨
      ∃ field ∈ fields, (addUsermode unset cache user 0 field).getLsbD bit := by
  induction fields generalizing flags with
  | nil => simp
  | cons field fields ih =>
      rw [List.foldl_cons, ih]
      have hadd : (addUsermode unset cache user flags field).getLsbD bit ↔
          flags.getLsbD bit ∨ (addUsermode unset cache user 0 field).getLsbD bit := by
        simp only [addUsermode]
        split <;> simp
      rw [hadd, List.exists_mem_cons_iff, or_assoc]

/-- So does a scan without a failed command. -/
theorem effective_usermode_bit (unset : UserSummary) (cache : UsermodeCache) (user : UserSummary)
    (replies : List (List Bytes)) (flags : BitVec 32) (bit : Nat) :
    (getEffectiveUsermode unset cache user (replies.map some) flags).getLsbD bit ↔
      flags.getLsbD bit ∨ ∃ reply ∈ replies, ∃ field ∈ reply,
        (addUsermode unset cache user 0 field).getLsbD bit := by
  induction replies generalizing flags with
  | nil => simp [getEffectiveUsermode]
  | cons reply replies ih =>
      rw [List.map_cons, getEffectiveUsermode, ih, fold_usermodes_bit, List.exists_mem_cons_iff,
        or_assoc]

/-- The flags of records, bit by bit. -/
theorem flags_of_bit (records : List UsermodeRecord) (bit : Nat) :
    (flagsOf records).getLsbD bit ↔ ∃ r ∈ records, r.modeflags.getLsbD bit := by
  have hfold : ∀ flags : BitVec 32,
      (records.foldl (fun flags record => flags ||| record.modeflags) flags).getLsbD bit ↔
        flags.getLsbD bit ∨ ∃ r ∈ records, r.modeflags.getLsbD bit := by
    induction records with
    | nil => simp
    | cons r records ih =>
        intro flags
        rw [List.foldl_cons, ih, List.exists_mem_cons_iff, BitVec.getLsbD_or, Bool.or_eq_true,
          or_assoc]
  rw [flagsOf, hfold]
  simp

/-- Writing a record changes its own hash alone. -/
theorem write_usermode_records (w : UsermodeRecord × BitVec 32) (cache : UsermodeCache)
    (id : BitVec 32) :
    (associateUsermodeToChannel w.1 w.2 (writeUsermodeToCache w.1 cache)).records
        (usermodeKey (printBits id)) =
      if id = w.1.usermodeid then
        hmset (cache.records (usermodeKey (printBits id))) (usermodeFields w.1)
      else cache.records (usermodeKey (printBits id)) := by
  by_cases hid : id = w.1.usermodeid
  · subst hid
    simp [associateUsermodeToChannel, writeUsermodeToCache]
  · have hkey : usermodeKey (printBits id) ≠ usermodeKey (printBits w.1.usermodeid) :=
      fun h => hid (usermode_key_injective h)
    simp [associateUsermodeToChannel, writeUsermodeToCache, hid, Function.update_of_ne hkey]

/-- Associating a record adds its id to the usermodes of its channel. -/
theorem write_usermode_channels (w : UsermodeRecord × BitVec 32) (cache : UsermodeCache)
    (channelId : BitVec 32) (field : Bytes) :
    ((associateUsermodeToChannel w.1 w.2 (writeUsermodeToCache w.1 cache)).channels channelId
        field).isSome ↔
      (cache.channels channelId field).isSome ∨
        (w.2 = channelId ∧ field = printBits w.1.usermodeid) := by
  by_cases hchannel : channelId = w.2
  · subst hchannel
    by_cases hfield : field = printBits w.1.usermodeid
    · simp [associateUsermodeToChannel, writeUsermodeToCache, hmset, hfield]
    · simp [associateUsermodeToChannel, writeUsermodeToCache, hmset, hfield]
  · have hne : w.2 ≠ channelId := Ne.symm hchannel
    simp [associateUsermodeToChannel, writeUsermodeToCache, hchannel, hne]

/-- The usermodes of a channel after the writes. -/
theorem write_usermodes_channels (cache : UsermodeCache)
    (writes : List (UsermodeRecord × BitVec 32)) (channelId : BitVec 32) (field : Bytes) :
    ((writeUsermodes cache writes).channels channelId field).isSome ↔
      (cache.channels channelId field).isSome ∨
        ∃ r ∈ usermodesOf channelId writes, field = printBits r.usermodeid := by
  induction writes generalizing cache with
  | nil => simp [writeUsermodes, usermodesOf]
  | cons w writes ih =>
      have hstep : writeUsermodes cache (w :: writes) = writeUsermodes
        (associateUsermodeToChannel w.1 w.2 (writeUsermodeToCache w.1 cache)) writes := rfl
      rw [hstep, ih, write_usermode_channels, or_assoc]
      by_cases hchannel : w.2 = channelId
      · simp [usermodesOf, hchannel]
      · simp [usermodesOf, hchannel]

/-- A second write of the same record changes nothing. -/
theorem hmset_hmset (hash : Hash) (pairs : List (Bytes × Bytes)) :
    hmset (hmset hash pairs) pairs = hmset hash pairs := by
  funext field
  rw [hmset_apply, hmset_apply]
  cases pairs.reverse.lookup field <;> rfl

/-- The hash of a record that is not written. -/
theorem write_usermodes_other (cache : UsermodeCache)
    {writes : List (UsermodeRecord × BitVec 32)} {id : BitVec 32}
    (hid : ∀ w ∈ writes, w.1.usermodeid ≠ id) :
    (writeUsermodes cache writes).records (usermodeKey (printBits id)) =
      cache.records (usermodeKey (printBits id)) := by
  induction writes generalizing cache with
  | nil => rfl
  | cons w writes ih =>
      have hstep : writeUsermodes cache (w :: writes) = writeUsermodes
        (associateUsermodeToChannel w.1 w.2 (writeUsermodeToCache w.1 cache)) writes := rfl
      rw [hstep, ih _ fun v hv => hid v (by simp [hv]), write_usermode_records,
        if_neg (Ne.symm (hid w (by simp)))]

/-- The hash of a record after the writes, where an id stands for one record. -/
theorem write_usermodes_records (cache : UsermodeCache)
    {writes : List (UsermodeRecord × BitVec 32)}
    (hids : ∀ w ∈ writes, ∀ v ∈ writes, w.1.usermodeid = v.1.usermodeid → w.1 = v.1)
    {w : UsermodeRecord × BitVec 32} (hw : w ∈ writes) :
    (writeUsermodes cache writes).records (usermodeKey (printBits w.1.usermodeid)) =
      hmset (cache.records (usermodeKey (printBits w.1.usermodeid))) (usermodeFields w.1) := by
  induction writes using List.reverseRecOn generalizing w with
  | nil => simp at hw
  | append_singleton writes last ih =>
      have hstep : writeUsermodes cache (writes ++ [last]) =
          associateUsermodeToChannel last.1 last.2
            (writeUsermodeToCache last.1 (writeUsermodes cache writes)) := by
        simp [writeUsermodes]
      have hbefore : ∀ v ∈ writes, (writeUsermodes cache writes).records
          (usermodeKey (printBits v.1.usermodeid)) =
            hmset (cache.records (usermodeKey (printBits v.1.usermodeid))) (usermodeFields v.1) :=
        fun v hv => ih (fun a ha b hb => hids a (by simp [ha]) b (by simp [hb])) hv
      rw [hstep, write_usermode_records]
      by_cases hid : w.1.usermodeid = last.1.usermodeid
      · have hsame : w.1 = last.1 := hids w hw last (by simp) hid
        rw [if_pos hid, ← hsame]
        by_cases hwritten : ∃ v ∈ writes, v.1.usermodeid = w.1.usermodeid
        · obtain ⟨v, hv, hvid⟩ := hwritten
          have hvsame : v.1 = w.1 := hids v (by simp [hv]) w hw hvid
          rw [← hvsame, hbefore v hv, hmset_hmset]
        · rw [write_usermodes_other cache (by simpa using hwritten)]
      · have hin : w ∈ writes := by
          rcases List.mem_append.mp hw with h | h
          · exact h
          · exact absurd (by rw [List.mem_singleton.mp h]) hid
        rw [if_neg hid, hbefore w hin]

/-- The flags that are collected are those of the records that are applied. -/
theorem effective_usermode_applied (unset : UserSummary) {cache : UsermodeCache}
    {writes : List (UsermodeRecord × BitVec 32)} {channelId : BitVec 32}
    (hids : ∀ w ∈ writes, ∀ v ∈ writes, w.1.usermodeid = v.1.usermodeid → w.1 = v.1)
    (hfresh : ∀ w ∈ writes, cache.records (usermodeKey (printBits w.1.usermodeid)) = fun _ => none)
    (hchannel : cache.channels channelId = fun _ => none) {replies : List (List Bytes)}
    (hscan : HScan ((writeUsermodes cache writes).channels channelId) replies)
    (user : UserSummary) (bit : Nat) :
    (getEffectiveUsermode unset (writeUsermodes cache writes) user (replies.map some) 0).getLsbD
        bit ↔
      ∃ r ∈ usermodesOf channelId writes, r.Applied user ∧ r.modeflags.getLsbD bit := by
  have hadd : ∀ r ∈ usermodesOf channelId writes,
      ((addUsermode unset (writeUsermodes cache writes) user 0 (printBits r.usermodeid)).getLsbD
        bit ↔ r.Applied user ∧ r.modeflags.getLsbD bit) := by
    intro r hr
    obtain ⟨w, hw, rfl⟩ : ∃ w ∈ writes, w.1 = r := by
      obtain ⟨w, hw, rfl⟩ := List.mem_map.mp hr
      exact ⟨w, (List.mem_filter.mp hw).1, rfl⟩
    have hload : loadUsermodeFromCache unset ((writeUsermodes cache writes).records
        (usermodeKey (cString (printBits w.1.usermodeid)))) .empty = w.1.readBack := by
      rw [c_string_print_bits, write_usermodes_records cache hids hw, hfresh w hw, load_written]
    simp only [addUsermode, hload, ← matches_read_back]
    split <;> simp_all [UsermodeRecord.readBack]
  have hfield : ∀ field, (∃ reply ∈ replies, field ∈ reply) ↔
      ∃ r ∈ usermodesOf channelId writes, field = printBits r.usermodeid := by
    intro field
    rw [hscan field, write_usermodes_channels, hchannel]
    simp
  rw [effective_usermode_bit]
  constructor
  · rintro (hzero | ⟨reply, hreply, field, hmem, hbit⟩)
    · simp at hzero
    · obtain ⟨r, hr, rfl⟩ := (hfield field).mp ⟨reply, hreply, hmem⟩
      exact ⟨r, hr, (hadd r hr).mp hbit⟩
  · rintro ⟨r, hr, hbit⟩
    obtain ⟨reply, hreply, hmem⟩ := (hfield _).mpr ⟨r, hr, rfl⟩
    exact .inr ⟨reply, hreply, _, hmem, (hadd r hr).mpr hbit⟩

/-- A user gets the flags of exactly the records that he satisfies if and only if the flags of
every record whose host mask should have kept him out belong to a record that he satisfies, and
the flags of every record that names his real name belong to one that is applied. -/
theorem effective_usermode_iff (unset : UserSummary) {cache : UsermodeCache}
    {writes : List (UsermodeRecord × BitVec 32)} {channelId : BitVec 32}
    (hids : ∀ w ∈ writes, ∀ v ∈ writes, w.1.usermodeid = v.1.usermodeid → w.1 = v.1)
    (hfresh : ∀ w ∈ writes, cache.records (usermodeKey (printBits w.1.usermodeid)) = fun _ => none)
    (hchannel : cache.channels channelId = fun _ => none) {replies : List (List Bytes)}
    (hscan : HScan ((writeUsermodes cache writes).channels channelId) replies)
    (user : UserSummary) :
    getEffectiveUsermode unset (writeUsermodes cache writes) user (replies.map some) 0 =
        flagsOf ((usermodesOf channelId writes).filter (·.Satisfied user)) ↔
      (∀ r ∈ usermodesOf channelId writes,
        r.Applied user → ¬ TextFits r.hostmask user.hostname →
          r.CoveredBy ((usermodesOf channelId writes).filter (·.Satisfied user))) ∧
      (∀ r ∈ usermodesOf channelId writes,
        r.Satisfied user → cString r.machineid ≠ [] → sameText r.machineid user.realname →
          r.CoveredBy ((usermodesOf channelId writes).filter (·.Applied user))) := by
  have hleft := effective_usermode_applied unset hids hfresh hchannel hscan user
  have happlied : ∀ r : UsermodeRecord, r.Applied user → ¬ r.Satisfied user →
      ¬ TextFits r.hostmask user.hostname :=
    fun r happly hsat hhost => hsat ((applied_and_host r user).mp ⟨happly, hhost⟩).1
  have hdropped : ∀ r : UsermodeRecord, r.Satisfied user → ¬ r.Applied user →
      cString r.machineid ≠ [] ∧ sameText r.machineid user.realname :=
    fun r hsat happly => by
      by_contra hname
      exact happly ((applied_and_host r user).mpr ⟨hsat, hname⟩).1
  constructor
  · intro heq
    refine ⟨fun r hr happly _ bit hbit => ?_, fun r hr hsat _ _ bit hbit => ?_⟩
    · have hbits := (hleft bit).mpr ⟨r, hr, happly, hbit⟩
      rwa [heq, flags_of_bit] at hbits
    · have hmem : r ∈ (usermodesOf channelId writes).filter (·.Satisfied user) :=
        List.mem_filter.mpr ⟨hr, decide_eq_true hsat⟩
      have hbits := (flags_of_bit _ bit).mpr ⟨r, hmem, hbit⟩
      rw [← heq, hleft] at hbits
      obtain ⟨other, hother, happly, hbit⟩ := hbits
      exact ⟨other, List.mem_filter.mpr ⟨hother, decide_eq_true happly⟩, hbit⟩
  · rintro ⟨hforeign, hnamed⟩
    refine BitVec.eq_of_getLsbD_eq fun bit _ => Bool.eq_iff_iff.mpr ?_
    rw [hleft, flags_of_bit]
    constructor
    · rintro ⟨r, hr, happly, hbit⟩
      by_cases hsat : r.Satisfied user
      · exact ⟨r, List.mem_filter.mpr ⟨hr, decide_eq_true hsat⟩, hbit⟩
      · exact hforeign r hr happly (happlied r happly hsat) bit hbit
    · rintro ⟨r, hr, hbit⟩
      obtain ⟨hr, hsat⟩ := List.mem_filter.mp hr
      have hsat : r.Satisfied user := of_decide_eq_true hsat
      by_cases happly : r.Applied user
      · exact ⟨r, hr, happly, hbit⟩
      · obtain ⟨hne, hsame⟩ := hdropped r hsat happly
        obtain ⟨other, hother, hbit⟩ := hnamed r hr hsat hne hsame bit hbit
        obtain ⟨hother, happly⟩ := List.mem_filter.mp hother
        exact ⟨other, hother, of_decide_eq_true happly, hbit⟩

/-- A ban of a host. -/
def hostBan (hostmask : Bytes) : UsermodeRecord :=
  { UsermodeRecord.empty with
    usermodeid := 1
    chanmask := ascii "#gsp"
    hostmask := hostmask
    modeflags := 512 }

/-- A user on a host. -/
def userOn (hostname : Bytes) : UserSummary :=
  { UserSummary.empty with id := 7, nick := ascii "u", hostname := hostname }

/-- The usermodes of channel 1 with one ban. -/
def bannedChannel (hostmask : Bytes) : UsermodeCache :=
  writeUsermodes ⟨fun _ _ => none, fun _ _ => none⟩ [(hostBan hostmask, 1)]

/-- The scan of a channel with one usermode. -/
theorem banned_channel_scan (hostmask : Bytes) :
    HScan ((bannedChannel hostmask).channels 1) [[ascii "1"]] := by
  have hprint : printBits (1 : BitVec 32) = ascii "1" := by decide
  intro field
  rw [bannedChannel, write_usermodes_channels, ← hprint]
  simp [usermodesOf, hostBan]

/-- A ban flags a user whose host it names. -/
theorem effective_usermode_ban :
    getEffectiveUsermode .empty (bannedChannel (ascii "10.0.*")) (userOn (ascii "10.0.0.9"))
        [some [ascii "1"]] 0 =
      flagsOf ((usermodesOf 1 [(hostBan (ascii "10.0.*"), 1)]).filter
        (·.Satisfied (userOn (ascii "10.0.0.9")))) := by
  refine (@effective_usermode_iff .empty ⟨fun _ _ => none, fun _ _ => none⟩
    [(hostBan (ascii "10.0.*"), 1)] 1 (by simp) (fun _ _ => rfl) rfl [[ascii "1"]]
    (banned_channel_scan _) _).mpr ⟨fun r hr _ hhost => ?_, fun r hr _ hmachine => ?_⟩
  · obtain rfl : r = hostBan (ascii "10.0.*") := by simpa [usermodesOf] using hr
    exact absurd (by decide) hhost
  · obtain rfl : r = hostBan (ascii "10.0.*") := by simpa [usermodesOf] using hr
    exact absurd rfl hmachine

/-- It also flags a user on another host. -/
theorem effective_usermode_bans_other :
    ¬ ∀ (unset : UserSummary) (cache : UsermodeCache) (writes : List (UsermodeRecord × BitVec 32))
      (channelId : BitVec 32) (replies : List (List Bytes)) (user : UserSummary),
      (∀ w ∈ writes, ∀ v ∈ writes, w.1.usermodeid = v.1.usermodeid → w.1 = v.1) →
      (∀ w ∈ writes,
        cache.records (usermodeKey (printBits w.1.usermodeid)) = fun _ => none) →
      cache.channels channelId = (fun _ => none) →
      HScan ((writeUsermodes cache writes).channels channelId) replies →
      getEffectiveUsermode unset (writeUsermodes cache writes) user (replies.map some) 0 =
        flagsOf ((usermodesOf channelId writes).filter (·.Satisfied user)) := by
  intro h
  have hflags := h .empty ⟨fun _ _ => none, fun _ _ => none⟩ [(hostBan (ascii "10.0.*"), 1)] 1
    [[ascii "1"]] (userOn (ascii "192.168.0.1")) (by simp) (fun _ _ => rfl) rfl
    (banned_channel_scan _)
  exact absurd hflags (by decide)

end OpenSpy.Peerchat
