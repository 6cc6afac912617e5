import OpenSpy.Core.KVTexts
import OpenSpy.Peerchat.UserKeys

/-!
# The hashes of the database

The tasks put together the names of the hashes they read and write, each for itself. The words
between the `_` tell the names apart: `name_injective` says that a name belongs to one hash only,
and `scanned_name_ne` that the name which the scan for the keys of a user in a channel asks for
belongs to none, because a `_` is missing in it.
-/

namespace OpenSpy.Peerchat

open Bytes Redis UserChannelFlag ChannelStore

/-- The hashes that the tasks write. -/
inductive HashKey where
  | channels
  | usermode (id : BitVec 32)
  | user (userId : Int)
  | userKeys (userId : Int)
  | channel (channelId : BitVec 32)
  | channelUsermodes (channelId : BitVec 32)
  | channelKeys (channelId : BitVec 32)
  | channelUser (channelId : BitVec 32) (userId : Int)
  | channelUserKeys (channelId : BitVec 32) (userId : Int)
  deriving DecidableEq

namespace HashKey

/-- The name of a hash. -/
def name : HashKey → Bytes
  | channels => ascii "channels"
  | usermode id => usermodeKey (printBits id)
  | user userId => ascii "user_" ++ printInt userId
  | userKeys userId => ascii "user_" ++ printInt userId ++ ascii "_custkeys"
  | channel channelId => ascii "channel_" ++ printBits channelId
  | channelUsermodes channelId => ascii "channel_" ++ printBits channelId ++ ascii "_usermodes"
  | channelKeys channelId => ascii "channel_" ++ printBits channelId ++ ascii "_custkeys"
  | channelUser channelId userId =>
      ascii "channel_" ++ printBits channelId ++ ascii "_user_" ++ printInt userId
  | channelUserKeys channelId userId =>
      ascii "channel_" ++ printBits channelId ++ ascii "_user_" ++ printInt userId ++
        ascii "_custkeys"

/-- The words of a name. -/
def words : HashKey → List Bytes
  | channels => [ascii "channels"]
  | usermode id => [ascii "USERMODE", printBits id]
  | user userId => [ascii "user", printInt userId]
  | userKeys userId => [ascii "user", printInt userId, ascii "custkeys"]
  | channel channelId => [ascii "channel", printBits channelId]
  | channelUsermodes channelId => [ascii "channel", printBits channelId, ascii "usermodes"]
  | channelKeys channelId => [ascii "channel", printBits channelId, ascii "custkeys"]
  | channelUser channelId userId =>
      [ascii "channel", printBits channelId, ascii "user", printInt userId]
  | channelUserKeys channelId userId =>
      [ascii "channel", printBits channelId, ascii "user", printInt userId, ascii "custkeys"]

end HashKey

/-- The name in `Handle_GetChannelUserKeys_LookupWildcard`, where `user_` has no `_` in front. -/
def scannedName (channelId : BitVec 32) (userId : Int) : Bytes :=
  ascii "channel_" ++ printBits channelId ++ ascii "user_" ++ printInt userId ++ ascii "_custkeys"

section Names

variable {channelId : BitVec 32} {userId : Int}

theorem print_int_no_underscore (n : Int) : char '_' ∉ printInt n :=
  print_int_not_mem (by decide) (by decide) n

theorem print_bits_no_underscore (n : BitVec 32) : char '_' ∉ printBits n :=
  print_int_no_underscore n.toInt

theorem print_bits_injective : Function.Injective (printBits : BitVec 32 → Bytes) :=
  print_int_injective.comp fun _ _ h => BitVec.eq_of_toInt_eq h

/-- A number is no word of letters. -/
theorem print_int_ne_user (n : Int) : printInt n ≠ ascii "user" := by
  intro h
  have hchar : char 'u' ∉ printInt n := print_int_not_mem (by decide) (by decide) n
  rw [h] at hchar
  exact absurd hchar (by decide)

namespace HashKey

theorem word_no_underscore (key : HashKey) : ∀ word ∈ key.words, char '_' ∉ word := by
  have hint := print_int_no_underscore
  have hbits := print_bits_no_underscore
  cases key <;> simp only [words, List.forall_mem_cons, hint, hbits, not_false_eq_true,
    true_and] <;> decide

theorem words_ne_nil (key : HashKey) : key.words ≠ [] := by
  cases key <;> exact List.cons_ne_nil _ _

/-- A name is made of its words. -/
theorem name_eq (key : HashKey) : key.name = [char '_'].intercalate key.words := by
  cases key <;> simp [name, words, usermodeKey, List.intercalate, ascii, List.intersperse]

theorem split_name (key : HashKey) : key.name.splitOn (char '_') = key.words := by
  rw [name_eq, List.splitOn_intercalate _ key.word_no_underscore key.words_ne_nil]

theorem words_injective : Function.Injective words := by
  intro key other h
  cases key <;> cases other <;>
    simp_all [words, print_int_injective.eq_iff, print_bits_injective.eq_iff, ascii]

/-- A name belongs to one hash. -/
theorem name_injective : Function.Injective name := by
  intro key other h
  refine words_injective ?_
  rw [← split_name, ← split_name, h]

end HashKey

/-- The scan for the keys of a user in a channel asks for a hash that no task writes. -/
theorem scanned_name_ne (channelId : BitVec 32) (userId : Int) (key : HashKey) :
    scannedName channelId userId ≠ key.name := by
  intro h
  have hwords : [ascii "channel", printBits channelId ++ ascii "user", printInt userId,
      ascii "custkeys"] = key.words := by
    rw [← key.split_name, ← h]
    have hname : scannedName channelId userId = [char '_'].intercalate [ascii "channel",
        printBits channelId ++ ascii "user", printInt userId, ascii "custkeys"] := by
      simp [scannedName, List.intercalate, ascii]
    rw [hname, List.splitOn_intercalate _ _ (List.cons_ne_nil _ _)]
    have huser : char '_' ∉ printBits channelId ++ ascii "user" := by
      rw [List.mem_append, not_or]
      exact ⟨print_bits_no_underscore channelId, by decide⟩
    simp only [List.forall_mem_cons, huser, print_int_no_underscore, not_false_eq_true, true_and]
    decide
  -- only the names of the flags of a user have as many words, with `user` for the third one
  cases key with
  | channelUser other user =>
      have hthird := congrArg (·[2]?) hwords
      exact print_int_ne_user userId (Option.some.inj hthird)
  | _ => exact absurd (congrArg List.length hwords) (by simp [HashKey.words])

end Names

/-- Pairs as `HSET` gets them. -/
def cPairs (pairs : List (Bytes × Bytes)) : List (Bytes × Bytes) :=
  pairs.map fun pair => (cString pair.1, cString pair.2)

/-- The names of the keys that GETCHANKEY computes. -/
def chankeyInjectKeys : List Bytes :=
  [ascii "topic", ascii "limit", ascii "key"]

/-- `Is_Chankey_InjectKey`. -/
def isChankeyInjectKey (key : Bytes) : Bool :=
  chankeyInjectKeys.contains (cString key)

/-- A pair that a client can send for a key of a channel. -/
def IsChannelKey (pair : Bytes × Bytes) : Prop :=
  pair.1 ∉ chankeyInjectKeys ∧ IsPlainPair pair

/-- `HSET` of some pairs in a hash. -/
def setHash (hash : Bytes → Hash) (name : Bytes) (pairs : List (Bytes × Bytes)) : Bytes → Hash :=
  Function.update hash name (hmset (hash name) (cPairs pairs))

/-- The hashes by their names. Only the tasks write them, and they send C strings. -/
structure KeyDatabase where
  hash : Bytes → Hash
  named : ∀ name field, (hash name field).isSome → ∃ key : HashKey, name = key.name
  listed : ∀ name, ∃ fields : List Bytes, ∀ field, (hash name field).isSome → field ∈ fields
  texts : ∀ name field value, hash name field = some value →
    cString field = field ∧ cString value = value
  channelKeys : ∀ channelId field value,
    hash (HashKey.channelKeys channelId).name field = some value → IsChannelKey (field, value)

/-- The pairs may be written to a hash: those for a channel are its keys. -/
def Storable (key : HashKey) (pairs : List (Bytes × Bytes)) : Prop :=
  ∀ channelId, key = .channelKeys channelId → ∀ pair ∈ cPairs pairs, IsChannelKey pair

theorem storable_user_keys (userId : Int) (pairs : List (Bytes × Bytes)) :
    Storable (.userKeys userId) pairs := by
  intro channelId hkey
  cases hkey

theorem storable_channel_user_keys (channelId : BitVec 32) (userId : Int)
    (pairs : List (Bytes × Bytes)) : Storable (.channelUserKeys channelId userId) pairs := by
  intro other hkey
  cases hkey

/-- Pairs of C strings are sent as they are. -/
theorem c_pairs_eq_self {pairs : List (Bytes × Bytes)}
    (h : ∀ pair ∈ pairs, cString pair.1 = pair.1 ∧ cString pair.2 = pair.2) :
    cPairs pairs = pairs := by
  have hpairs : cPairs pairs = pairs.map id :=
    List.map_congr_left fun pair hpair => Prod.ext (h pair hpair).1 (h pair hpair).2
  rw [hpairs, List.map_id]

/-- What is in the hashes after `HSET` was written, or was there before. -/
theorem set_hash_some {hash : Bytes → Hash} {name other field value : Bytes}
    {pairs : List (Bytes × Bytes)} (h : setHash hash name pairs other field = some value) :
    other = name ∧ (field, value) ∈ cPairs pairs ∨ hash other field = some value := by
  unfold setHash at h
  by_cases hname : other = name
  · subst hname
    rw [Function.update_self, hmset_apply, Option.or_eq_some_iff] at h
    exact h.imp (fun h => ⟨rfl, mem_of_lookup_reverse h⟩) And.right
  · rw [Function.update_of_ne hname] at h
    exact .inr h

namespace KeyDatabase

/-- A database without hashes. -/
def empty : KeyDatabase where
  hash _ _ := none
  named _ _ h := by cases h
  listed _ := ⟨[], fun _ h => by cases h⟩
  texts _ _ _ h := by cases h
  channelKeys _ _ _ h := by cases h

/-- `HSET` of some pairs. -/
def hset (db : KeyDatabase) (key : HashKey) (pairs : List (Bytes × Bytes))
    (h : Storable key pairs) : KeyDatabase where
  hash := setHash db.hash key.name pairs
  named name field hsome := by
    obtain ⟨value, hvalue⟩ := Option.isSome_iff_exists.mp hsome
    rcases set_hash_some hvalue with ⟨rfl, -⟩ | hold
    · exact ⟨key, rfl⟩
    · exact db.named name field (by rw [hold]; rfl)
  listed name := by
    obtain ⟨fields, hfields⟩ := db.listed name
    refine ⟨(cPairs pairs).map (·.1) ++ fields, fun field hsome => ?_⟩
    obtain ⟨value, hvalue⟩ := Option.isSome_iff_exists.mp hsome
    rcases set_hash_some hvalue with ⟨-, hmem⟩ | hold
    · exact List.mem_append_left _ (List.mem_map_of_mem hmem)
    · exact List.mem_append_right _ (hfields field (by rw [hold]; rfl))
  texts name field value hvalue := by
    rcases set_hash_some hvalue with ⟨-, hmem⟩ | hold
    · obtain ⟨pair, -, hpair⟩ := List.mem_map.mp hmem
      obtain ⟨rfl, rfl⟩ := Prod.mk.inj hpair
      exact ⟨c_string_c_string _, c_string_c_string _⟩
    · exact db.texts name field value hold
  channelKeys channelId field value hvalue := by
    rcases set_hash_some hvalue with ⟨hname, hmem⟩ | hold
    · exact h channelId (HashKey.name_injective hname).symm _ hmem
    · exact db.channelKeys channelId field value hold

variable {db : KeyDatabase} {key other : HashKey} {pairs : List (Bytes × Bytes)}

@[simp] theorem hset_self (h : Storable key pairs) :
    (db.hset key pairs h).hash key.name = hmset (db.hash key.name) (cPairs pairs) :=
  Function.update_self _ _ _

/-- `HSET` leaves the other hashes alone. -/
theorem hset_of_ne (h : Storable key pairs) (hne : other ≠ key) :
    (db.hset key pairs h).hash other.name = db.hash other.name :=
  Function.update_of_ne (fun hname => hne (HashKey.name_injective hname)) _ _

/-- The scan for the keys of a user in a channel finds no field. -/
theorem scanned_hash_eq (db : KeyDatabase) (channelId : BitVec 32) (userId : Int) (field : Bytes) :
    db.hash (scannedName channelId userId) field = none := by
  rw [← Option.not_isSome_iff_eq_none]
  intro h
  obtain ⟨key, hkey⟩ := db.named _ _ h
  exact scanned_name_ne channelId userId key hkey

end KeyDatabase

/-- `MATCH` of a pattern without brackets and backslashes. -/
def starPattern : FieldPattern where
  stands := Glob.glob (· == char '*') fun symbol letter => symbol == letter || symbol == char '?'
  star field := (Glob.glob_star (by decide) [] field).mpr ⟨[], List.nil_suffix, rfl⟩

/-- The replies to the scans of all hashes. -/
abbrev KeyScans (glob : FieldPattern) (db : KeyDatabase) :=
  ∀ name pattern, MatchScan glob (db.hash name) pattern

section Replies

variable {glob : FieldPattern} {db : KeyDatabase}

/-- What the tasks find in a hash. The texts of a reply are C strings. -/
def keyHash (scans : KeyScans glob db) (name : Bytes) : KeyHash where
  field field := (db.hash name field).map cString
  scan pattern := (scans name pattern).batches.map fun batch => some (cPairs batch)

/-- What the tasks for keys read. -/
def keyBacking (store : ChannelStore) (scans : KeyScans glob db) : Backing where
  store := store
  channelKeys channelId := keyHash scans (HashKey.channelKeys channelId).name
  channelUserKeys channelId userId := keyHash scans (HashKey.channelUserKeys channelId userId).name
  strayUserKeys channelId userId := keyHash scans (scannedName channelId userId)
  userHashes _ := []
  channelNames := []
  persistent := []

/-- The fields of a hash, each once. -/
noncomputable def KeyDatabase.fields (db : KeyDatabase) (name : Bytes) : List Bytes :=
  (Classical.choose (db.listed name)).dedup

theorem KeyDatabase.mem_fields (db : KeyDatabase) (name field : Bytes)
    (h : (db.hash name field).isSome) : field ∈ db.fields name :=
  List.mem_dedup.mpr (Classical.choose_spec (db.listed name) field h)

/-- Replies to the scans that return every field once. -/
noncomputable def KeyDatabase.scans (glob : FieldPattern) (db : KeyDatabase) : KeyScans glob db :=
  fun name pattern => .ofFields glob pattern (db.mem_fields name)

/-- The fields of a hash are read as they were written. -/
theorem key_hash_field (scans : KeyScans glob db) (name field : Bytes) :
    (keyHash scans name).field field = db.hash name field := by
  show (db.hash name field).map cString = db.hash name field
  cases hvalue : db.hash name field with
  | none => rfl
  | some value => exact congrArg some (db.texts name field value hvalue).2

/-- The loop over the replies puts the batches together. -/
theorem scan_text_batches (behind : Bytes) (batches : List (List (Bytes × Bytes))) :
    scanText behind (batches.map some) = kvString batches.flatten ++ behind := by
  induction batches with
  | nil => rfl
  | cons batch batches ih =>
      rw [List.map_cons, scanText, ih, List.flatten_cons, kv_string_append, List.append_assoc]

/-- The text of a scan. -/
theorem scan_text_eq (scans : KeyScans glob db) (behind name pattern : Bytes) :
    scanText behind ((keyHash scans name).scan pattern) =
      kvString (scans name pattern).batches.flatten ++ behind := by
  have hbatches : (keyHash scans name).scan pattern = (scans name pattern).batches.map some := by
    refine List.map_congr_left fun batch hbatch => congrArg some (c_pairs_eq_self ?_)
    intro pair hpair
    have hvalue := ((scans name pattern).complete pair).mp ⟨batch, hbatch, hpair⟩
    exact db.texts name pair.1 pair.2 hvalue.1
  rw [hbatches, scan_text_batches]

end Replies

/-- The channel of Alice. -/
def aliceChannel : ChannelStore :=
  (performUserJoinChannel quietEnvironment (chatPeer 1 (ascii "alice") 32) ⟨ascii "#a", [], 0⟩
    twoUsers).1

/-- Alice in her channel. -/
def aliceInChannel : ChatPeer :=
  ⟨(chatPeer 1 (ascii "alice") 32).details, fun _ => isInChannel⟩

end OpenSpy.Peerchat
