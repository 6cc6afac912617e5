import OpenSpy.Peerchat.KeyDatabase

/-!
# The keys of the users of a channel

GETCKEY asks for keys of one user or of all users of a channel. What SETCKEY has stored is found by
its name; a pattern finds nothing, since the scan for it asks for a hash that is never written.
The end of the answer goes out with the last user. `getckey_finds_iff` says which requests are
answered as they should be. SETCKEY writes to the hashes by name what it writes for the users
(`holds_set_ckey`), and leaves each key with its last value (`set_ckey_stores`). What a pattern would
find has the value that is found by name (`KeysAnswered.value_eq`).
-/

namespace OpenSpy.Peerchat

open Bytes Redis UserChannelFlag ChannelStore

/-- A request of `handle_getckey`. -/
structure GetCKeyRequest where
  channelName : Bytes
  username : Bytes
  uniquenick : Bytes
  kvData : List (Bytes × Bytes)

/-- `TaskResponse`, as far as `OnGetCKey` reads it. A `profile.id` of 1 is for the end. -/
structure UserKeysResponse where
  channelSummary : ChannelSummary
  summary : UserSummary
  channelUserSummary : ChannelUserSummary
  uniquenick : Bytes
  kvData : List (Bytes × Bytes)
  kvDataWithnames : List (Bytes × Bytes)
  profileId : Int

/-- `Peer::handle_getckey`. -/
def handleGetCKey (channelTarget userTarget numeric kvString : Bytes) : GetCKeyRequest where
  channelName := channelTarget
  username := userTarget
  uniquenick := numeric
  kvData := requestedKeys kvString

section Tasks

variable (env : Environment) (viewer : Viewer)

/-- The answer is for a user that `OnGetCKey` passes over. -/
def UserKeysResponse.skip (response : UserKeysResponse) : Bool :=
  auditoriumHides viewer response.channelSummary.basicModeFlags response.summary.id
      response.channelUserSummary.modeflags ||
    (hasFlag response.channelUserSummary.modeflags invisible &&
      !viewer.peer.hasPrivilege operInvisible)

/-- The numeric that ends a GETCKEY. -/
def endOfGetCKey (numeric channelName : Bytes) : Bytes :=
  sendNumeric env viewer 703 (numeric ++ ascii " :End of GETCKEY") true channelName true

/-- `Peer::OnGetCKey`. -/
def UserKeysResponse.onGetCKey (response : UserKeysResponse) : List Bytes :=
  (if response.skip viewer then []
  else [sendNumeric env viewer 702 (response.summary.nick ++ char ' ' :: response.uniquenick ++
    ascii " :" ++ kvValues response.kvData ++ kvString response.kvDataWithnames) true
    response.channelSummary.channelName true]) ++
  if response.profileId = 1 then
    [endOfGetCKey env viewer response.uniquenick response.channelSummary.channelName]
  else []

variable (backing : Backing) (unset : ChannelUserSummary) (request : GetCKeyRequest)

/-- `Handle_GetChannelUserKeys_SingleUser`. It leaves the flags of the user in the channel as they
happen to be in memory. -/
def getChannelUserKeysSingleUser : List UserKeysResponse :=
  let summary := getChannelSummaryByName env backing.store request.channelName
  let userSummary := getUserSummaryByName env backing.store request.username
  let texts :=
    if summary.channelId ≠ 0 ∧ userSummary.id ≠ 0 then
      userKeyTexts backing summary.channelId userSummary.id request.kvData
    else ([], [])
  [{ channelSummary := summary
     summary := userSummary
     channelUserSummary := unset
     uniquenick := request.uniquenick
     kvData := kvReader texts.1
     kvDataWithnames := kvReader texts.2
     profileId := 1 }]

/-- The loop of `Handle_GetChannelUserKeys_AllUsers`. -/
def getUsersKeys (summary : ChannelSummary) : List ChannelUserSummary → List UserKeysResponse
  | [] => []
  | user :: users =>
      let texts := userKeyTexts backing summary.channelId user.userId request.kvData
      { channelSummary := summary
        summary := user.userSummary
        channelUserSummary := user
        uniquenick := request.uniquenick
        kvData := kvReader texts.1
        kvDataWithnames := kvReader texts.2
        profileId := if users.isEmpty then 1 else 0 } :: getUsersKeys summary users

/-- `Handle_GetChannelUserKeys_AllUsers`. -/
def getChannelUserKeysAllUsers : List UserKeysResponse :=
  let summary := getChannelSummaryByName env backing.store request.channelName
  if summary.channelId ≠ 0 then
    getUsersKeys backing request summary (getChannelUsers env backing.store summary.channelId)
  else []

/-- `Perform_GetChannelUserKeys`: the responses that the callback gets. -/
def performGetChannelUserKeys : List UserKeysResponse :=
  if request.username = ascii "*" then getChannelUserKeysAllUsers env backing request
  else getChannelUserKeysSingleUser env backing unset request

end Tasks

/-- `Perform_SetChannelUserKeys`, for the hashes of keys. -/
def KeyDatabase.setCKey (env : Environment) (peer : ChatPeer)
    (channelTarget userTarget kvText : Bytes) (store : ChannelStore) (db : KeyDatabase) :
    KeyDatabase :=
  match setCKeyTarget env peer channelTarget userTarget store with
  | none => db
  | some (channelId, userId) =>
      (db.hset (.channelUserKeys channelId userId) (kvReader kvText)
          (storable_channel_user_keys channelId userId _)).hset
        (.userKeys 0) (identityPairs (requestSummary userTarget)) (storable_user_keys 0 _)

/-- The hashes of a state, under their names. -/
structure KeyDatabase.Holds (db : KeyDatabase) (state : KeyState) : Prop where
  userKeys : ∀ userId, db.hash (HashKey.userKeys userId).name = state.userKeys userId
  channelUserKeys : ∀ channelId userId,
    db.hash (HashKey.channelUserKeys channelId userId).name = state.channelUserKeys channelId userId

section Claims

variable (env : Environment) (store : ChannelStore) (db : KeyDatabase) (request : GetCKeyRequest)

/-- The channel of a request. -/
def GetCKeyRequest.channel : ChannelSummary :=
  getChannelSummaryByName env store request.channelName

/-- The users whom a request is about: those of the channel, or the one of a name. -/
def GetCKeyRequest.addressed : List Int :=
  if (request.channel env store).channelId = 0 then []
  else if request.username = ascii "*" then
    (getChannelUsers env store (request.channel env store).channelId).map (·.userId)
  else
    [(getUserSummaryByName env store request.username).id].filter (· ≠ 0)

/-- The keys of a user in the channel of a request. -/
def GetCKeyRequest.custkeys (userId : Int) : Hash :=
  db.hash (HashKey.channelUserKeys (request.channel env store).channelId userId).name

/-- The value that a key was given, or nothing. -/
def storedValue (hash : Hash) (name : Bytes) : Bytes :=
  (hash (cString name)).getD []

/-- A response has the values of the named keys, and of those that a pattern stands for. -/
structure KeysAnswered (glob : FieldPattern) (hash : Hash) (keys : List (Bytes × Bytes))
    (response : UserKeysResponse) : Prop where
  named : response.kvData = namedPairs (storedValue hash) (keys.filter plainKey)
  matched : ∀ pair, pair ∈ response.kvDataWithnames ↔
    hash pair.1 = some pair.2 ∧
      ∃ key ∈ keys, plainKey key = false ∧ glob.stands (cString key.1) pair.1 = true

/-- A request is answered for every user it addresses, with his keys and with one end. -/
structure GetCKeyFinds (viewer : Viewer) (glob : FieldPattern)
    (responses : List UserKeysResponse) : Prop where
  each : ∀ userId ∈ request.addressed env store,
    ∃ response ∈ responses, response.summary.id = userId
  keys : ∀ response ∈ responses, response.summary.id ∈ request.addressed env store →
    KeysAnswered glob (request.custkeys env store db response.summary.id) request.kvData response
  ended : (responses.flatMap (·.onGetCKey env viewer)).count
    (endOfGetCKey env viewer request.uniquenick (request.channel env store).channelName) = 1

/-- No pattern stands for a key of an addressed user, no value of a named key has a backslash, and
if all users are asked for there is one. -/
structure GetCKeyMeets (glob : FieldPattern) : Prop where
  named : ∀ userId ∈ request.addressed env store, ∀ key ∈ request.kvData, plainKey key = true →
    char '\\' ∉ storedValue (request.custkeys env store db userId) key.1
  unmatched : ∀ userId ∈ request.addressed env store, ∀ key ∈ request.kvData,
    plainKey key = false → ∀ field, (request.custkeys env store db userId field).isSome →
      glob.stands (cString key.1) field = false
  listed : request.username = ascii "*" → request.addressed env store ≠ []

end Claims

section Storing

variable {env : Environment} {peer : ChatPeer} {channelTarget userTarget kvText : Bytes}
  {store : ChannelStore} {db : KeyDatabase}

/-- The identity keys are C strings. -/
theorem c_pairs_identity (summary : UserSummary) :
    cPairs (identityPairs summary) = identityPairs summary := by
  simp only [cPairs, identityPairs, List.map_cons, List.map_nil, c_string_c_string,
    c_string_print_int]
  rfl

/-- `HSET` of the keys of a user in a channel. -/
theorem holds_set_channel_user_keys {state : KeyState} (h : db.Holds state) (channelId : BitVec 32)
    (userId : Int) (pairs : List (Bytes × Bytes)) :
    (db.hset (.channelUserKeys channelId userId) pairs
      (storable_channel_user_keys channelId userId pairs)).Holds
      (state.setChannelUserKeys channelId userId (cPairs pairs)) := by
  constructor
  · intro other
    rw [KeyDatabase.hset_of_ne _ (by simp), h.userKeys]
    rfl
  · intro otherChannel otherUser
    by_cases hsame : otherChannel = channelId ∧ otherUser = userId
    · obtain ⟨rfl, rfl⟩ := hsame
      rw [KeyDatabase.hset_self, h.channelUserKeys]
      simp [KeyState.setChannelUserKeys]
    · rw [KeyDatabase.hset_of_ne _ (by simpa using hsame), h.channelUserKeys]
      by_cases hchannel : otherChannel = channelId
      · subst hchannel
        have huser : otherUser ≠ userId := fun huser => hsame ⟨rfl, huser⟩
        simp [KeyState.setChannelUserKeys, Function.update_of_ne huser]
      · simp [KeyState.setChannelUserKeys, Function.update_of_ne hchannel]

/-- `ApplyUserKeys`. -/
theorem holds_apply_user_keys {state : KeyState} (h : db.Holds state) (showPrivate : Bool)
    (summary : UserSummary) :
    (db.hset (.userKeys summary.id) (identityPairs summary)
      (storable_user_keys summary.id _)).Holds (state.applyUserKeys showPrivate summary) := by
  constructor
  · intro userId
    by_cases huser : userId = summary.id
    · subst huser
      rw [KeyDatabase.hset_self, h.userKeys, c_pairs_identity]
      simp [KeyState.applyUserKeys]
    · rw [KeyDatabase.hset_of_ne _ (by simpa using huser), h.userKeys]
      simp [KeyState.applyUserKeys, Function.update_of_ne huser]
  · intro channelId userId
    rw [KeyDatabase.hset_of_ne _ (by simp), h.channelUserKeys]
    rfl

/-- SETCKEY writes the hashes of the names as it writes those of the users. -/
theorem holds_set_ckey {state : KeyState} (h : db.Holds state) :
    (db.setCKey env peer channelTarget userTarget kvText state.store).Holds
      (performSetChannelUserKeys env peer channelTarget userTarget kvText state).1 := by
  unfold KeyDatabase.setCKey performSetChannelUserKeys
  cases htarget : setCKeyTarget env peer channelTarget userTarget state.store with
  | none => exact h
  | some target =>
      obtain ⟨channelId, userId⟩ := target
      exact holds_apply_user_keys
        (holds_set_channel_user_keys h channelId userId (kvReader kvText)) false
        (requestSummary userTarget)

/-- A SETCKEY that is carried out leaves each key with its last value. -/
theorem set_ckey_stores {channelId : BitVec 32} {userId : Int}
    (h : setCKeyTarget env peer channelTarget userTarget store = some (channelId, userId))
    (field : Bytes) :
    (db.setCKey env peer channelTarget userTarget kvText store).hash
        (HashKey.channelUserKeys channelId userId).name field =
      ((hashPairs kvText).reverse.lookup field).or
        (db.hash (HashKey.channelUserKeys channelId userId).name field) := by
  rw [KeyDatabase.setCKey, h, KeyDatabase.hset_of_ne _ (by simp), KeyDatabase.hset_self,
    hmset_apply]
  rfl

end Storing

section Finding

variable {env : Environment} {viewer : Viewer} {store : ChannelStore} {glob : FieldPattern}
  {db : KeyDatabase} {scans : KeyScans glob db} {unset : ChannelUserSummary}
  {request : GetCKeyRequest} {kvText : Bytes}

/-- The texts for a user: his named keys, and nothing for the patterns. -/
theorem user_key_texts_eq (scans : KeyScans glob db) (channelId : BitVec 32) (userId : Int)
    (keys : List (Bytes × Bytes)) :
    userKeyTexts (keyBacking store scans) channelId userId keys =
      (kvString (namedPairs
        (storedValue (db.hash (HashKey.channelUserKeys channelId userId).name))
        (keys.filter plainKey)), []) := by
  refine Prod.ext ?_ ?_
  · simp only [userKeyTexts, keyBacking, key_hash_field, kvString, namedPairs, List.flatMap_map]
    rfl
  · have hscan (pattern : Bytes) :
        (scans (scannedName channelId userId) pattern).batches.flatten = [] :=
      (scans _ _).flatten_eq_nil (db.scanned_hash_eq channelId userId)
    simp only [userKeyTexts, keyBacking, scan_text_eq, hscan]
    simp [kvString]

/-- The text is read as it should be exactly if no named value has a backslash, and no pattern
stands for a key. -/
theorem keys_answered_iff {hash : Hash} {response : UserKeysResponse}
    (hnamed : response.kvData = kvReader (kvString (namedPairs (storedValue hash)
      ((requestedKeys kvText).filter plainKey))))
    (hmatched : response.kvDataWithnames = []) :
    KeysAnswered glob hash (requestedKeys kvText) response ↔
      (∀ key ∈ requestedKeys kvText, plainKey key = true → char '\\' ∉ storedValue hash key.1) ∧
        ∀ key ∈ requestedKeys kvText, plainKey key = false → ∀ field, (hash field).isSome →
          glob.stands (cString key.1) field = false := by
  have hkeys := @kv_reader_named_iff kvText _ (List.filter_sublist (p := plainKey))
    (storedValue hash)
  simp only [List.mem_filter, and_imp] at hkeys
  constructor
  · intro h
    refine ⟨hkeys.mp (hnamed ▸ h.named), fun key hkey hpattern field hfield => ?_⟩
    obtain ⟨value, hvalue⟩ := Option.isSome_iff_exists.mp hfield
    rw [Bool.eq_false_iff]
    intro hstands
    have hmem := (h.matched (field, value)).mpr ⟨hvalue, key, hkey, hpattern, hstands⟩
    rw [hmatched] at hmem
    cases hmem
  · intro h
    refine ⟨hnamed.trans (hkeys.mpr h.1), fun pair => ?_⟩
    rw [hmatched, iff_false_left List.not_mem_nil]
    intro hfound
    obtain ⟨hvalue, key, hkey, hpattern, hstands⟩ := hfound
    rw [h.2 key hkey hpattern pair.1 (by rw [hvalue]; rfl)] at hstands
    cases hstands

/-- The two numerics differ. -/
theorem numeric_ne_end (text numeric channelName : Bytes) :
    sendNumeric env viewer 702 text true channelName true ≠
      endOfGetCKey env viewer numeric channelName := by
  intro h
  simp only [endOfGetCKey, sendNumeric, List.cons_append, List.append_assoc, List.cons.injEq,
    true_and, List.append_cancel_left_eq] at h
  have hdigit : some (char '2') = some (char '3') := congrArg (·[2]?) h
  exact absurd hdigit (by decide)

/-- The end goes out with the response that has the mark. -/
theorem count_end {response : UserKeysResponse} (numeric channelName : Bytes)
    (hnumeric : response.uniquenick = numeric)
    (hchannel : response.channelSummary.channelName = channelName) :
    (response.onGetCKey env viewer).count (endOfGetCKey env viewer numeric channelName) =
      if response.profileId = 1 then 1 else 0 := by
  subst hnumeric hchannel
  unfold UserKeysResponse.onGetCKey
  rw [List.count_append]
  have hfirst : (if response.skip viewer then []
      else [sendNumeric env viewer 702 (response.summary.nick ++ char ' ' :: response.uniquenick ++
        ascii " :" ++ kvValues response.kvData ++ kvString response.kvDataWithnames) true
        response.channelSummary.channelName true]).count
      (endOfGetCKey env viewer response.uniquenick response.channelSummary.channelName) = 0 := by
    split
    · rfl
    · rw [List.count_eq_zero, List.mem_singleton]
      exact (numeric_ne_end _ _ _).symm
  rw [hfirst, Nat.zero_add]
  split
  · exact List.count_singleton_self
  · rfl

/-- The responses of the loop are for the users, each with his keys. -/
theorem mem_users_keys {backing : Backing} {summary : ChannelSummary}
    {users : List ChannelUserSummary} {response : UserKeysResponse}
    (h : response ∈ getUsersKeys backing request summary users) :
    ∃ user ∈ users, response.summary = user.userSummary ∧
      response.kvData =
        kvReader (userKeyTexts backing summary.channelId user.userId request.kvData).1 ∧
      response.kvDataWithnames =
        kvReader (userKeyTexts backing summary.channelId user.userId request.kvData).2 := by
  induction users with
  | nil => cases h
  | cons user users ih =>
      rcases List.mem_cons.mp h with rfl | h
      · exact ⟨user, List.mem_cons_self, rfl, rfl, rfl⟩
      · obtain ⟨other, hother, hspec⟩ := ih h
        exact ⟨other, List.mem_cons_of_mem user hother, hspec⟩

/-- Every user gets a response. -/
theorem users_keys_map (backing : Backing) (summary : ChannelSummary)
    (users : List ChannelUserSummary) :
    (getUsersKeys backing request summary users).map (·.summary) =
      users.map (·.userSummary) := by
  induction users with
  | nil => rfl
  | cons user users ih => rw [getUsersKeys, List.map_cons, List.map_cons, ih]

/-- The end goes out once, with the last user. -/
theorem count_users_end (backing : Backing) (summary : ChannelSummary)
    (users : List ChannelUserSummary) :
    ((getUsersKeys backing request summary users).flatMap (·.onGetCKey env viewer)).count
        (endOfGetCKey env viewer request.uniquenick summary.channelName) =
      if users = [] then 0 else 1 := by
  induction users with
  | nil => rfl
  | cons user users ih =>
      rw [getUsersKeys, List.flatMap_cons, List.count_append, ih,
        count_end request.uniquenick summary.channelName rfl rfl]
      cases users <;> simp

/-- A listed user has his own summary. -/
theorem listed_user_id {channelId : BitVec 32} {user : ChannelUserSummary}
    (h : user ∈ getChannelUsers env store channelId) : user.userSummary.id = user.userId := by
  obtain ⟨hmem, hne⟩ := List.mem_filter.mp h
  obtain ⟨userId, -, rfl⟩ := List.mem_map.mp hmem
  have hid : (lookupUserById env store userId).id ≠ 0 := by simpa using hne
  show (lookupUserById env store userId).id = userId
  unfold lookupUserById at hid ⊢
  split_ifs at hid ⊢ with hserver
  · exact hserver.symm
  · cases huser : store.user userId with
    | none =>
        rw [huser] at hid
        exact absurd rfl hid
    | some summary => rfl

/-- The responses to a request for all users. -/
theorem responses_for_all (hall : request.username = ascii "*") :
    performGetChannelUserKeys env (keyBacking store scans) unset request =
      if (request.channel env store).channelId ≠ 0 then
        getUsersKeys (keyBacking store scans) request (request.channel env store)
          (getChannelUsers env store (request.channel env store).channelId)
      else [] :=
  if_pos hall

/-- The texts of a single user who is addressed. -/
theorem single_user_texts
    (haddressed : (request.channel env store).channelId ≠ 0 ∧
      (getUserSummaryByName env store request.username).id ≠ 0) :
    ∃ response, getChannelUserKeysSingleUser env (keyBacking store scans) unset request =
        [response] ∧
      response.summary = getUserSummaryByName env store request.username ∧
      response.kvData = kvReader (userKeyTexts (keyBacking store scans)
        (request.channel env store).channelId
        (getUserSummaryByName env store request.username).id request.kvData).1 ∧
      response.kvDataWithnames = kvReader (userKeyTexts (keyBacking store scans)
        (request.channel env store).channelId
        (getUserSummaryByName env store request.username).id request.kvData).2 := by
  refine ⟨_, rfl, rfl, ?_, ?_⟩
  · exact congrArg (fun texts : Bytes × Bytes => kvReader texts.1) (if_pos haddressed)
  · exact congrArg (fun texts : Bytes × Bytes => kvReader texts.2) (if_pos haddressed)

/-- The response for an addressed user has his named keys. -/
theorem response_keys {response : UserKeysResponse}
    (h : response ∈ performGetChannelUserKeys env (keyBacking store scans) unset request)
    (haddressed : response.summary.id ∈ request.addressed env store) :
    response.kvData = kvReader (kvString (namedPairs
        (storedValue (request.custkeys env store db response.summary.id))
        (request.kvData.filter plainKey))) ∧
      response.kvDataWithnames = [] := by
  unfold GetCKeyRequest.addressed at haddressed
  split_ifs at haddressed with hchannel hall
  · cases haddressed
  · rw [responses_for_all hall, if_pos hchannel] at h
    obtain ⟨user, huser, hsummary, hnamed, hmatched⟩ := mem_users_keys h
    rw [user_key_texts_eq] at hnamed hmatched
    rw [hsummary, listed_user_id huser]
    exact ⟨hnamed, hmatched⟩
  · obtain ⟨hmem, hne⟩ := List.mem_filter.mp haddressed
    have huser : (getUserSummaryByName env store request.username).id ≠ 0 := by
      rw [← List.mem_singleton.mp hmem]
      simpa using hne
    obtain ⟨single, hsingle, hsummary, hnamed, hmatched⟩ :=
      @single_user_texts _ _ _ _ scans unset _ ⟨hchannel, huser⟩
    rw [performGetChannelUserKeys, if_neg hall, hsingle] at h
    obtain rfl := List.mem_singleton.mp h
    rw [user_key_texts_eq] at hnamed hmatched
    rw [hsummary]
    exact ⟨hnamed, hmatched⟩

/-- Every addressed user gets a response. -/
theorem addressed_answered {userId : Int} (h : userId ∈ request.addressed env store) :
    ∃ response ∈ performGetChannelUserKeys env (keyBacking store scans) unset request,
      response.summary.id = userId := by
  unfold GetCKeyRequest.addressed at h
  split_ifs at h with hchannel hall
  · cases h
  · obtain ⟨user, huser, rfl⟩ := List.mem_map.mp h
    have hmem : user.userSummary ∈ (getUsersKeys (keyBacking store scans) request
        (request.channel env store)
        (getChannelUsers env store (request.channel env store).channelId)).map (·.summary) := by
      rw [users_keys_map]
      exact List.mem_map_of_mem huser
    obtain ⟨response, hresponse, hsummary⟩ := List.mem_map.mp hmem
    rw [responses_for_all hall, if_pos hchannel]
    exact ⟨response, hresponse, by rw [hsummary, listed_user_id huser]⟩
  · obtain ⟨hmem, -⟩ := List.mem_filter.mp h
    rw [performGetChannelUserKeys, if_neg hall]
    exact ⟨_, List.mem_singleton_self _, (List.mem_singleton.mp hmem).symm⟩

/-- The answer has one end, unless it is for all users and there is none. -/
theorem ended_iff :
    ((performGetChannelUserKeys env (keyBacking store scans) unset request).flatMap
        (·.onGetCKey env viewer)).count
        (endOfGetCKey env viewer request.uniquenick (request.channel env store).channelName) = 1 ↔
      (request.username = ascii "*" → request.addressed env store ≠ []) := by
  by_cases hall : request.username = ascii "*"
  · rw [responses_for_all hall, GetCKeyRequest.addressed, if_pos hall]
    by_cases hchannel : (request.channel env store).channelId = 0
    · simp [hall, hchannel]
    · rw [if_pos hchannel, if_neg hchannel, count_users_end]
      simp [hall]
  · rw [performGetChannelUserKeys, if_neg hall, getChannelUserKeysSingleUser,
      List.flatMap_singleton,
      count_end request.uniquenick (request.channel env store).channelName rfl rfl]
    simp [hall]

/-- What a pattern finds is what the key is found to be by its name. -/
theorem KeysAnswered.value_eq {name : Bytes} {keys : List (Bytes × Bytes)}
    {response : UserKeysResponse} (h : KeysAnswered glob (db.hash name) keys response)
    {pair : Bytes × Bytes} (hpair : pair ∈ response.kvDataWithnames) :
    storedValue (db.hash name) pair.1 = pair.2 := by
  obtain ⟨hvalue, -⟩ := (h.matched pair).mp hpair
  rw [storedValue, (db.texts name _ _ hvalue).1, hvalue]
  rfl

variable {channelTarget userTarget numeric : Bytes}

/-- The keys of an addressed user are found exactly if the request asks for nothing else. -/
theorem response_answered_iff {response : UserKeysResponse}
    (h : response ∈ performGetChannelUserKeys env (keyBacking store scans) unset
      (handleGetCKey channelTarget userTarget numeric kvText))
    (haddressed : response.summary.id ∈
      (handleGetCKey channelTarget userTarget numeric kvText).addressed env store) :
    KeysAnswered glob ((handleGetCKey channelTarget userTarget numeric kvText).custkeys env store db
        response.summary.id) (requestedKeys kvText) response ↔
      (∀ key ∈ requestedKeys kvText, plainKey key = true → char '\\' ∉ storedValue
        ((handleGetCKey channelTarget userTarget numeric kvText).custkeys env store db
          response.summary.id) key.1) ∧
        ∀ key ∈ requestedKeys kvText, plainKey key = false → ∀ field,
          ((handleGetCKey channelTarget userTarget numeric kvText).custkeys env store db
            response.summary.id field).isSome → glob.stands (cString key.1) field = false := by
  obtain ⟨hnamed, hmatched⟩ := response_keys h haddressed
  exact keys_answered_iff hnamed hmatched

theorem GetCKeyFinds.meets
    (h : GetCKeyFinds env store db (handleGetCKey channelTarget userTarget numeric kvText) viewer
      glob (performGetChannelUserKeys env (keyBacking store scans) unset
        (handleGetCKey channelTarget userTarget numeric kvText))) :
    GetCKeyMeets env store db (handleGetCKey channelTarget userTarget numeric kvText) glob := by
  refine ⟨?_, ?_, ended_iff.mp h.ended⟩
  · intro userId huser
    obtain ⟨response, hresponse, rfl⟩ := h.each userId huser
    exact ((response_answered_iff hresponse huser).mp (h.keys response hresponse huser)).1
  · intro userId huser
    obtain ⟨response, hresponse, rfl⟩ := h.each userId huser
    exact ((response_answered_iff hresponse huser).mp (h.keys response hresponse huser)).2

theorem GetCKeyMeets.finds
    (h : GetCKeyMeets env store db (handleGetCKey channelTarget userTarget numeric kvText) glob) :
    GetCKeyFinds env store db (handleGetCKey channelTarget userTarget numeric kvText) viewer glob
      (performGetChannelUserKeys env (keyBacking store scans) unset
        (handleGetCKey channelTarget userTarget numeric kvText)) where
  each _ huser := addressed_answered huser
  keys _ hresponse huser := (response_answered_iff hresponse huser).mpr
    ⟨h.named _ huser, h.unmatched _ huser⟩
  ended := ended_iff.mpr h.listed

end Finding

/-- A GETCKEY is answered for each user it addresses with the values of the named keys, with the
keys that a pattern stands for, and with one end, exactly if no pattern stands for a key of an
addressed user, no value of a named key has a backslash, and a request for all users finds one. -/
theorem getckey_finds_iff (env : Environment) (viewer : Viewer) (store : ChannelStore)
    (glob : FieldPattern) (db : KeyDatabase) (scans : KeyScans glob db)
    (unset : ChannelUserSummary) (channelTarget userTarget numeric kvText : Bytes) :
    GetCKeyFinds env store db (handleGetCKey channelTarget userTarget numeric kvText) viewer glob
        (performGetChannelUserKeys env (keyBacking store scans) unset
          (handleGetCKey channelTarget userTarget numeric kvText)) ↔
      GetCKeyMeets env store db (handleGetCKey channelTarget userTarget numeric kvText) glob :=
  ⟨GetCKeyFinds.meets, GetCKeyMeets.finds⟩

/-- A key that she has set. -/
def aliceFlags : KeyDatabase :=
  KeyDatabase.empty.setCKey quietEnvironment aliceInChannel (ascii "#a") (ascii "alice")
    (ascii "\\b_flags\\s") aliceChannel

/-- A pattern does not find the key that she has set. -/
theorem pattern_finds_nothing :
    ¬ ∀ (env : Environment) (viewer : Viewer) (store : ChannelStore) (glob : FieldPattern)
      (db : KeyDatabase) (scans : KeyScans glob db) (unset : ChannelUserSummary)
      (channelTarget userTarget numeric kvText : Bytes),
      GetCKeyFinds env store db (handleGetCKey channelTarget userTarget numeric kvText) viewer glob
        (performGetChannelUserKeys env (keyBacking store scans) unset
          (handleGetCKey channelTarget userTarget numeric kvText)) := by
  intro h
  have hmeets := (h quietEnvironment ⟨aliceInChannel, []⟩ aliceChannel starPattern aliceFlags
    (aliceFlags.scans starPattern) ⟨0, 0, 0, .empty⟩ (ascii "#a") (ascii "alice") (ascii "3")
    (ascii "\\b_*")).meets
  have hflag := hmeets.unmatched 1 (by decide) (ascii "b_*", ascii "stub") (by decide) (by decide)
    (ascii "b_flags") (by decide)
  exact absurd hflag (by decide)

end OpenSpy.Peerchat
