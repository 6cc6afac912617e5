import OpenSpy.Library.Runs
import OpenSpy.Peerchat.Replies

/-!
# The keys of users

A client may store keys of its own in the hashes `user_<id>_custkeys` and
`channel_<id>_user_<id>_custkeys`, which also hold who the user is: name, nick, profile and so on.
These identity keys are written again after each change. SETKEY writes those of the user; SETCKEY
writes those of an empty user to the hashes of the user 0, so that the identity keys of the channel
stay as the client has set them. `identity_kept_iff` says for which runs of JOIN, SETCKEY and
SETKEY every user keeps his identity.
-/

namespace OpenSpy.Peerchat

open Bytes Redis Runs UserChannelFlag ChannelStore

/-- The store, with the hashes `user_<id>_custkeys` and `channel_<id>_user_<id>_custkeys`. The
hashes `user_<id>` are in the store. -/
structure KeyState where
  store : ChannelStore
  userKeys : Int → Hash
  channelUserKeys : BitVec 32 → Int → Hash

/-- The public arguments of the `HMSET` of `ApplyUserKeys`. -/
def identityPairs (summary : UserSummary) : List (Bytes × Bytes) :=
  [(ascii "username", cString summary.username), (ascii "nick", cString summary.nick),
    (ascii "realname", cString summary.realname), (ascii "gameid", printInt summary.gameid),
    (ascii "hostname", cString summary.hostname), (ascii "profileid", printInt summary.profileid),
    (ascii "userid", printInt summary.userid), (ascii "backendid", printInt summary.id)]

/-- `ApplyUserKeys` for the hash `user_<id>`. Without the private arguments these stay as they
were. -/
def userRecord (showPrivate : Bool) (summary old : UserSummary) : UserSummary where
  id := summary.id
  nick := cString summary.nick
  username := cString summary.username
  hostname := cString summary.hostname
  realname := cString summary.realname
  address := if showPrivate then summary.address else old.address
  gameid := summary.gameid
  profileid := summary.profileid
  userid := summary.userid
  modeflags := if showPrivate then summary.modeflags else old.modeflags
  operflags := if showPrivate then summary.operflags else old.operflags

/-- The pairs that a client has sent, as `HSET` gets them. -/
def hashPairs (kvText : Bytes) : List (Bytes × Bytes) :=
  (kvReader kvText).map fun pair => (cString pair.1, cString pair.2)

namespace KeyState

/-- `ApplyUserKeys` with an empty base key, for the hash of the user and then for the one with his
keys. -/
def applyUserKeys (showPrivate : Bool) (summary : UserSummary) (state : KeyState) : KeyState :=
  { state with
    store :=
      { state.store with
        user := Function.update state.store.user summary.id
          (some (userRecord showPrivate summary ((state.store.user summary.id).getD .empty))) }
    userKeys := Function.update state.userKeys summary.id
      (hmset (state.userKeys summary.id) (identityPairs summary)) }

/-- `HSET channel_<id>_user_<id>_custkeys` or `HMSET`, for several pairs. -/
def setChannelUserKeys (channelId : BitVec 32) (userId : Int) (pairs : List (Bytes × Bytes))
    (state : KeyState) : KeyState :=
  { state with
    channelUserKeys := Function.update state.channelUserKeys channelId
      (Function.update (state.channelUserKeys channelId) userId
        (hmset (state.channelUserKeys channelId userId) pairs)) }

/-- `HSET user_<id>_custkeys`, for several pairs. -/
def setUserKeys (userId : Int) (pairs : List (Bytes × Bytes)) (state : KeyState) : KeyState :=
  { state with
    userKeys := Function.update state.userKeys userId (hmset (state.userKeys userId) pairs) }

end KeyState

/-- `map[name] = value` of a `std::map`, in the order of its keys. -/
def setField (name value : Bytes) : List (Bytes × Bytes) → List (Bytes × Bytes)
  | [] => [(name, value)]
  | (other, old) :: rest =>
      if name = other then (other, value) :: rest
      else if name < other then (name, value) :: (other, old) :: rest
      else (other, old) :: setField name value rest

/-- The keys of a SETCKEY that are told to the channel. -/
def broadcastKeys (kvText : Bytes) : List (Bytes × Bytes) :=
  ((kvReader kvText).filter fun pair => pair.1.length > 2 && pair.1.take 2 == ascii "b_").foldl
    (fun keys pair => setField pair.1 pair.2 keys) []

section Tasks

variable (env : Environment) (peer : ChatPeer)

/-- The channel and the user of a SETCKEY, if it is carried out. -/
def setCKeyTarget (channelTarget userTarget : Bytes) (store : ChannelStore) :
    Option (BitVec 32 × Int) :=
  let summary := getChannelSummaryByName env store channelTarget
  let userSummary := getUserSummaryByName env store userTarget
  let fromModeFlags := lookupUserChannelModeFlags store summary.channelId peer.details.id
  if userSummary.id ≠ peer.details.id ∧ !checkActionPermissions peer fromModeFlags 0 op then none
  else if summary.channelId ≠ 0 ∧ userSummary.id ≠ 0 then
    if peer.inChannel summary.channelId then some (summary.channelId, userSummary.id) else none
  else none

/-- The summary of a SETCKEY request. `handle_setckey` sets its username only, to the target. -/
def requestSummary (userTarget : Bytes) : UserSummary :=
  { UserSummary.empty with username := userTarget, modeflags := 0 }

/-- `Perform_SetChannelUserKeys`, and what it publishes. -/
def performSetChannelUserKeys (channelTarget userTarget kvText : Bytes) (state : KeyState) :
    KeyState × List Published :=
  match setCKeyTarget env peer channelTarget userTarget state.store with
  | none => (state, [])
  | some (channelId, userId) =>
      ((state.setChannelUserKeys channelId userId (hashPairs kvText)).applyUserKeys false
          (requestSummary userTarget),
        if broadcastKeys kvText = [] then []
        else [.setChannelUserKeys channelId userId (kvString (broadcastKeys kvText))])

/-- `Perform_SetUserKeys`. `handle_setkey` asks for the nick of the peer. -/
def performSetUserKeys (kvText : Bytes) (state : KeyState) : KeyState :=
  let userSummary := getUserSummaryByName env state.store peer.details.nick
  if userSummary.id ≠ peer.details.id ∧ !peer.hasPrivilege globalOwner then state
  else (state.setUserKeys userSummary.id (hashPairs kvText)).applyUserKeys true userSummary

/-- `Perform_UserJoinChannel` with the keys that `AddUserToChannel` writes. -/
def performJoin (request : JoinRequest) (state : KeyState) : KeyState :=
  let channelId := (getOrCreateChannel env state.store request.channelName).2.1.channelId
  match performUserJoinChannel env peer request state.store with
  | (store, .success) =>
      ({ state with store := store } : KeyState).setChannelUserKeys channelId peer.details.id
        (identityPairs peer.details)
  | (store, _) => { state with store := store }

/-- What `Perform_GetUserKeys` finds for a key of a user. -/
def getKeyValue (name key : Bytes) (state : KeyState) : Bytes :=
  let userSummary := getUserSummaryByName env state.store name
  if userSummary.id ≠ 0 then (state.userKeys userSummary.id (cString key)).getD [] else []

/-- What `Handle_GetChannelUserKeys_SingleUser` finds for a key of a user in a channel. -/
def getCKeyValue (channelTarget name key : Bytes) (state : KeyState) : Bytes :=
  let summary := getChannelSummaryByName env state.store channelTarget
  let userSummary := getUserSummaryByName env state.store name
  if summary.channelId ≠ 0 ∧ userSummary.id ≠ 0 then
    (state.channelUserKeys summary.channelId userSummary.id (cString key)).getD []
  else []

end Tasks

/-- The requests of a client about keys, and the one that lets it into a channel. -/
inductive KeyRequest where
  | join (request : JoinRequest)
  | setCKey (channelTarget userTarget kvText : Bytes)
  | setKey (kvText : Bytes)

/-- A request of a peer, with what its task finds outside of the store. -/
structure KeyTask where
  env : Environment
  peer : ChatPeer
  request : KeyRequest

/-- A task that is run to its end. -/
def KeyState.step (state : KeyState) (task : KeyTask) : KeyState :=
  match task.request with
  | .join request => performJoin task.env task.peer request state
  | .setCKey channelTarget userTarget kvText =>
      (performSetChannelUserKeys task.env task.peer channelTarget userTarget kvText state).1
  | .setKey kvText => performSetUserKeys task.env task.peer kvText state

/-- The record of a user, with his id. -/
def recordOf (userId : Int) (record : UserSummary) : UserSummary :=
  { record with id := userId }

/-- GETKEY and GETCKEY find the identity keys of a user's own record, as it is in the store
`start`. -/
def IdentityKept (start state : KeyState) : Prop :=
  ∀ userId record, start.store.user userId = some record → userId ≠ 0 →
    ∀ env name, (getUserSummaryByName env state.store name).id = userId →
      ∀ pair ∈ identityPairs (recordOf userId record),
        getKeyValue env name pair.1 state = pair.2 ∧
          ∀ channelTarget,
            (getChannelSummaryByName env state.store channelTarget).channelId ≠ 0 →
            state.store.IsMember (getChannelSummaryByName env state.store channelTarget).channelId
              userId → getCKeyValue env channelTarget name pair.1 state = pair.2

/-- The keys that belong to a user are the same. -/
structure SameKeys (state next : KeyState) (userId : Int) : Prop where
  user : next.store.user userId = state.store.user userId
  userKeys : next.userKeys userId = state.userKeys userId
  channelUserKeys : ∀ channelId,
    next.channelUserKeys channelId userId = state.channelUserKeys channelId userId
  channelUser : next.store.channelUser userId = state.store.channelUser userId

/-- A SETCKEY or SETKEY changes no key of a user whom it does not name. -/
def ChangesNamedOnly (state : KeyState) (task : KeyTask) : Prop :=
  match task.request with
  | .join _ => True
  | .setCKey _ userTarget _ => ∀ userId,
      userId ≠ (getUserSummaryByName task.env state.store userTarget).id →
        SameKeys state (state.step task) userId
  | .setKey _ => ∀ userId,
      userId ≠ (getUserSummaryByName task.env state.store task.peer.details.nick).id →
        SameKeys state (state.step task) userId

/-- The user 0 has what a SETCKEY writes for him. -/
def UserZeroWritten (state : KeyState) (userTarget : Bytes) : Prop :=
  (∀ pair ∈ identityPairs (requestSummary userTarget),
    state.userKeys 0 pair.1 = some pair.2) ∧
  ∃ record, state.store.user 0 = some record ∧ record.id = 0 ∧ record.nick = [] ∧
    record.username = cString userTarget ∧ record.hostname = [] ∧ record.realname = [] ∧
    record.gameid = -1 ∧ record.profileid = 0 ∧ record.userid = 0

/-- The identity keys that a client sets for a user are his own. -/
def OwnIdentity (record : UserSummary) (kvText : Bytes) : Prop :=
  ∀ pair ∈ identityPairs record, ∀ value,
    (hashPairs kvText).reverse.lookup pair.1 = some value → value = pair.2

/-- A SETCKEY that is carried out writes nothing new for the user 0, and sets no identity key of a
member to anything but its own value. -/
def KeyTask.Harmless (state : KeyState) (task : KeyTask) : Prop :=
  match task.request with
  | .setCKey channelTarget userTarget kvText => ∀ channelId userId,
      setCKeyTarget task.env task.peer channelTarget userTarget state.store =
        some (channelId, userId) →
      UserZeroWritten state userTarget ∧
        (state.store.IsMember channelId userId → ∀ record, state.store.user userId = some record →
          OwnIdentity (recordOf userId record) kvText)
  | _ => True

/-- The peer is logged in as a user of the store. -/
def Registered (start : KeyState) (peer : ChatPeer) : Prop :=
  ∃ record, start.store.user peer.details.id = some record ∧
    identityPairs peer.details = identityPairs (recordOf peer.details.id record)

/-- What a run keeps: the records of the users at its start, and no others, are there, with the
identity keys for the users and for the members of channels. No nick is that of the server. The
user 0 is nobody. -/
structure KeysRight (start state : KeyState) : Prop where
  nicks : ∀ name, state.store.usernick name ≠ some (-1)
  records : ∀ userId record, start.store.user userId = some record → userId ≠ 0 →
    ∃ now, state.store.user userId = some now ∧
      identityPairs (recordOf userId now) = identityPairs (recordOf userId record)
  others : ∀ userId, userId ≠ 0 → (state.store.user userId).isSome →
    (start.store.user userId).isSome
  users : ∀ userId record, start.store.user userId = some record → userId ≠ 0 →
    ∀ pair ∈ identityPairs (recordOf userId record), state.userKeys userId pair.1 = some pair.2
  members : ∀ userId record, start.store.user userId = some record → userId ≠ 0 →
    ∀ channelId, state.store.IsMember channelId userId →
      ∀ pair ∈ identityPairs (recordOf userId record),
        state.channelUserKeys channelId userId pair.1 = some pair.2

section Pairs

variable {summary : UserSummary} {pair : Bytes × Bytes}

/-- The identity keys have different names, and the names no NUL. -/
theorem identity_pair_name (h : pair ∈ identityPairs summary) :
    cString pair.1 = pair.1 ∧
      ∀ other, (pair.1, other) ∈ identityPairs summary → other = pair.2 := by
  have hnames : (identityPairs summary).map (·.1) = [ascii "username", ascii "nick",
      ascii "realname", ascii "gameid", ascii "hostname", ascii "profileid", ascii "userid",
      ascii "backendid"] := rfl
  have hnodup : ((identityPairs summary).map (·.1)).Nodup := by
    rw [hnames]
    decide
  constructor
  · have hall :
        ((identityPairs summary).map (·.1)).all (fun name => cString name == name) = true := by
      rw [hnames]
      decide
    simpa using List.all_eq_true.mp hall pair.1 (List.mem_map_of_mem h)
  · intro other hother
    have hsame := List.inj_on_of_nodup_map hnodup hother h rfl
    rw [← hsame]

/-- `ApplyUserKeys` leaves the identity keys with the values of the summary. -/
theorem hmset_identity (hash : Hash) (h : pair ∈ identityPairs summary) :
    hmset hash (identityPairs summary) pair.1 = some pair.2 :=
  hmset_of_mem h (identity_pair_name h).2

/-- A hash has all pairs that are written to it exactly if writing them changes nothing. -/
theorem hmset_identity_eq_self (hash : Hash) :
    hmset hash (identityPairs summary) = hash ↔
      ∀ pair ∈ identityPairs summary, hash pair.1 = some pair.2 := by
  constructor
  · intro hsame pair hpair
    rw [← hsame]
    exact hmset_identity hash hpair
  · intro hall
    funext field
    by_cases hmem : ∃ value, (field, value) ∈ identityPairs summary
    · obtain ⟨value, hvalue⟩ := hmem
      rw [hall _ hvalue]
      exact hmset_identity hash hvalue
    · exact hmset_of_not_mem fun value hvalue => hmem ⟨value, hvalue⟩

/-- A record that is written has the identity of the summary. -/
theorem identity_user_record (showPrivate : Bool) (userId : Int) (old : UserSummary) :
    identityPairs (recordOf userId (userRecord showPrivate summary old)) =
      identityPairs (recordOf userId summary) := by
  simp [identityPairs, recordOf, userRecord, c_string_c_string]

end Pairs

section Names

variable {env : Environment} {start state : KeyState}

/-- The user of a nick. -/
theorem user_of_nick {store : ChannelStore} {name : Bytes} {userId : Int} {record : UserSummary}
    (hnick : store.usernick (nickKey name) = some userId) (hserver : userId ≠ -1)
    (hrecord : store.user userId = some record) :
    getUserSummaryByName env store name = recordOf userId record := by
  rw [getUserSummaryByName, hnick]
  simp only [lookupUserById, if_neg hserver, hrecord]
  rfl

/-- A user who is found by his nick is one with a record. -/
theorem KeysRight.user_by_name (h : KeysRight start state) {name : Bytes} {userId : Int}
    (hid : (getUserSummaryByName env state.store name).id = userId) (hne : userId ≠ 0) :
    state.store.usernick (nickKey name) = some userId ∧ userId ≠ -1 ∧
      ∃ record, state.store.user userId = some record ∧
        getUserSummaryByName env state.store name = recordOf userId record := by
  cases hnick : state.store.usernick (nickKey name) with
  | none =>
      rw [getUserSummaryByName, hnick] at hid
      exact absurd hid.symm hne
  | some id =>
      have hserver : id ≠ -1 := fun heq => h.nicks _ (heq ▸ hnick)
      cases huser : state.store.user id with
      | none =>
          rw [getUserSummaryByName, hnick] at hid
          simp only [lookupUserById, if_neg hserver, huser] at hid
          exact absurd hid.symm hne
      | some record =>
          have hfound := @user_of_nick env state.store name id record hnick hserver huser
          rw [hfound] at hid
          obtain rfl : id = userId := hid
          exact ⟨rfl, hserver, record, huser, hfound⟩

/-- What the run keeps is what GETKEY and GETCKEY show. -/
theorem KeysRight.identity_kept (h : KeysRight start state) : IdentityKept start state := by
  intro userId record hrecord hne env name hname pair hpair
  have hstring := (identity_pair_name hpair).1
  constructor
  · simp only [getKeyValue, hname, if_pos hne, hstring, h.users userId record hrecord hne pair hpair]
    rfl
  · intro channelTarget hchannel hmember
    simp only [getCKeyValue, hname, if_pos (And.intro hchannel hne), hstring,
      h.members userId record hrecord hne _ hmember pair hpair]
    rfl

end Names

section Steps

variable {env : Environment} {peer : ChatPeer} {start state : KeyState}

/-- The target of a SETCKEY that is carried out. -/
theorem set_c_key_target_spec {channelTarget userTarget : Bytes} {store : ChannelStore}
    {channelId : BitVec 32} {userId : Int}
    (h : setCKeyTarget env peer channelTarget userTarget store = some (channelId, userId)) :
    (getChannelSummaryByName env store channelTarget).channelId = channelId ∧ channelId ≠ 0 ∧
      (getUserSummaryByName env store userTarget).id = userId ∧ userId ≠ 0 := by
  unfold setCKeyTarget at h
  simp only at h
  split at h
  · cases h
  · split at h
    · rename_i hboth
      split at h
      · obtain ⟨rfl, rfl⟩ := Prod.mk.inj (Option.some.inj h)
        exact ⟨rfl, hboth.1, rfl, hboth.2⟩
      · cases h
    · cases h

/-- Nicks, users and memberships are all that matters of the store. -/
theorem KeysRight.of_same (h : KeysRight start state) {staged : ChannelStore}
    (hsame : SameMembers staged state.store) (husers : staged.user = state.store.user)
    (hnicks : staged.usernick = state.store.usernick) :
    KeysRight start { state with store := staged } := by
  refine ⟨fun name => ?_, fun userId record hrecord hne => ?_, fun userId hne hsome => ?_, h.users,
    fun userId record hrecord hne channelId hmember => ?_⟩
  · show staged.usernick name ≠ _
    rw [hnicks]
    exact h.nicks name
  · show ∃ now, staged.user userId = some now ∧ _
    rw [husers]
    exact h.records userId record hrecord hne
  · refine h.others userId hne ?_
    rw [← husers]
    exact hsome
  · refine h.members userId record hrecord hne channelId ?_
    rw [ChannelStore.IsMember, ← hsame.flags]
    exact hmember

/-- A registered user comes into a channel with his identity keys. -/
theorem KeysRight.add (h : KeysRight start state) (hpeer : Registered start peer)
    (channelId flags : BitVec 32) :
    KeysRight start (({ state with
      store := addUserToChannel state.store peer.details.id channelId flags } :
        KeyState).setChannelUserKeys channelId peer.details.id (identityPairs peer.details)) := by
  refine ⟨h.nicks, h.records, h.others, h.users,
    fun userId record hrecord hne otherId hmember pair hpair => ?_⟩
  show Function.update state.channelUserKeys channelId (Function.update
    (state.channelUserKeys channelId) peer.details.id _) otherId userId pair.1 = _
  by_cases hhere : otherId = channelId ∧ userId = peer.details.id
  · obtain ⟨rfl, rfl⟩ := hhere
    rw [Function.update_self, Function.update_self]
    obtain ⟨own, hown, hidentity⟩ := hpeer
    obtain rfl : own = record := Option.some.inj (hown.symm.trans hrecord)
    rw [← hidentity] at hpair
    exact hmset_identity _ hpair
  · have hflag : lookupUserChannelModeFlags (addUserToChannel state.store peer.details.id channelId
        flags) otherId userId = lookupUserChannelModeFlags state.store otherId userId := by
      rw [addUserToChannel, lookup_set_flags, if_neg hhere]
      rfl
    have hbefore : state.store.IsMember otherId userId := by
      have hkept : hasFlag (lookupUserChannelModeFlags (addUserToChannel state.store peer.details.id
        channelId flags) otherId userId) isInChannel := hmember
      rw [hflag] at hkept
      exact hkept
    have hold := h.members userId record hrecord hne otherId hbefore pair hpair
    by_cases hc : otherId = channelId
    · subst hc
      rw [Function.update_self, Function.update_of_ne fun hu => hhere ⟨rfl, hu⟩]
      exact hold
    · rw [Function.update_of_ne hc]
      exact hold

/-- JOIN of a registered user. -/
theorem KeysRight.join (h : KeysRight start state) (hpeer : Registered start peer)
    (request : JoinRequest) : KeysRight start (performJoin env peer request state) := by
  obtain ⟨staged, flags, hsame, husers, hnicks, houtcome⟩ :=
    join_outcome env peer request state.store
  have hstaged := h.of_same hsame husers hnicks
  rcases houtcome with hrefused | ⟨hadded, -, -⟩
  · simp only [performJoin, hrefused]
    exact hstaged
  · simp only [performJoin, hadded]
    exact hstaged.add hpeer _ flags

/-- The user 0, or a user with his own record, is written. -/
theorem KeysRight.write_user (h : KeysRight start state) (showPrivate : Bool)
    {summary : UserSummary} (hsummary : summary.id ≠ 0 → ∃ now,
      state.store.user summary.id = some now ∧ summary = recordOf summary.id now)
    (old : UserSummary) (hash : Hash) :
    KeysRight start { state with
      store := { state.store with
        user := Function.update state.store.user summary.id
          (some (userRecord showPrivate summary old)) }
      userKeys := Function.update state.userKeys summary.id
        (hmset hash (identityPairs summary)) } := by
  have hown : ∀ userId record, start.store.user userId = some record → userId ≠ 0 →
      userId = summary.id → identityPairs summary = identityPairs (recordOf userId record) := by
    intro userId record hrecord hne heq
    obtain ⟨now, hnow, hsame⟩ := hsummary (heq ▸ hne)
    obtain ⟨kept, hkept, hidentity⟩ := h.records userId record hrecord hne
    obtain rfl : now = kept := by
      rw [heq, hnow] at hkept
      exact Option.some.inj hkept
    rw [← hidentity, hsame, heq]
  refine ⟨h.nicks, fun userId record hrecord hne => ?_, fun userId hne hsome => ?_,
    fun userId record hrecord hne pair hpair => ?_, h.members⟩
  · by_cases heq : userId = summary.id
    · refine ⟨userRecord showPrivate summary old, ?_, ?_⟩
      · rw [heq]
        exact Function.update_self ..
      · rw [identity_user_record, ← hown userId record hrecord hne heq, heq]
        rfl
    · obtain ⟨now, hnow, hidentity⟩ := h.records userId record hrecord hne
      exact ⟨now, (Function.update_of_ne heq ..).trans hnow, hidentity⟩
  · by_cases heq : userId = summary.id
    · obtain ⟨now, hnow, -⟩ := hsummary (heq ▸ hne)
      refine h.others userId hne ?_
      rw [heq, hnow]
      rfl
    · refine h.others userId hne ?_
      rw [← Function.update_of_ne heq (some (userRecord showPrivate summary old)) state.store.user]
      exact hsome
  · by_cases heq : userId = summary.id
    · rw [← hown userId record hrecord hne heq] at hpair
      rw [heq]
      show Function.update state.userKeys summary.id _ summary.id pair.1 = _
      rw [Function.update_self]
      exact hmset_identity _ hpair
    · show Function.update state.userKeys summary.id _ userId pair.1 = _
      rw [Function.update_of_ne heq]
      exact h.users userId record hrecord hne pair hpair

/-- SETKEY. -/
theorem KeysRight.set_key (h : KeysRight start state) (kvText : Bytes) :
    KeysRight start (performSetUserKeys env peer kvText state) := by
  unfold performSetUserKeys
  simp only
  split
  · exact h
  · set summary := getUserSummaryByName env state.store peer.details.nick with hsummary
    have hfound : summary.id ≠ 0 → ∃ now, state.store.user summary.id = some now ∧
        summary = recordOf summary.id now := by
      intro hne
      exact (h.user_by_name rfl hne).2.2
    have hwritten := h.write_user true hfound ((state.store.user summary.id).getD .empty)
      (hmset (state.userKeys summary.id) (hashPairs kvText))
    simpa [KeyState.applyUserKeys, KeyState.setUserKeys] using hwritten

/-- SETKEY changes the keys of the user it names. -/
theorem set_key_changes (userId : Int) (kvText : Bytes)
    (hne : userId ≠ (getUserSummaryByName env state.store peer.details.nick).id) :
    SameKeys state (performSetUserKeys env peer kvText state) userId := by
  unfold performSetUserKeys
  simp only
  split
  · exact ⟨rfl, rfl, fun _ => rfl, rfl⟩
  · refine ⟨Function.update_of_ne hne .., ?_, fun _ => rfl, rfl⟩
    exact (Function.update_of_ne hne ..).trans (Function.update_of_ne hne ..)

section SetCKey

variable {channelId : BitVec 32} {userId : Int} {userTarget : Bytes}

/-- The state behind a SETCKEY that is carried out. -/
def KeyState.setCKey (channelId : BitVec 32) (userId : Int) (userTarget kvText : Bytes)
    (state : KeyState) : KeyState :=
  (state.setChannelUserKeys channelId userId (hashPairs kvText)).applyUserKeys false
    (requestSummary userTarget)

/-- What is set for the member of a channel. -/
theorem set_c_key_pair (kvText key : Bytes) :
    (state.setCKey channelId userId userTarget kvText).channelUserKeys channelId userId key =
      ((hashPairs kvText).reverse.lookup key).or (state.channelUserKeys channelId userId key) := by
  show Function.update state.channelUserKeys channelId (Function.update
    (state.channelUserKeys channelId) userId _) channelId userId key = _
  rw [Function.update_self, Function.update_self, hmset_apply]

/-- A SETCKEY without a foreign identity. -/
theorem KeysRight.set_c_key (h : KeysRight start state) (kvText : Bytes)
    (hown : state.store.IsMember channelId userId → ∀ record,
      state.store.user userId = some record → OwnIdentity (recordOf userId record) kvText) :
    KeysRight start (state.setCKey channelId userId userTarget kvText) := by
  have hset : KeysRight start (state.setChannelUserKeys channelId userId (hashPairs kvText)) := by
    refine ⟨h.nicks, h.records, h.others, h.users,
      fun otherId record hrecord hne otherChannel hmember pair hpair => ?_⟩
    show Function.update state.channelUserKeys channelId (Function.update
      (state.channelUserKeys channelId) userId _) otherChannel otherId pair.1 = _
    have hold := h.members otherId record hrecord hne otherChannel hmember pair hpair
    by_cases hc : otherChannel = channelId
    · subst hc
      rw [Function.update_self]
      by_cases hu : otherId = userId
      · subst hu
        rw [Function.update_self, hmset_apply, hold]
        cases hlookup : (hashPairs kvText).reverse.lookup pair.1 with
        | none => rfl
        | some value =>
            obtain ⟨now, hnow, hidentity⟩ := h.records otherId record hrecord hne
            rw [← hidentity] at hpair
            rw [hown hmember now hnow pair hpair value hlookup]
            rfl
      · rw [Function.update_of_ne hu]
        exact hold
    · rw [Function.update_of_ne hc]
      exact hold
  exact hset.write_user false (fun hne => absurd rfl hne) _ _

/-- A SETCKEY that is carried out writes the user 0. -/
theorem set_c_key_changes (kvText : Bytes) (hne : userId ≠ 0) :
    (∀ otherId, otherId ≠ userId →
        SameKeys state (state.setCKey channelId userId userTarget kvText) otherId) ↔
      UserZeroWritten state userTarget := by
  have huser : (state.setCKey channelId userId userTarget kvText).store.user 0 =
      some (userRecord false (requestSummary userTarget) ((state.store.user 0).getD .empty)) := by
    show Function.update state.store.user 0 _ 0 = _
    rw [Function.update_self]
    rfl
  have hkeys : (state.setCKey channelId userId userTarget kvText).userKeys 0 =
      hmset (state.userKeys 0) (identityPairs (requestSummary userTarget)) := by
    show Function.update state.userKeys 0 _ 0 = _
    rw [Function.update_self]
    rfl
  have hchannel : ∀ otherId, otherId ≠ userId → ∀ otherChannel,
      (state.setCKey channelId userId userTarget kvText).channelUserKeys otherChannel otherId =
        state.channelUserKeys otherChannel otherId := by
    intro otherId hother otherChannel
    show Function.update state.channelUserKeys channelId (Function.update
      (state.channelUserKeys channelId) userId _) otherChannel otherId = _
    by_cases hc : otherChannel = channelId
    · subst hc
      rw [Function.update_self, Function.update_of_ne hother]
    · rw [Function.update_of_ne hc]
  constructor
  · intro hsame
    have hzero := hsame 0 (Ne.symm hne)
    refine ⟨(hmset_identity_eq_self _).mp (hkeys.symm.trans hzero.userKeys), _,
      (huser.symm.trans hzero.user).symm, rfl, rfl, rfl, rfl, rfl, rfl, rfl, rfl⟩
  · rintro ⟨hpairs, record, hrecord, hid, hnick, hname, hhost, hreal, hgame, hprofile, huserid⟩
    intro otherId hother
    by_cases hzero : otherId = 0
    · subst hzero
      refine ⟨?_, ?_, hchannel 0 hother, rfl⟩
      · rw [huser, hrecord]
        cases record
        simp_all [userRecord, requestSummary, UserSummary.empty, cString]
      · rw [hkeys]
        exact (hmset_identity_eq_self _).mpr hpairs
    · exact ⟨Function.update_of_ne hzero .., Function.update_of_ne hzero .., hchannel otherId hother,
        rfl⟩

/-- A SETCKEY that leaves GETCKEY with the identity of a member sets none but his own. -/
theorem own_identity_of_kept (h : KeysRight start state) {channelTarget kvText : Bytes}
    (htarget : setCKeyTarget env peer channelTarget userTarget state.store =
      some (channelId, userId))
    (hkept : IdentityKept start (state.setCKey channelId userId userTarget kvText))
    (hmember : state.store.IsMember channelId userId) {record : UserSummary}
    (hrecord : state.store.user userId = some record) :
    OwnIdentity (recordOf userId record) kvText := by
  obtain ⟨hchannel, hchannelNe, huser, hne⟩ := set_c_key_target_spec htarget
  obtain ⟨first, hfirst⟩ := Option.isSome_iff_exists.mp
    (h.others userId hne (by rw [hrecord]; rfl))
  obtain ⟨now, hnow, hidentity⟩ := h.records userId first hfirst hne
  obtain rfl : now = record := Option.some.inj (hnow.symm.trans hrecord)
  -- the names stand for the same user and channel behind the SETCKEY
  have hname : (getUserSummaryByName env (state.setCKey channelId userId userTarget kvText).store
      userTarget).id = userId := by
    obtain ⟨hnick, hserver, -⟩ := h.user_by_name huser hne
    have hsame : (state.setCKey channelId userId userTarget kvText).store.user userId = some now :=
      (Function.update_of_ne hne ..).trans hrecord
    rw [@user_of_nick env (state.setCKey channelId userId userTarget kvText).store userTarget userId
      now hnick hserver hsame]
    rfl
  have hsameChannel : (getChannelSummaryByName env
      (state.setCKey channelId userId userTarget kvText).store channelTarget).channelId =
        channelId := by
    rw [← hchannel, channel_id_by_name, channel_id_by_name]
    rfl
  intro pair hpair value hlookup
  rw [hidentity] at hpair
  have hfound := (hkept userId first hfirst hne env userTarget hname pair hpair).2 channelTarget
    (hsameChannel ▸ hchannelNe) (hsameChannel ▸ hmember)
  rw [getCKeyValue, hname, hsameChannel] at hfound
  simp only [hchannelNe, hne, ne_eq, not_false_eq_true, and_self, if_true,
    (identity_pair_name hpair).1, set_c_key_pair, hlookup, Option.some_or,
    Option.getD_some] at hfound
  exact hfound

end SetCKey

/-- A step that is harmless keeps the identities. -/
theorem KeysRight.step {task : KeyTask} (h : KeysRight start state)
    (hpeer : Registered start task.peer) (hharmless : task.Harmless state) :
    KeysRight start (state.step task) := by
  obtain ⟨env, peer, request⟩ := task
  cases request with
  | join request => exact h.join hpeer request
  | setKey kvText => exact h.set_key kvText
  | setCKey channelTarget userTarget kvText =>
      show KeysRight start (performSetChannelUserKeys env peer channelTarget userTarget kvText
        state).1
      unfold performSetChannelUserKeys
      cases htarget : setCKeyTarget env peer channelTarget userTarget state.store with
      | none => exact h
      | some target => exact h.set_c_key kvText (hharmless target.1 target.2 htarget).2

/-- A step keeps the identities, and changes what belongs to the named user only, exactly if it is
harmless. -/
theorem KeysRight.step_iff {task : KeyTask} (h : KeysRight start state)
    (hpeer : Registered start task.peer) :
    IdentityKept start (state.step task) ∧ ChangesNamedOnly state task ↔ task.Harmless state := by
  constructor
  · rintro ⟨hkept, hchanges⟩
    obtain ⟨env, peer, request⟩ := task
    cases request with
    | join request => trivial
    | setKey kvText => trivial
    | setCKey channelTarget userTarget kvText =>
        intro channelId userId htarget
        have hstep : state.step ⟨env, peer, .setCKey channelTarget userTarget kvText⟩ =
            state.setCKey channelId userId userTarget kvText := by
          show (performSetChannelUserKeys env peer channelTarget userTarget kvText state).1 = _
          rw [performSetChannelUserKeys, htarget]
          rfl
        obtain ⟨-, -, huser, hne⟩ := set_c_key_target_spec htarget
        simp only [ChangesNamedOnly, huser, hstep] at hchanges
        rw [hstep] at hkept
        exact ⟨(set_c_key_changes kvText hne).mp hchanges, fun hmember record hrecord =>
          own_identity_of_kept h htarget hkept hmember hrecord⟩
  · intro hharmless
    refine ⟨(h.step hpeer hharmless).identity_kept, ?_⟩
    obtain ⟨env, peer, request⟩ := task
    cases request with
    | join request => trivial
    | setKey kvText => exact fun userId hother => set_key_changes userId kvText hother
    | setCKey channelTarget userTarget kvText =>
        simp only [ChangesNamedOnly, KeyState.step, performSetChannelUserKeys]
        cases htarget : setCKeyTarget env peer channelTarget userTarget state.store with
        | none => exact fun _ _ => ⟨rfl, rfl, fun _ => rfl, rfl⟩
        | some target =>
            obtain ⟨-, -, huser, hne⟩ := set_c_key_target_spec htarget
            rw [huser]
            exact (set_c_key_changes kvText hne).mpr (hharmless target.1 target.2 htarget).1

end Steps

/-- In a run of requests by registered users every step leaves all users their identity, and
changes no key of a user whom it does not name, exactly if every SETCKEY that is carried out sets
no identity key of a member to a value that is not his own, and the user 0 has already what it
writes for him. -/
theorem identity_kept_iff {start : KeyState} (hstart : KeysRight start start)
    {run : List KeyTask} (hpeers : ∀ task ∈ run, Registered start task.peer) :
    AtEach KeyState.step start (fun state task =>
        IdentityKept start (state.step task) ∧ ChangesNamedOnly state task) run ↔
      AtEach KeyState.step start (fun state task => task.Harmless state) run := by
  induction run using List.reverseRecOn with
  | nil => exact iff_of_true at_each_nil at_each_nil
  | append_singleton run task ih =>
      have hbefore : ∀ other ∈ run, Registered start other.peer :=
        fun other hother => hpeers other (List.mem_append_left _ hother)
      rw [at_each_concat, at_each_concat, ih hbefore]
      refine and_congr_right fun hharmless => ?_
      have hright : KeysRight start (after KeyState.step start run) := by
        refine @invariant_of_at_each _ _ _ _ run _
          (fun state next => Registered start next.peer ∧ next.Harmless state) hstart
          (fun state next h hmeets => h.step hmeets.1 hmeets.2) ?_
        intro before next later heq
        exact ⟨hbefore next (by rw [heq]; simp), hharmless before next later heq⟩
      exact hright.step_iff (hpeers task (by simp))

/-- A store without members, where every user has his identity keys. -/
def KeyState.ofStore (store : ChannelStore) : KeyState where
  store := store
  userKeys := fun userId => (store.user userId).elim (fun _ => none) fun record =>
    hmset (fun _ => none) (identityPairs (recordOf userId record))
  channelUserKeys := fun _ _ _ => none

theorem KeysRight.of_store {store : ChannelStore} (hnicks : ∀ name, store.usernick name ≠ some (-1))
    (hempty : ∀ channelId userId, ¬ store.IsMember channelId userId) :
    KeysRight (.ofStore store) (.ofStore store) := by
  refine ⟨hnicks, fun userId record hrecord _ => ⟨record, hrecord, rfl⟩, fun _ _ h => h,
    fun userId record hrecord _ pair hpair => ?_,
    fun userId _ _ _ channelId hmember => absurd hmember (hempty channelId userId)⟩
  have hkeys : (KeyState.ofStore store).userKeys userId =
      hmset (fun _ => none) (identityPairs (recordOf userId record)) := by
    simp only [KeyState.ofStore, show store.user userId = some record from hrecord,
      Option.elim_some]
  rw [hkeys]
  exact hmset_identity _ hpair

/-- The two users have their keys. -/
theorem two_users_right : KeysRight (.ofStore twoUsers) (.ofStore twoUsers) := by
  refine KeysRight.of_store (fun name => ?_) fun channelId userId h => ?_
  · simp only [twoUsers, withUsers]
    split_ifs <;> decide
  · have hzero : lookupUserChannelModeFlags twoUsers channelId userId = 0 := rfl
    rw [ChannelStore.IsMember, hzero] at h
    exact absurd h (by decide)

theorem alice_registered (channelFlags : BitVec 32 → BitVec 32) :
    Registered (.ofStore twoUsers) ⟨(chatPeer 1 (ascii "alice") 32).details, channelFlags⟩ :=
  ⟨(chatPeer 1 (ascii "alice") 32).details, rfl, rfl⟩

/-- Alice joins a channel, and then sets keys of her own. -/
def aliceKeys (request : KeyRequest) : List KeyTask :=
  [⟨quietEnvironment, chatPeer 1 (ascii "alice") 32, .join ⟨ascii "#a", [], 0⟩⟩,
    ⟨quietEnvironment, ⟨(chatPeer 1 (ascii "alice") 32).details, fun _ => isInChannel⟩, request⟩]

theorem alice_keys_registered (request : KeyRequest) :
    ∀ task ∈ aliceKeys request, Registered (.ofStore twoUsers) task.peer := by
  intro task htask
  rcases List.mem_cons.mp htask with rfl | htask
  · exact alice_registered _
  · rw [List.mem_singleton.mp htask]
    exact alice_registered _

/-- With SETKEY she stays who she is. -/
theorem set_key_keeps_identity :
    AtEach KeyState.step (.ofStore twoUsers) (fun state task =>
      IdentityKept (.ofStore twoUsers) (state.step task) ∧ ChangesNamedOnly state task)
      (aliceKeys (.setKey (ascii "\\username\\bob"))) := by
  refine (identity_kept_iff two_users_right (alice_keys_registered _)).mpr ?_
  rintro before task later heq
  have htask : task ∈ aliceKeys (.setKey (ascii "\\username\\bob")) := by
    rw [heq]
    simp
  rcases List.mem_cons.mp htask with rfl | htask
  · trivial
  · rw [List.mem_singleton.mp htask]
    trivial

/-- With SETCKEY she gets another profile in the channel. -/
theorem set_c_key_forges_profile :
    ¬ ∀ start run, KeysRight start start → (∀ task ∈ run, Registered start task.peer) →
      AtEach KeyState.step start (fun state task =>
        IdentityKept start (state.step task) ∧ ChangesNamedOnly state task) run := by
  intro h
  have hrun := h _ _ two_users_right
    (alice_keys_registered (.setCKey (ascii "#a") (ascii "alice") (ascii "\\profileid\\99")))
  obtain ⟨-, hkept, -⟩ := at_each_concat.mp
    (show AtEach KeyState.step _ _ ([_] ++ [_]) from hrun)
  have hpair : (ascii "profileid", ascii "0") ∈
      identityPairs (recordOf 1 (chatPeer 1 (ascii "alice") 32).details) := by decide
  have hfound := (hkept 1 _ rfl (by decide) quietEnvironment (ascii "alice") rfl _ hpair).2
    (ascii "#a") (by decide) (by unfold IsMember; decide)
  exact absurd hfound (by decide)

end OpenSpy.Peerchat
