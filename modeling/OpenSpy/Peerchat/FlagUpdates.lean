import OpenSpy.Library.Runs
import OpenSpy.Peerchat.ChannelModes
import OpenSpy.Peerchat.Replies

/-!
# Updates of channel flags

The flags of a user in a channel are in the store, and his peer remembers them. When JOIN, PART,
KICK, MODE or the events of a JOIN change them in the store, the task sends an
`UPDATE_USER_CHANMODEFLAGS`, which every peer handles: the user's own takes over the flags, and the
others may add the user to the list of those whose addresses they may see, or take him out of it.
The tasks run one after the other. Their callbacks may be called, and messages may arrive, at any
time after them.
-/

namespace OpenSpy.Peerchat

open Bytes Redis Runs UserChannelFlag ChannelMode ChannelStore

/-- An `UPDATE_USER_CHANMODEFLAGS`. -/
structure FlagUpdate where
  channelId : BitVec 32
  userId : Int
  modeflags : BitVec 32
  deriving DecidableEq, Repr

/-- What a peer remembers. -/
structure Client where
  channelFlags : BitVec 32 → BitVec 32
  visibility : List UserAddressVisibilityInfo

/-- A request of a peer that has no command of its own: a lookup of the members of a channel, or
the events of a JOIN, with the flags that the peer remembered when it got the JOIN. -/
inductive PendingRequest where
  | lookup (userId : Int) (channelId : BitVec 32)
  | joinEvents (userId : Int) (channelId : BitVec 32) (setModeFlags : BitVec 32)
  deriving DecidableEq, Repr

/-- A callback that is to be called with the response of its task. -/
inductive FlagCallback where
  | onJoinChannel (userId : Int) (channelId : BitVec 32) (initialFlags : BitVec 32)
  | onPartChannel (userId : Int) (channelId : BitVec 32)
  | onLookup (userId : Int) (channelId : BitVec 32) (users : List Int)
  deriving DecidableEq, Repr

/-- The store, the peers by the ids of their users, the updates under way in the order in which they
were sent, the requests that wait, and the callbacks that have not been called. -/
structure ChatState where
  store : ChannelStore
  clients : Int → Client
  updates : List FlagUpdate
  requests : List PendingRequest
  callbacks : List FlagCallback

namespace Client

/-- `m_channel_flags[channel_id] = mode_flags`. -/
def remember (channelId modeflags : BitVec 32) (client : Client) : Client :=
  { client with channelFlags := Function.update client.channelFlags channelId modeflags }

/-- `RemoveUserAddressVisibility_ByChannel`. -/
def removeByChannel (channelId : BitVec 32) (client : Client) : Client :=
  { client with visibility := client.visibility.filter (·.channelId ≠ channelId) }

/-- `RemoveUserAddressVisibility_ByChannelUser`. -/
def removeByChannelUser (userId : Int) (channelId : BitVec 32) (client : Client) : Client :=
  { client with
    visibility := client.visibility.filter fun info =>
      ¬ (info.channelId = channelId ∧ info.userId = userId) }

/-- `AddUserToAddressVisbilityList`. -/
def addVisible (userId : Int) (channelId : BitVec 32) (client : Client) : Client :=
  { client with visibility := client.visibility ++ [⟨userId, channelId⟩] }

/-- With these flags the peer rises above the level of a voice. -/
def becomesOperator (channelId modeflags : BitVec 32) (client : Client) : Bool :=
  getUserChannelModeLevel (client.channelFlags channelId) ≤ 1 &&
    getUserChannelModeLevel modeflags > 1

/-- `Peer::SetChannelFlags`, up to the request of `RefreshUserAddressVisibility_ByChannel`. -/
def setChannelFlags (channelId modeflags : BitVec 32) (client : Client) : Client :=
  if client.becomesOperator channelId modeflags then client.remember channelId modeflags
  else if getUserChannelModeLevel modeflags ≤ 1 then
    (client.remember channelId modeflags).removeByChannel channelId
  else client.remember channelId modeflags

/-- The peer may see the address of a user with these flags: it is above the level of a voice. Its
flags, and not their level, are compared with the level of the user. -/
def seesAddress (channelId modeflags : BitVec 32) (client : Client) : Bool :=
  let current := client.channelFlags channelId
  hasFlag modeflags isInChannel && hasFlag current isInChannel &&
    getUserChannelModeLevel current > 1 && current.toInt ≥ getUserChannelModeLevel modeflags

/-- `Peer::OnSetExternalUserChanModeFlags`. -/
def onSetExternalUserChanModeFlags (userId : Int) (channelId modeflags : BitVec 32)
    (client : Client) : Client :=
  if client.seesAddress channelId modeflags then client.addVisible userId channelId
  else if !hasFlag modeflags isInChannel then client.removeByChannelUser userId channelId
  else client

/-- `OnLookup_RefreshUserAddressVisibility_ByChannel`. -/
def onLookup (channelId : BitVec 32) (users : List Int) (client : Client) : Client :=
  users.foldl (fun client userId => client.addVisible userId channelId) client

end Client

section Tasks

variable (env : Environment)

/-- The flags that a JOIN gives, as `Perform_UserJoinChannel` computes them. -/
def joinFlags (peer : ChatPeer) (request : JoinRequest) (store : ChannelStore) : BitVec 32 :=
  let (store, channel, created) := getOrCreateChannel env store request.channelName
  let flags := lookupUserChannelModeFlags store channel.channelId peer.details.id
  let store :=
    if hasFlag channel.basicModeFlags userCreated ∧ created then
      createStagingRoomUsermodeRecords env store channel.channelId
    else store
  flags ||| isInChannel ||| request.setModeFlags |||
    getEffectiveUsermode env.unset store.usermodes peer.details env.scan 0

/-- The updates that `HandleSetUsermodes` sends. -/
def usermodeUpdates (channelId : BitVec 32) (unset : Bool) : FlagMap → ChannelStore →
    List FlagUpdate
  | [], _ => []
  | item :: usermodes, store =>
      let summary := getUserSummaryByName env store item.1
      (if summary.id = 0 then []
      else [⟨channelId, summary.id, changeFlags unset
        (lookupUserChannelModeFlags store channelId summary.id) item.2⟩]) ++
        usermodeUpdates channelId unset usermodes
          (handleSetUsermode env channelId unset store item)

/-- The updates of a MODE. -/
def modeUpdates (channelId : BitVec 32) (modify : ChannelModify) (store : ChannelStore) :
    List FlagUpdate :=
  usermodeUpdates env channelId false modify.setUsermodes store ++
    usermodeUpdates env channelId true modify.unsetUsermodes
      (handleSetUsermodes env channelId false modify.setUsermodes store)

/-- The channel of `Perform_LookupChannelDetails`, which is asked for by its id. -/
def lookupChannelDetails (channelId : BitVec 32) (store : ChannelStore) : ChannelSummary :=
  if channelId ≠ 0 then lookupChannelById env store channelId
  else getChannelSummaryByName env store []

end Tasks

/-- What happens: a task of a peer, whose user is given with what the task finds outside of the
store, a JOIN that a peer takes for its own, the call of one of the callbacks that wait, or the
arrival of the first update under way. -/
inductive ChatEvent where
  | join (env : Environment) (details : UserSummary) (request : JoinRequest)
  | part (env : Environment) (details : UserSummary) (channelName : Bytes)
  | kick (env : Environment) (details : UserSummary) (channelName target : Bytes)
  | mode (env : Environment) (details : UserSummary) (channelName : Bytes) (modify : ChannelModify)
  | ownJoin (userId : Int) (channelId : BitVec 32)
  | joinEvents (details : UserSummary) (channelId setModeFlags : BitVec 32)
  | lookup (env : Environment) (userId : Int) (channelId : BitVec 32)
  | call (callback : FlagCallback)
  | deliver (env : Environment)

/-- The user for whom a task is done. -/
def ChatEvent.actor? : ChatEvent → Option UserSummary
  | join _ details _ | part _ details _ | kick _ details _ _ | mode _ details _ _
  | joinEvents details _ _ => some details
  | _ => none

/-- The command table lets only users with an id do this, and their hashes do not expire. -/
def ChatEvent.ByRegistered (user : Int → Option UserSummary) (event : ChatEvent) : Prop :=
  ∀ details ∈ event.actor?, details.id ≠ 0 ∧ (user details.id).isSome

instance (user : Int → Option UserSummary) (event : ChatEvent) :
    Decidable (event.ByRegistered user) :=
  inferInstanceAs (Decidable (∀ details ∈ event.actor?, _))

namespace ChatState

variable (state : ChatState)

/-- The peer of a user. -/
def peer (details : UserSummary) : ChatPeer :=
  ⟨details, (state.clients details.id).channelFlags⟩

/-- `SetChannelFlags` for the peer of a user. -/
def setChannelFlags (userId : Int) (channelId modeflags : BitVec 32) : ChatState :=
  { state with
    clients := Function.update state.clients userId
      ((state.clients userId).setChannelFlags channelId modeflags)
    requests := state.requests ++
      if (state.clients userId).becomesOperator channelId modeflags then [.lookup userId channelId]
      else [] }

/-- `Perform_UserJoinChannel`. -/
def userJoinChannel (env : Environment) (details : UserSummary) (request : JoinRequest) :
    ChatState :=
  let channelId := (getOrCreateChannel env state.store request.channelName).2.1.channelId
  let flags := joinFlags env (state.peer details) request state.store
  match performUserJoinChannel env (state.peer details) request state.store with
  | (store, .success) =>
      { state with
        store := store
        updates := state.updates ++ [⟨channelId, details.id, flags⟩]
        callbacks := state.callbacks ++ [.onJoinChannel details.id channelId flags] }
  | (store, _) => { state with store := store }

/-- `Perform_UserPartChannel`. The update is for the target of `RemoveUserFromChannel`, which a PART
does not have. -/
def userPartChannel (env : Environment) (details : UserSummary) (channelName : Bytes) : ChatState :=
  let channelId := (getChannelSummaryByName env state.store channelName).channelId
  match performUserPartChannel env (state.peer details) channelName state.store with
  | (store, .success) =>
      { state with
        store := store
        updates := state.updates ++ [⟨channelId, 0, 0⟩]
        callbacks := state.callbacks ++ [.onPartChannel details.id channelId] }
  | (store, _) => { state with store := store }

/-- `Perform_UserKickChannel`. Its callback leaves the flags alone. -/
def userKickChannel (env : Environment) (details : UserSummary) (channelName target : Bytes) :
    ChatState :=
  let channelId := (getChannelSummaryByName env state.store channelName).channelId
  let toSummary := getUserSummaryByName env state.store target
  match performUserKickChannel env (state.peer details) channelName target state.store with
  | (store, .success) =>
      { state with store := store, updates := state.updates ++ [⟨channelId, toSummary.id, 0⟩] }
  | (store, _) => { state with store := store }

/-- `Perform_UpdateChannelModes`. -/
def updateChannelModes (env : Environment) (details : UserSummary) (channelName : Bytes)
    (modify : ChannelModify) : ChatState :=
  let channelId := (getChannelSummaryByName env state.store channelName).channelId
  match performUpdateChannelModes env (state.peer details) channelName modify state.store with
  | (store, .success) =>
      { state with
        store := store
        updates := state.updates ++ modeUpdates env channelId modify state.store }
  | (store, _) => { state with store := store }

/-- The flags that `Perform_UserJoinEvents` arrives at. -/
def joinEventsFlags (details : UserSummary) (channelId setModeFlags : BitVec 32) : BitVec 32 :=
  (state.clients details.id).channelFlags channelId ||| (setModeFlags |||
    (if (state.peer details).hasPrivilege globalOwner then owner else 0) |||
    if (state.peer details).hasPrivilege getVoice then voice else 0)

/-- `Perform_UserJoinEvents`, as far as it changes flags. -/
def userJoinEvents (details : UserSummary) (channelId setModeFlags : BitVec 32) : ChatState :=
  let modeflags := state.joinEventsFlags details channelId setModeFlags
  if modeflags ≠ (state.clients details.id).channelFlags channelId then
    let written : ChatState := { state with
      store := setUserChannelModeFlags state.store channelId details.id modeflags
      updates := state.updates ++ [⟨channelId, details.id, modeflags⟩] }
    written.setChannelFlags details.id channelId modeflags
  else state

/-- `Perform_LookupChannelDetails` for the members of a channel. -/
def lookupMembers (env : Environment) (userId : Int) (channelId : BitVec 32) : ChatState :=
  let summary := lookupChannelDetails env channelId state.store
  { state with
    callbacks := state.callbacks ++
      [.onLookup userId summary.channelId
        ((summary.users.map (·.userSummary.id)).filter (· ≠ userId))] }

/-- A callback is called. -/
def runCallback : FlagCallback → ChatState
  | .onJoinChannel userId channelId initialFlags =>
      { state with
        clients := Function.update state.clients userId
          ((state.clients userId).remember channelId initialFlags) }
  | .onPartChannel userId channelId => state.setChannelFlags userId channelId 0
  | .onLookup userId channelId users =>
      { state with
        clients := Function.update state.clients userId
          ((state.clients userId).onLookup channelId users) }

/-- `Handle_KeyUpdates` and `LLIterator_OnSetUserChanModeFlags` for all peers. -/
def handleUpdate (env : Environment) : ChatState :=
  match state.updates with
  | [] => state
  | update :: updates =>
      let userId := (lookupUserById env state.store update.userId).id
      let others : ChatState := { state with
        updates := updates
        clients := fun otherId =>
          if otherId = userId then state.clients otherId
          else (state.clients otherId).onSetExternalUserChanModeFlags userId update.channelId
            update.modeflags }
      others.setChannelFlags userId update.channelId update.modeflags

/-- An event. A request or a callback is taken out of those that wait. -/
def step : ChatEvent → ChatState
  | .join env details request => state.userJoinChannel env details request
  | .part env details channelName => state.userPartChannel env details channelName
  | .kick env details channelName target => state.userKickChannel env details channelName target
  | .mode env details channelName modify => state.updateChannelModes env details channelName modify
  | .ownJoin userId channelId =>
      { state with
        requests := state.requests ++
          [.joinEvents userId channelId ((state.clients userId).channelFlags channelId)] }
  | .joinEvents details channelId setModeFlags =>
      if .joinEvents details.id channelId setModeFlags ∈ state.requests then
        ({ state with
          requests := state.requests.erase (.joinEvents details.id channelId setModeFlags) } :
            ChatState).userJoinEvents details channelId setModeFlags
      else state
  | .lookup env userId channelId =>
      if .lookup userId channelId ∈ state.requests then
        ({ state with requests := state.requests.erase (.lookup userId channelId) } :
          ChatState).lookupMembers env userId channelId
      else state
  | .call callback =>
      if callback ∈ state.callbacks then
        ({ state with callbacks := state.callbacks.erase callback } : ChatState).runCallback
          callback
      else state
  | .deliver env => state.handleUpdate env

/-- Every update under way is for a user who is found by his id. -/
def Addressed : Prop :=
  ∀ update ∈ state.updates, ∀ env, (lookupUserById env state.store update.userId).id = update.userId

/-- An update for a user in a channel is under way. -/
def Updating (userId : Int) (channelId : BitVec 32) : Prop :=
  ∃ update ∈ state.updates, update.userId = userId ∧ update.channelId = channelId

/-- No callback waits, and no update is under way. -/
def Quiet : Prop :=
  state.callbacks = [] ∧ state.updates = []

end ChatState

/-- Users with nicks and without channels, whose peers remember nothing. -/
def ChatState.start (usernick : Bytes → Option Int) (user : Int → Option UserSummary) :
    ChatState where
  store := withUsers usernick user
  clients := fun _ => ⟨fun _ => 0, []⟩
  updates := []
  requests := []
  callbacks := []

/-- The flags of all users in all channels, as the store has them. -/
def ChannelStore.flagTable (store : ChannelStore) (key : Int × BitVec 32) : BitVec 32 :=
  lookupUserChannelModeFlags store key.2 key.1

/-- A user who is found by his id. -/
def ChannelStore.Known (store : ChannelStore) (userId : Int) : Prop :=
  ∀ env, (lookupUserById env store userId).id = userId

/-- A MODE is carried out. -/
def ModeCarriedOut (env : Environment) (peer : ChatPeer) (channelName : Bytes)
    (modify : ChannelModify) (store : ChannelStore) : Prop :=
  let channelId := (getChannelSummaryByName env store channelName).channelId
  let fromModeFlags := lookupUserChannelModeFlags store channelId peer.details.id
  channelId ≠ 0 ∧ checkActionPermissions peer fromModeFlags 0 halfOp ∧
    checkChannelUserModeChange env store peer channelName fromModeFlags modify.setUsermodes
      modify.unsetUsermodes

/-- A PART is carried out. -/
def PartCarriedOut (env : Environment) (details : UserSummary) (channelName : Bytes)
    (store : ChannelStore) : Prop :=
  let channelId := (getChannelSummaryByName env store channelName).channelId
  channelId ≠ 0 ∧ store.IsMember channelId details.id

section Tables

variable {env : Environment} {store after : ChannelStore} {userId : Int} {channelId : BitVec 32}

theorem flag_table_set (modeflags : BitVec 32) :
    (setUserChannelModeFlags store channelId userId modeflags).flagTable =
      Function.update store.flagTable (userId, channelId) modeflags := by
  funext ⟨otherUser, otherChannel⟩
  rw [flagTable, lookup_set_flags, Function.update_apply]
  refine if_congr ?_ rfl rfl
  rw [Prod.mk.injEq, and_comm]

theorem flag_table_remove (targetId : Int) :
    (removeMember store userId channelId targetId).flagTable =
      Function.update store.flagTable (userId, channelId) 0 := by
  funext ⟨otherUser, otherChannel⟩
  rw [flagTable, removeMember, lookup_delete, Function.update_apply]
  refine if_congr ?_ rfl rfl
  rw [Prod.mk.injEq, and_comm]

theorem SameMembers.flag_table (h : SameMembers store after) :
    store.flagTable = after.flagTable := by
  funext key
  rw [flagTable, h.flags]
  rfl

theorem flag_table_add (flags : BitVec 32) :
    (addUserToChannel store userId channelId flags).flagTable =
      Function.update store.flagTable (userId, channelId) flags :=
  flag_table_set flags

theorem users_add {flags otherId : BitVec 32} {other : Int} :
    other ∈ (addUserToChannel store userId channelId flags).channelUsers otherId ↔
      other ∈ store.channelUsers otherId ∨ (otherId = channelId ∧ other = userId) := by
  by_cases h : otherId = channelId
  · subst h
    simp [addUserToChannel, setUserChannelModeFlags]
  · simp [addUserToChannel, setUserChannelModeFlags, h]

theorem flag_table_remove_user (channel : ChannelSummary) (targetId : Int) :
    (removeUserFromChannel env store userId channel targetId).flagTable =
      Function.update store.flagTable (userId, channel.channelId) 0 :=
  (same_members_remove env store userId targetId channel).flag_table.trans
    (flag_table_remove targetId)

theorem users_remove {channel : ChannelSummary} {targetId other : Int} {otherId : BitVec 32} :
    other ∈ (removeUserFromChannel env store userId channel targetId).channelUsers otherId ↔
      other ∈ store.channelUsers otherId ∧ ¬ (otherId = channel.channelId ∧
        other = if targetId ≠ 0 then targetId else userId) := by
  rw [(same_members_remove env store userId targetId channel).1]
  by_cases h : otherId = channel.channelId
  · subst h
    simp [removeMember, deleteChannelUser]
  · simp [removeMember, deleteChannelUser, h]

theorem known_zero : store.Known 0 := by
  intro env
  unfold lookupUserById
  rw [if_neg (by decide)]
  cases store.user 0 <;> rfl

/-- A user who is found by his name is found by his id. -/
theorem known_by_name (name : Bytes) : store.Known (getUserSummaryByName env store name).id := by
  unfold getUserSummaryByName
  cases store.usernick (nickKey name) with
  | none => exact known_zero
  | some id =>
      intro env'
      by_cases hserver : id = -1
      · subst hserver
        rfl
      · simp only [lookupUserById, if_neg hserver]
        cases hfound : store.user id with
        | none => exact known_zero env'
        | some summary => simp [hserver, hfound]

/-- The loop over the users of a MODE leaves users, lists and other channels alone. -/
theorem set_usermodes_same (unset : Bool) (usermodes : FlagMap) :
    (handleSetUsermodes env channelId unset usermodes store).user = store.user ∧
      (handleSetUsermodes env channelId unset usermodes store).channelUsers =
        store.channelUsers ∧
      ∀ otherId userId, otherId ≠ channelId →
        lookupUserChannelModeFlags (handleSetUsermodes env channelId unset usermodes store) otherId
          userId = lookupUserChannelModeFlags store otherId userId := by
  induction usermodes generalizing store with
  | nil => exact ⟨rfl, rfl, fun _ _ _ => rfl⟩
  | cons item usermodes ih =>
      obtain ⟨huser, hlist, hflags⟩ := @ih (handleSetUsermode env channelId unset store item)
      have hitem : (handleSetUsermode env channelId unset store item).user = store.user ∧
          (handleSetUsermode env channelId unset store item).channelUsers = store.channelUsers ∧
          ∀ otherId userId, otherId ≠ channelId → lookupUserChannelModeFlags
            (handleSetUsermode env channelId unset store item) otherId userId =
              lookupUserChannelModeFlags store otherId userId := by
        unfold handleSetUsermode
        simp only
        split
        · exact ⟨rfl, rfl, fun _ _ _ => rfl⟩
        · refine ⟨rfl, rfl, fun otherId userId hother => ?_⟩
          rw [lookup_set_flags, if_neg fun heq => hother heq.1]
      exact ⟨huser.trans hitem.1, hlist.trans hitem.2.1, fun otherId userId hother =>
        (hflags otherId userId hother).trans (hitem.2.2 otherId userId hother)⟩

/-- Its updates are for users who are found by their names. -/
theorem usermode_updates_named (unset : Bool) (usermodes : FlagMap) {update : FlagUpdate}
    (h : update ∈ usermodeUpdates env channelId unset usermodes store) :
    update.channelId = channelId ∧
      ∃ item ∈ usermodes, update.userId = (getUserSummaryByName env store item.1).id := by
  induction usermodes generalizing store with
  | nil => cases h
  | cons item usermodes ih =>
      rw [usermodeUpdates, List.mem_append] at h
      rcases h with hitem | hrest
      · split at hitem
        · cases hitem
        · rw [List.mem_singleton] at hitem
          rw [hitem]
          exact ⟨rfl, item, List.mem_cons_self, rfl⟩
      · obtain ⟨hchannel, other, hother, hnamed⟩ := ih hrest
        rw [names_set_usermode] at hnamed
        exact ⟨hchannel, other, List.mem_cons_of_mem item hother, hnamed⟩

theorem known_congr (huser : after.user = store.user) (h : store.Known userId) :
    after.Known userId := by
  intro env
  have hlookup := h env
  unfold lookupUserById at hlookup ⊢
  rwa [huser]

theorem known_of_record (h : (store.user userId).isSome) : store.Known userId := by
  intro env
  unfold lookupUserById
  split
  · rename_i hserver
    exact hserver.symm
  · obtain ⟨summary, hsummary⟩ := Option.isSome_iff_exists.mp h
    rw [hsummary]

end Tables

namespace ChatState

variable {state : ChatState} {env : Environment} {details : UserSummary}

/-- The flags that are sent are those that the JOIN gives. -/
theorem join_flags {peer : ChatPeer} {request : JoinRequest} {store : ChannelStore}
    (h : (performUserJoinChannel env peer request store).2 = .success) :
    lookupUserChannelModeFlags (performUserJoinChannel env peer request store).1
        (getOrCreateChannel env store request.channelName).2.1.channelId peer.details.id =
      joinFlags env peer request store := by
  obtain ⟨created, channel, isNew, hgot⟩ : ∃ created channel isNew,
      getOrCreateChannel env store request.channelName = (created, channel, isNew) :=
    ⟨_, _, _, rfl⟩
  simp only [performUserJoinChannel, joinFlags, hgot] at h ⊢
  split at h
  · cases h
  · rename_i hout
    rw [if_neg hout]
    set staged := if hasFlag channel.basicModeFlags userCreated ∧ isNew then
      createStagingRoomUsermodeRecords env created channel.channelId else created
    split at h
    · rename_i hcan
      rw [if_pos hcan, addUserToChannel, lookup_set_flags, if_pos ⟨rfl, rfl⟩]
    · cases h

/-- What a JOIN does. -/
theorem join_cases (state : ChatState) (env : Environment) (details : UserSummary)
    (request : JoinRequest) :
    ∃ staged channelId flags, SameMembers staged state.store ∧ staged.user = state.store.user ∧
      (state.userJoinChannel env details request = { state with store := staged } ∨
        (hasFlag flags isInChannel ∧ state.userJoinChannel env details request =
          { state with
            store := addUserToChannel staged details.id channelId flags
            updates := state.updates ++ [⟨channelId, details.id, flags⟩]
            callbacks := state.callbacks ++ [.onJoinChannel details.id channelId flags] })) := by
  obtain ⟨staged, flags, hsame, huser, -, houtcome⟩ :=
    join_outcome env (state.peer details) request state.store
  refine ⟨staged, (getOrCreateChannel env state.store request.channelName).2.1.channelId, flags,
    hsame, huser, ?_⟩
  unfold userJoinChannel
  simp only
  rcases houtcome with hrefused | ⟨hadded, hin, -⟩
  · left
    rw [hrefused]
  · right
    have hflags : joinFlags env (state.peer details) request state.store = flags := by
      rw [← join_flags (by rw [hadded]), hadded]
      show lookupUserChannelModeFlags (addUserToChannel _ _ _ _) _ _ = _
      rw [addUserToChannel, lookup_set_flags, if_pos ⟨rfl, rfl⟩]
    refine ⟨hin, ?_⟩
    rw [hadded, hflags]
    rfl

/-- What a PART does. -/
theorem part_cases (state : ChatState) (env : Environment) (details : UserSummary)
    (channelName : Bytes) :
    state.userPartChannel env details channelName = state ∨
      (PartCarriedOut env details channelName state.store ∧
        state.userPartChannel env details channelName =
          { state with
            store := removeUserFromChannel env state.store details.id
              (getChannelSummaryByName env state.store channelName) 0
            updates := state.updates ++
              [⟨(getChannelSummaryByName env state.store channelName).channelId, 0, 0⟩]
            callbacks := state.callbacks ++ [.onPartChannel details.id
              (getChannelSummaryByName env state.store channelName).channelId] }) := by
  unfold userPartChannel performUserPartChannel PartCarriedOut
  simp only
  split
  · rename_i store hrun
    split at hrun
    · rename_i hchannel
      split at hrun
      · rename_i hmember
        exact .inr ⟨⟨hchannel, hmember⟩, by rw [← (Prod.mk.inj hrun).1]; rfl⟩
      · cases hrun
    · cases hrun
  · rename_i store code hcode hrun
    left
    split at hrun
    · split at hrun
      · exact absurd (Prod.mk.inj hrun).2.symm hcode
      · rw [← (Prod.mk.inj hrun).1]
    · rw [← (Prod.mk.inj hrun).1]

/-- What a KICK does. -/
theorem kick_cases (state : ChatState) (env : Environment) (details : UserSummary)
    (channelName target : Bytes) :
    state.userKickChannel env details channelName target = state ∨
      (KickAccepted env (state.peer details) channelName target state.store ∧
        state.userKickChannel env details channelName target =
          { state with
            store := removeUserFromChannel env state.store details.id
              (getChannelSummaryByName env state.store channelName)
              (getUserSummaryByName env state.store target).id
            updates := state.updates ++
              [⟨(getChannelSummaryByName env state.store channelName).channelId,
                (getUserSummaryByName env state.store target).id, 0⟩] }) := by
  unfold userKickChannel performUserKickChannel KickAccepted
  simp only
  split
  · rename_i store hrun
    split at hrun
    · cases hrun
    · rename_i hallowed
      split at hrun
      · rename_i hzero
        refine .inr ⟨⟨by simpa using hallowed, hzero⟩, ?_⟩
        rw [← (Prod.mk.inj hrun).1]
        rfl
      · cases hrun
  · rename_i store code hcode hrun
    left
    split at hrun
    · rw [← (Prod.mk.inj hrun).1]
    · split at hrun
      · exact absurd (Prod.mk.inj hrun).2.symm hcode
      · rw [← (Prod.mk.inj hrun).1]

/-- What a MODE does. -/
theorem mode_cases (state : ChatState) (env : Environment) (details : UserSummary)
    (channelName : Bytes) (modify : ChannelModify) :
    state.updateChannelModes env details channelName modify = state ∨
      (ModeCarriedOut env (state.peer details) channelName modify state.store ∧ ∃ channel,
        state.updateChannelModes env details channelName modify =
          { state with
            store :=
              { handleSetUsermodes env
                  (getChannelSummaryByName env state.store channelName).channelId true
                  modify.unsetUsermodes (handleSetUsermodes env
                    (getChannelSummaryByName env state.store channelName).channelId false
                    modify.setUsermodes state.store) with
                channel := channel }
            updates := state.updates ++ modeUpdates env
              (getChannelSummaryByName env state.store channelName).channelId modify
              state.store }) := by
  unfold updateChannelModes performUpdateChannelModes ModeCarriedOut
  simp only
  split
  · rename_i store hrun
    split at hrun
    · cases hrun
    · rename_i hchannel
      split at hrun
      · cases hrun
      · rename_i hchecks
        rw [Bool.or_eq_true, not_or, Bool.not_eq_true', Bool.not_eq_true', Bool.not_eq_false,
          Bool.not_eq_false] at hchecks
        refine .inr ⟨⟨hchannel, hchecks⟩, ?_⟩
        rw [← (Prod.mk.inj hrun).1]
        exact ⟨_, rfl⟩
  · rename_i store code hcode hrun
    left
    split at hrun
    · rw [← (Prod.mk.inj hrun).1]
    · split at hrun
      · rw [← (Prod.mk.inj hrun).1]
      · exact absurd (Prod.mk.inj hrun).2.symm hcode

/-- No event changes the users. -/
theorem step_user (state : ChatState) (event : ChatEvent) :
    (state.step event).store.user = state.store.user := by
  cases event with
  | join env details request =>
      show (state.userJoinChannel env details request).store.user = _
      obtain ⟨staged, channelId, flags, -, huser, hrefused | ⟨-, hadded⟩⟩ :=
        join_cases state env details request
      · rw [hrefused, huser]
      · rw [hadded]
        exact huser
  | part env details channelName =>
      show (state.userPartChannel env details channelName).store.user = _
      rcases part_cases state env details channelName with hsame | ⟨-, hleft⟩
      · rw [hsame]
      · rw [hleft]
        exact (remove_user_channel _ _ _ _ _).1
  | kick env details channelName target =>
      show (state.userKickChannel env details channelName target).store.user = _
      rcases kick_cases state env details channelName target with hsame | ⟨-, hkicked⟩
      · rw [hsame]
      · rw [hkicked]
        exact (remove_user_channel _ _ _ _ _).1
  | mode env details channelName modify =>
      show (state.updateChannelModes env details channelName modify).store.user = _
      rcases mode_cases state env details channelName modify with hsame | ⟨-, channel, hmode⟩
      · rw [hsame]
      · rw [hmode]
        exact (set_usermodes_same true _).1.trans (set_usermodes_same false _).1
  | ownJoin userId channelId => rfl
  | joinEvents details channelId setModeFlags =>
      unfold step
      simp only
      split
      · unfold userJoinEvents
        simp only
        split <;> rfl
      · rfl
  | lookup env userId channelId =>
      unfold step
      simp only
      split <;> rfl
  | call callback =>
      unfold step
      simp only
      split
      · cases callback <;> rfl
      · rfl
  | deliver env =>
      show (state.handleUpdate env).store.user = _
      unfold handleUpdate
      split <;> rfl

/-- An update for a user who is found by his id is added. -/
theorem Addressed.send (h : state.Addressed) {next : ChatState} {updates : List FlagUpdate}
    (huser : next.store.user = state.store.user)
    (hupdates : next.updates = state.updates ++ updates)
    (hknown : ∀ update ∈ updates, state.store.Known update.userId) : next.Addressed := by
  intro update hmem
  rw [hupdates, List.mem_append] at hmem
  exact known_congr huser (hmem.elim (h update) (hknown update))

/-- The updates of a MODE are for users who are found by their names, and so by their ids. -/
theorem mode_updates_known {store : ChannelStore} {channelId : BitVec 32} {modify : ChannelModify}
    {update : FlagUpdate} (h : update ∈ modeUpdates env channelId modify store) :
    store.Known update.userId := by
  rcases List.mem_append.mp h with hset | hunset
  · obtain ⟨-, item, -, hnamed⟩ := usermode_updates_named false _ hset
    rw [hnamed]
    exact known_by_name item.1
  · obtain ⟨-, item, -, hnamed⟩ := usermode_updates_named true _ hunset
    rw [hnamed, names_set_usermodes]
    exact known_by_name item.1

/-- Every event sends updates for users who are found by their ids. -/
theorem Addressed.step (h : state.Addressed) {event : ChatEvent}
    (hby : event.ByRegistered state.store.user) : (state.step event).Addressed := by
  cases event with
  | join env details request =>
      show (state.userJoinChannel env details request).Addressed
      obtain ⟨staged, channelId, flags, -, huser, hrefused | ⟨-, hadded⟩⟩ :=
        join_cases state env details request
      · rw [hrefused]
        exact @Addressed.send state h _ [] huser (List.append_nil _).symm (by simp)
      · rw [hadded]
        exact h.send huser rfl (by simpa using known_of_record (hby details rfl).2)
  | part env details channelName =>
      show (state.userPartChannel env details channelName).Addressed
      rcases part_cases state env details channelName with hsame | ⟨-, hleft⟩
      · rwa [hsame]
      · rw [hleft]
        exact h.send (remove_user_channel _ _ _ _ _).1 rfl (by simpa using known_zero)
  | kick env details channelName target =>
      show (state.userKickChannel env details channelName target).Addressed
      rcases kick_cases state env details channelName target with hsame | ⟨-, hkicked⟩
      · rwa [hsame]
      · rw [hkicked]
        exact h.send (remove_user_channel _ _ _ _ _).1 rfl (by simpa using known_by_name target)
  | mode env details channelName modify =>
      show (state.updateChannelModes env details channelName modify).Addressed
      rcases mode_cases state env details channelName modify with hsame | ⟨-, channel, hmode⟩
      · rwa [hsame]
      · rw [hmode]
        exact h.send ((set_usermodes_same true _).1.trans (set_usermodes_same false _).1) rfl
          fun _ => mode_updates_known
  | ownJoin userId channelId => exact h
  | joinEvents details channelId setModeFlags =>
      unfold ChatState.step
      simp only
      split
      · unfold userJoinEvents
        simp only
        split
        · exact h.send rfl rfl (by simpa using known_of_record (hby details rfl).2)
        · exact h
      · exact h
  | lookup env userId channelId =>
      unfold ChatState.step
      simp only
      split
      · exact h
      · exact h
  | call callback =>
      unfold ChatState.step
      simp only
      split
      · cases callback <;> exact h
      · exact h
  | deliver env =>
      show (state.handleUpdate env).Addressed
      unfold handleUpdate
      split
      · exact h
      · rename_i update updates hupdates
        exact fun other hother => h other (by rw [hupdates]; exact List.mem_cons_of_mem _ hother)

end ChatState

end OpenSpy.Peerchat
