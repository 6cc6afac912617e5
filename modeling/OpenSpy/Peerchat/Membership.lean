import OpenSpy.Peerchat.ChannelStore

/-!
# Membership

A user is in a channel as far as the channel's set, the user's set and the flags of the user in
the channel say so. The four tasks that change this are modelled below. A store stands for a
relation between channels and users if all three agree with it; JOIN, PART and the deletion of
a user keep this, and `membership_consistent_iff` says for which KICKs a run keeps it.
-/

namespace OpenSpy.Peerchat

open Bytes Redis UserChannelFlag ChannelMode ChannelStore

/-- A connected client: its user, and the flags that it remembers for each channel. -/
structure ChatPeer where
  details : UserSummary
  channelFlags : BitVec 32 → BitVec 32

/-- `WebErrorCode`, as far as the tasks answer with it. -/
inductive ResponseCode where
  | success
  | authInvalidCredentials
  | noSuchUser
  deriving DecidableEq, Repr

/-- The peer is an operator with a privilege. -/
def ChatPeer.hasPrivilege (peer : ChatPeer) (privilege : BitVec 32) : Bool :=
  hasFlag (BitVec.ofInt 32 peer.details.operflags) privilege

/-- `MAX_USER_CHANNELS`. -/
def maxUserChannels : Nat := 32

/-- `CheckUserCanJoinChannel`. -/
def checkUserCanJoinChannel (store : ChannelStore) (channel : ChannelSummary) (peer : ChatPeer)
    (password : Bytes) (initialFlags : BitVec 32) : Bool :=
  if peer.hasPrivilege operOverride then true
  else if countUserChannels store peer.details.id > maxUserChannels then false
  else if hasFlag channel.basicModeFlags inviteOnly ∧
      (hasFlag (~~~peer.channelFlags channel.channelId) invited ∨ hasFlag initialFlags invited) then
    false
  else if channel.limit ≠ 0 ∧ channel.users.length ≥ MachineInt.sizeT channel.limit.toInt ∧
      (hasFlag channel.basicModeFlags opsObeyChannelLimit ∨
        getUserChannelModeLevel initialFlags < 3) then false
  else if channel.password.length ≠ 0 ∧ channel.password ≠ password then false
  else if hasFlag initialFlags banned then false
  else true

/-- `CheckActionPermissions`. -/
def checkActionPermissions (peer : ChatPeer) (fromModeFlags toModeFlags minModeFlags : BitVec 32) :
    Bool :=
  if peer.hasPrivilege operOverride then true
  else if getUserChannelModeLevel minModeFlags > getUserChannelModeLevel fromModeFlags then false
  else if getUserChannelModeLevel toModeFlags > getUserChannelModeLevel fromModeFlags then false
  else true

/-- A request to join a channel. -/
structure JoinRequest where
  channelName : Bytes
  password : Bytes
  setModeFlags : BitVec 32

/-- `Perform_UserJoinChannel`. -/
def performUserJoinChannel (env : Environment) (peer : ChatPeer) (request : JoinRequest)
    (store : ChannelStore) : ChannelStore × ResponseCode :=
  let (store, channel, created) := getOrCreateChannel env store request.channelName
  let flags := lookupUserChannelModeFlags store channel.channelId peer.details.id
  if hasFlag flags isInChannel then (store, .authInvalidCredentials)
  else
    let store :=
      if hasFlag channel.basicModeFlags userCreated ∧ created then
        createStagingRoomUsermodeRecords env store channel.channelId
      else store
    let initialFlags := flags ||| isInChannel ||| request.setModeFlags |||
      getEffectiveUsermode env.unset store.usermodes peer.details env.scan 0
    if checkUserCanJoinChannel store channel peer request.password initialFlags then
      (addUserToChannel store peer.details.id channel.channelId initialFlags, .success)
    else (store, .authInvalidCredentials)

/-- `Perform_UserPartChannel`. -/
def performUserPartChannel (env : Environment) (peer : ChatPeer) (channelName : Bytes)
    (store : ChannelStore) : ChannelStore × ResponseCode :=
  let channel := getChannelSummaryByName env store channelName
  if channel.channelId ≠ 0 then
    let fromModeFlags := lookupUserChannelModeFlags store channel.channelId peer.details.id
    if hasFlag fromModeFlags isInChannel then
      (removeUserFromChannel env store peer.details.id channel 0, .success)
    else (store, .authInvalidCredentials)
  else (store, .noSuchUser)

/-- `Perform_UserKickChannel`. -/
def performUserKickChannel (env : Environment) (peer : ChatPeer) (channelName target : Bytes)
    (store : ChannelStore) : ChannelStore × ResponseCode :=
  let channel := getChannelSummaryByName env store channelName
  let toSummary := getUserSummaryByName env store target
  let fromModeFlags := lookupUserChannelModeFlags store channel.channelId peer.details.id
  let toModeFlags := lookupUserChannelModeFlags store channel.channelId toSummary.id
  if !checkActionPermissions peer fromModeFlags toModeFlags halfOp then
    (store, .authInvalidCredentials)
  else if toSummary.id ≠ 0 then
    (removeUserFromChannel env store peer.details.id channel toSummary.id, .success)
  else (store, .noSuchUser)

/-- The nick and the hash of a user are deleted. -/
def deleteUserKeys (userDetails : UserSummary) (store : ChannelStore) : ChannelStore :=
  { store with
    usernick := Function.update store.usernick (nickKey userDetails.nick) none
    user := Function.update store.user userDetails.id none }

/-- The loop of `Perform_DeleteUser` over the channels of the user. -/
def removeFromChannels (env : Environment) (userId : Int) (channelIds : List (BitVec 32))
    (store : ChannelStore) : ChannelStore :=
  channelIds.foldl (fun store channelId =>
    removeUserFromChannel env store userId (lookupChannelById env store channelId) userId) store

/-- `Perform_DeleteUser`, with the scan of the user's channels. -/
def performDeleteUser (env : Environment) (userDetails : UserSummary) (store : ChannelStore) :
    ChannelStore × ResponseCode :=
  let removed := removeFromChannels env userDetails.id (store.userChannels userDetails.id)
    (deleteUserKeys userDetails store)
  ({ removed with userChannels := Function.update removed.userChannels userDetails.id [] }, .success)

/-- The tasks that change memberships. -/
inductive MemberTask where
  | join (peer : ChatPeer) (request : JoinRequest)
  | part (peer : ChatPeer) (channelName : Bytes)
  | kick (peer : ChatPeer) (channelName target : Bytes)
  | deleteUser (userDetails : UserSummary)

/-- A task that is run to its end. -/
def MemberTask.run (env : Environment) (store : ChannelStore) : MemberTask → ChannelStore
  | join peer request => (performUserJoinChannel env peer request store).1
  | part peer channelName => (performUserPartChannel env peer channelName store).1
  | kick peer channelName target => (performUserKickChannel env peer channelName target store).1
  | deleteUser userDetails => (performDeleteUser env userDetails store).1

/-- A run of tasks. -/
def runTasks (store : ChannelStore) (tasks : List (Environment × MemberTask)) : ChannelStore :=
  tasks.foldl (fun store task => task.2.run task.1 store) store

/-- The user is flagged as a member of the channel. -/
def ChannelStore.IsMember (store : ChannelStore) (channelId : BitVec 32) (userId : Int) : Prop :=
  hasFlag (lookupUserChannelModeFlags store channelId userId) isInChannel

/-- The three places that record memberships agree. -/
def ChannelStore.Consistent (store : ChannelStore) : Prop :=
  ∀ userId channelId,
    (userId ∈ store.channelUsers channelId ↔ channelId ∈ store.userChannels userId) ∧
      (channelId ∈ store.userChannels userId ↔ store.IsMember channelId userId)

/-- The memberships that the store records, where the three places agree. -/
structure ChannelStore.Represents (store : ChannelStore) (members : BitVec 32 → Int → Prop) :
    Prop where
  channelUsers : ∀ channelId userId, userId ∈ store.channelUsers channelId ↔ members channelId userId
  userChannels : ∀ channelId userId, channelId ∈ store.userChannels userId ↔ members channelId userId
  channelUser : ∀ channelId userId, store.IsMember channelId userId ↔ members channelId userId

/-- The kick is carried out. -/
def KickAccepted (env : Environment) (peer : ChatPeer) (channelName target : Bytes)
    (store : ChannelStore) : Prop :=
  let channel := getChannelSummaryByName env store channelName
  let toSummary := getUserSummaryByName env store target
  checkActionPermissions peer
      (lookupUserChannelModeFlags store channel.channelId peer.details.id)
      (lookupUserChannelModeFlags store channel.channelId toSummary.id) halfOp ∧
    toSummary.id ≠ 0

/-- A task keeps the three places in agreement: a kick that is carried out is for the kicker
himself, or neither the kicker nor the target is in the channel. -/
def MemberTask.Harmless (env : Environment) (store : ChannelStore) : MemberTask → Prop
  | kick peer channelName target =>
      let channelId := (getChannelSummaryByName env store channelName).channelId
      let targetId := (getUserSummaryByName env store target).id
      KickAccepted env peer channelName target store → targetId = peer.details.id ∨
        (¬ store.IsMember channelId peer.details.id ∧ ¬ store.IsMember channelId targetId)
  | _ => True

section Helpers

variable {env : Environment} {store other : ChannelStore} {members : BitVec 32 → Int → Prop}

/-- A consistent store represents its own memberships. -/
theorem consistent_iff_represents :
    store.Consistent ↔ ∃ members, store.Represents members := by
  constructor
  · intro h
    exact ⟨store.IsMember, fun c u => ((h u c).1.trans (h u c).2), fun c u => (h u c).2,
      fun _ _ => Iff.rfl⟩
  · rintro ⟨members, h⟩ u c
    exact ⟨(h.channelUsers c u).trans (h.userChannels c u).symm,
      (h.userChannels c u).trans (h.channelUser c u).symm⟩

/-- Two stores record the same memberships. -/
def SameMembers (store other : ChannelStore) : Prop :=
  store.channelUsers = other.channelUsers ∧ store.channelUser = other.channelUser ∧
    store.userChannels = other.userChannels

theorem SameMembers.refl (store : ChannelStore) : SameMembers store store := ⟨rfl, rfl, rfl⟩

/-- Flags are memberships, too. -/
theorem SameMembers.flags (h : SameMembers store other) :
    lookupUserChannelModeFlags store = lookupUserChannelModeFlags other := by
  funext channelId userId
  simp only [lookupUserChannelModeFlags, h.2.1]

/-- What represents a relation depends on the memberships alone. -/
theorem SameMembers.represents (h : SameMembers store other) (hother : other.Represents members) :
    store.Represents members := by
  refine ⟨fun c u => ?_, fun c u => ?_, fun c u => ?_⟩
  · rw [h.1, hother.channelUsers]
  · rw [h.2.2, hother.userChannels]
  · rw [← hother.channelUser, ChannelStore.IsMember, h.flags, ChannelStore.IsMember]

/-- A user who joins is in the channel, and nothing else changes. -/
theorem represents_add (h : store.Represents members) {userId : Int} {channelId : BitVec 32}
    {flags : BitVec 32} (hflags : hasFlag flags isInChannel) :
    (addUserToChannel store userId channelId flags).Represents fun c u =>
      members c u ∨ (c = channelId ∧ u = userId) := by
  refine ⟨fun c u => ?_, fun c u => ?_, fun c u => ?_⟩
  · by_cases hc : c = channelId
    · subst hc
      simp [addUserToChannel, setUserChannelModeFlags, h.channelUsers]
    · simp [addUserToChannel, setUserChannelModeFlags, hc, h.channelUsers]
  · by_cases hu : u = userId
    · subst hu
      simp [addUserToChannel, setUserChannelModeFlags, h.userChannels]
    · simp [addUserToChannel, setUserChannelModeFlags, hu, h.userChannels]
  · rw [ChannelStore.IsMember, addUserToChannel, lookup_set_flags]
    by_cases hcu : c = channelId ∧ u = userId
    · simp [hcu, hflags]
    · rw [if_neg hcu, or_iff_left hcu, ← h.channelUser]
      rfl

/-- A user who removes himself has left the channel, and nothing else changes. -/
theorem represents_remove (h : store.Represents members) {userId targetId : Int}
    (htarget : (if targetId ≠ 0 then targetId else userId) = userId) (channelId : BitVec 32) :
    (removeMember store userId channelId targetId).Represents fun c u =>
      members c u ∧ ¬ (c = channelId ∧ u = userId) := by
  unfold removeMember
  rw [htarget]
  refine ⟨fun c u => ?_, fun c u => ?_, fun c u => ?_⟩
  · by_cases hc : c = channelId
    · subst hc
      simp [deleteChannelUser, h.channelUsers]
    · simp [deleteChannelUser, hc, h.channelUsers]
  · by_cases hu : u = userId
    · subst hu
      simp [deleteChannelUser, h.userChannels]
    · simp [deleteChannelUser, hu, h.userChannels]
  · rw [ChannelStore.IsMember, lookup_delete]
    by_cases hcu : c = channelId ∧ u = userId
    · simp [hcu, hasFlag]
    · rw [if_neg hcu, and_iff_left hcu, ← h.channelUser]
      rfl

/-- After a user removes somebody else, the three places agree only if neither was there. -/
theorem consistent_remove_other (h : store.Represents members) {userId targetId : Int}
    (hne : targetId ≠ userId) (hzero : targetId ≠ 0) (channelId : BitVec 32) :
    (removeMember store userId channelId targetId).Consistent ↔
      ¬ members channelId userId ∧ ¬ members channelId targetId := by
  have husers : ∀ u c, u ∈ (removeMember store userId channelId targetId).channelUsers c ↔
      members c u ∧ ¬ (c = channelId ∧ u = targetId) := by
    intro u c
    by_cases hc : c = channelId
    · subst hc
      simp [removeMember, deleteChannelUser, hzero, h.channelUsers]
    · simp [removeMember, deleteChannelUser, hc, h.channelUsers]
  have hchannels : ∀ u c, c ∈ (removeMember store userId channelId targetId).userChannels u ↔
      members c u ∧ ¬ (c = channelId ∧ u = userId) := by
    intro u c
    by_cases hu : u = userId
    · subst hu
      simp [removeMember, deleteChannelUser, h.userChannels]
    · simp [removeMember, deleteChannelUser, hu, h.userChannels]
  have hflags : ∀ u c, (removeMember store userId channelId targetId).IsMember c u ↔
      members c u ∧ ¬ (c = channelId ∧ u = userId) := by
    intro u c
    rw [ChannelStore.IsMember, removeMember, lookup_delete]
    by_cases hcu : c = channelId ∧ u = userId
    · simp [hcu, hasFlag]
    · rw [if_neg hcu, and_iff_left hcu, ← h.channelUser]
      rfl
  constructor
  · intro hconsistent
    constructor
    · intro huser
      have hagree := (hconsistent userId channelId).1
      rw [husers, hchannels] at hagree
      exact (hagree.mp ⟨huser, fun heq => hne heq.2.symm⟩).2 ⟨rfl, rfl⟩
    · intro htarget
      have hagree := (hconsistent targetId channelId).1
      rw [husers, hchannels] at hagree
      exact (hagree.mpr ⟨htarget, fun heq => hne heq.2⟩).2 ⟨rfl, rfl⟩
  · rintro ⟨huser, htarget⟩ u c
    rw [husers, hchannels, hflags]
    refine ⟨?_, Iff.rfl⟩
    constructor <;> rintro ⟨hmember, -⟩ <;> refine ⟨hmember, ?_⟩ <;> rintro ⟨rfl, rfl⟩
    · exact huser hmember
    · exact htarget hmember

/-- The end of `RemoveUserFromChannel` leaves the memberships alone. -/
theorem same_members_remove (env : Environment) (store : ChannelStore) (userId targetId : Int)
    (channel : ChannelSummary) :
    SameMembers (removeUserFromChannel env store userId channel targetId)
      (removeMember store userId channel.channelId targetId) := by
  unfold removeUserFromChannel
  simp only
  split
  · exact ⟨rfl, rfl, rfl⟩
  · exact SameMembers.refl _

/-- A member who leaves or is kicked leaves users and channels as they are. -/
theorem remove_user_channel (env : Environment) (store : ChannelStore) (userId : Int)
    (channel : ChannelSummary) (targetId : Int) :
    (removeUserFromChannel env store userId channel targetId).user = store.user ∧
      (removeUserFromChannel env store userId channel targetId).channel = store.channel := by
  unfold removeUserFromChannel
  simp only
  split <;> exact ⟨rfl, rfl⟩

theorem perform_part_channel (peer : ChatPeer) (channelName : Bytes) :
    (performUserPartChannel env peer channelName store).1.user = store.user ∧
      (performUserPartChannel env peer channelName store).1.channel = store.channel := by
  unfold performUserPartChannel
  simp only
  split
  · split
    · exact remove_user_channel _ _ _ _ _
    · exact ⟨rfl, rfl⟩
  · exact ⟨rfl, rfl⟩

theorem perform_kick_channel (kicker : ChatPeer) (channelName target : Bytes) :
    (performUserKickChannel env kicker channelName target store).1.user = store.user ∧
      (performUserKickChannel env kicker channelName target store).1.channel = store.channel := by
  unfold performUserKickChannel
  simp only
  split
  · exact ⟨rfl, rfl⟩
  · split
    · exact remove_user_channel _ _ _ _ _
    · exact ⟨rfl, rfl⟩

/-- Looking up a channel, or creating it, leaves the memberships alone. -/
theorem same_members_create (env : Environment) (store : ChannelStore) (name : Bytes) :
    SameMembers (getOrCreateChannel env store name).1 store := by
  unfold getOrCreateChannel
  simp only
  split
  · exact SameMembers.refl _
  · exact ⟨rfl, rfl, rfl⟩

theorem SameMembers.consistent (h : SameMembers store other) (hother : other.Consistent) :
    store.Consistent := by
  obtain ⟨members, hrep⟩ := consistent_iff_represents.mp hother
  exact consistent_iff_represents.mpr ⟨members, h.represents hrep⟩

theorem SameMembers.symm (h : SameMembers store other) : SameMembers other store :=
  ⟨h.1.symm, h.2.1.symm, h.2.2.symm⟩

end Helpers

/-- A JOIN that is refused leaves the users and the memberships alone, and one that succeeds puts
a user who was not in the channel into it. -/
theorem join_outcome (env : Environment) (peer : ChatPeer) (request : JoinRequest)
    (store : ChannelStore) :
    ∃ staged flags, SameMembers staged store ∧ staged.user = store.user ∧
      staged.usernick = store.usernick ∧
      (performUserJoinChannel env peer request store = (staged, .authInvalidCredentials) ∨
        (performUserJoinChannel env peer request store =
            (addUserToChannel staged peer.details.id
              (getOrCreateChannel env store request.channelName).2.1.channelId flags, .success) ∧
          hasFlag flags isInChannel ∧
          ¬ store.IsMember (getOrCreateChannel env store request.channelName).2.1.channelId
            peer.details.id)) := by
  have hcreate := same_members_create env store request.channelName
  have husers : (getOrCreateChannel env store request.channelName).1.user = store.user ∧
      (getOrCreateChannel env store request.channelName).1.usernick = store.usernick := by
    unfold getOrCreateChannel
    simp only
    split <;> exact ⟨rfl, rfl⟩
  obtain ⟨created, channel, isNew, hgot⟩ : ∃ created channel isNew,
      getOrCreateChannel env store request.channelName = (created, channel, isNew) :=
    ⟨_, _, _, rfl⟩
  rw [hgot] at hcreate husers
  simp only [performUserJoinChannel, hgot]
  split
  · exact ⟨created, 0, hcreate, husers.1, husers.2, .inl rfl⟩
  · rename_i hout
    set staged := if hasFlag channel.basicModeFlags userCreated ∧ isNew then
        createStagingRoomUsermodeRecords env created channel.channelId else created with hstaged
    have hsame : SameMembers staged store ∧ staged.user = store.user ∧
        staged.usernick = store.usernick := by
      rw [hstaged]
      split
      · exact ⟨⟨hcreate.1, hcreate.2.1, hcreate.2.2⟩, husers.1, husers.2⟩
      · exact ⟨hcreate, husers.1, husers.2⟩
    split
    · refine ⟨staged, _, hsame.1, hsame.2.1, hsame.2.2, .inr ⟨rfl, ?_, ?_⟩⟩
      · simp [isInChannel, has_flag_two_pow _ _ (show 0 < 32 by decide)]
      · rw [ChannelStore.IsMember, ← hcreate.flags]
        exact hout
    · exact ⟨staged, 0, hsame.1, hsame.2.1, hsame.2.2, .inl rfl⟩

/-- JOIN keeps the three places in agreement. -/
theorem join_consistent (env : Environment) (peer : ChatPeer) (request : JoinRequest)
    {store : ChannelStore} (h : store.Consistent) :
    (performUserJoinChannel env peer request store).1.Consistent := by
  obtain ⟨staged, flags, hsame, -, -, houtcome⟩ := join_outcome env peer request store
  rcases houtcome with hrefused | ⟨hadded, hflags, -⟩
  · rw [hrefused]
    exact hsame.consistent h
  · obtain ⟨members, hrep⟩ := consistent_iff_represents.mp (hsame.consistent h)
    rw [hadded]
    exact consistent_iff_represents.mpr ⟨_, represents_add hrep hflags⟩

/-- PART keeps the three places in agreement. -/
theorem part_consistent (env : Environment) (peer : ChatPeer) (channelName : Bytes)
    {store : ChannelStore} (h : store.Consistent) :
    (performUserPartChannel env peer channelName store).1.Consistent := by
  obtain ⟨members, hrep⟩ := consistent_iff_represents.mp h
  unfold performUserPartChannel
  simp only
  split
  · split
    · have hleft := represents_remove hrep (show (if (0 : Int) ≠ 0 then 0 else
        peer.details.id) = peer.details.id from by simp)
        (getChannelSummaryByName env store channelName).channelId
      exact (same_members_remove _ _ _ _ _).consistent (consistent_iff_represents.mpr ⟨_, hleft⟩)
    · exact h
  · exact h

/-- The loop over the channels of a user takes him out of them. -/
theorem represents_remove_all (env : Environment) (userId : Int) (channelIds : List (BitVec 32))
    {store : ChannelStore} {members : BitVec 32 → Int → Prop} (h : store.Represents members) :
    (removeFromChannels env userId channelIds store).Represents fun c u =>
      members c u ∧ ¬ (c ∈ channelIds ∧ u = userId) := by
  induction channelIds generalizing store members with
  | nil => simpa [removeFromChannels] using h
  | cons channelId channelIds ih =>
      have hstep : (removeUserFromChannel env store userId
          (lookupChannelById env store channelId) userId).Represents fun c u =>
            members c u ∧ ¬ (c = channelId ∧ u = userId) :=
        (same_members_remove _ _ _ _ _).represents (represents_remove h (by simp) channelId)
      have hrest := ih hstep
      rw [removeFromChannels, List.foldl_cons, ← removeFromChannels]
      refine ⟨fun c u => ?_, fun c u => ?_, fun c u => ?_⟩
      · rw [hrest.channelUsers, List.mem_cons]
        tauto
      · rw [hrest.userChannels, List.mem_cons]
        tauto
      · rw [hrest.channelUser, List.mem_cons]
        tauto

/-- The deletion of a user keeps the three places in agreement. -/
theorem delete_user_consistent (env : Environment) (userDetails : UserSummary)
    {store : ChannelStore} (h : store.Consistent) :
    (performDeleteUser env userDetails store).1.Consistent := by
  obtain ⟨members, hrep⟩ := consistent_iff_represents.mp h
  have hsame : SameMembers (deleteUserKeys userDetails store) store := ⟨rfl, rfl, rfl⟩
  have hall := represents_remove_all env userDetails.id (store.userChannels userDetails.id)
    (hsame.represents hrep)
  refine consistent_iff_represents.mpr ⟨fun c u => members c u ∧ u ≠ userDetails.id, ?_⟩
  have hleft : ∀ c u, (members c u ∧ ¬ (c ∈ store.userChannels userDetails.id ∧
      u = userDetails.id)) ↔ (members c u ∧ u ≠ userDetails.id) := by
    intro c u
    rw [hrep.userChannels]
    constructor
    · rintro ⟨hmember, hnot⟩
      exact ⟨hmember, fun heq => hnot ⟨heq ▸ hmember, heq⟩⟩
    · rintro ⟨hmember, hne⟩
      exact ⟨hmember, fun hin => hne hin.2⟩
  refine ⟨fun c u => ?_, fun c u => ?_, fun c u => ?_⟩
  · exact (hall.channelUsers c u).trans (hleft c u)
  · have hset : (performDeleteUser env userDetails store).1.userChannels =
        Function.update (removeFromChannels env userDetails.id (store.userChannels userDetails.id)
          (deleteUserKeys userDetails store)).userChannels userDetails.id [] := rfl
    rw [hset]
    by_cases hu : u = userDetails.id
    · simp [hu]
    · rw [Function.update_of_ne hu]
      exact (hall.userChannels c u).trans (hleft c u)
  · exact (hall.channelUser c u).trans (hleft c u)

/-- A kick keeps the three places in agreement if and only if it is harmless. -/
theorem kick_consistent_iff (env : Environment) (peer : ChatPeer) (channelName target : Bytes)
    {store : ChannelStore} (h : store.Consistent) :
    (performUserKickChannel env peer channelName target store).1.Consistent ↔
      (MemberTask.kick peer channelName target).Harmless env store := by
  obtain ⟨members, hrep⟩ := consistent_iff_represents.mp h
  by_cases haccept : KickAccepted env peer channelName target store
  · obtain ⟨hallowed, hzero⟩ := haccept
    set channel := getChannelSummaryByName env store channelName with hchannel
    set targetId := (getUserSummaryByName env store target).id with htarget
    have hrun : (performUserKickChannel env peer channelName target store).1 =
        removeUserFromChannel env store peer.details.id channel targetId := by
      simp only [performUserKickChannel, ← hchannel, ← htarget, hallowed]
      rw [if_neg (by decide), if_pos hzero]
    have hsame := same_members_remove env store peer.details.id targetId channel
    have hremove : (performUserKickChannel env peer channelName target store).1.Consistent ↔
        (removeMember store peer.details.id channel.channelId targetId).Consistent := by
      rw [hrun]
      exact ⟨hsame.symm.consistent, hsame.consistent⟩
    have hharmless : (MemberTask.kick peer channelName target).Harmless env store ↔
        targetId = peer.details.id ∨ (¬ store.IsMember channel.channelId peer.details.id ∧
          ¬ store.IsMember channel.channelId targetId) :=
      ⟨fun hkick => hkick ⟨hallowed, hzero⟩, fun hkick _ => hkick⟩
    rw [hremove, hharmless, hrep.channelUser, hrep.channelUser]
    by_cases hself : targetId = peer.details.id
    · have hleft := represents_remove hrep (show (if targetId ≠ 0 then targetId else
        peer.details.id) = peer.details.id from by simp [hself]) channel.channelId
      exact iff_of_true (consistent_iff_represents.mpr ⟨_, hleft⟩) (.inl hself)
    · rw [or_iff_right hself]
      exact consistent_remove_other hrep hself hzero channel.channelId
  · have hrun : (performUserKickChannel env peer channelName target store).1 = store := by
      unfold KickAccepted at haccept
      simp only [performUserKickChannel]
      split
      · rfl
      · rename_i hallowed
        rw [if_neg fun hzero => haccept ⟨by simpa using hallowed, hzero⟩]
    rw [hrun]
    exact iff_of_true h fun hkick => absurd hkick haccept

/-- A task keeps the three places in agreement if and only if it is harmless. -/
theorem task_consistent_iff (env : Environment) (task : MemberTask) {store : ChannelStore}
    (h : store.Consistent) : (task.run env store).Consistent ↔ task.Harmless env store := by
  cases task with
  | join peer request => exact iff_of_true (join_consistent env peer request h) trivial
  | part peer channelName => exact iff_of_true (part_consistent env peer channelName h) trivial
  | kick peer channelName target => exact kick_consistent_iff env peer channelName target h
  | deleteUser userDetails =>
      exact iff_of_true (delete_user_consistent env userDetails h) trivial

/-- In a run from users without channels, the three places agree in every state that is reached
if and only if every kick that is carried out is for the kicker himself or between users who are
not in the channel. -/
theorem membership_consistent_iff (usernick : Bytes → Option Int) (user : Int → Option UserSummary)
    (tasks : List (Environment × MemberTask)) :
    (∀ before, before <+: tasks → (runTasks (withUsers usernick user) before).Consistent) ↔
      ∀ before env task, before ++ [(env, task)] <+: tasks →
        task.Harmless env (runTasks (withUsers usernick user) before) := by
  have hstep : ∀ before env task, runTasks (withUsers usernick user) (before ++ [(env, task)]) =
      task.run env (runTasks (withUsers usernick user) before) := by
    intro before env task
    simp [runTasks]
  constructor
  · intro hall before env task hpre
    have hbefore := hall before ((List.prefix_append before _).trans hpre)
    have hafter := hall _ hpre
    rw [hstep] at hafter
    exact (task_consistent_iff env task hbefore).mp hafter
  · intro hharmless before hpre
    induction before using List.reverseRecOn with
    | nil =>
        intro userId channelId
        simp [runTasks, withUsers, ChannelStore.IsMember, lookupUserChannelModeFlags, hasFlag]
    | append_singleton before last ih =>
        obtain ⟨env, task⟩ := last
        have hbefore := ih ((List.prefix_append before _).trans hpre)
        rw [hstep]
        exact (task_consistent_iff env task hbefore).mpr (hharmless before env task hpre)

/-- A web service that knows nothing. -/
def quietEnvironment : Environment :=
  ⟨ascii "server", 0, .empty, id, [], [], []⟩

/-- A client with an id, a nick and operator privileges. -/
def chatPeer (id : Int) (nick : Bytes) (operflags : Int) : ChatPeer :=
  ⟨{ UserSummary.empty with id := id, nick := nick, operflags := operflags }, fun _ => 0⟩

/-- Two users, of whom the first may override. -/
def twoUsers : ChannelStore :=
  withUsers
    (fun nick =>
      if nick = ascii "alice" then some 1 else if nick = ascii "bob" then some 2 else none)
    (fun id =>
      if id = 1 then some (chatPeer 1 (ascii "alice") 32).details
      else if id = 2 then some (chatPeer 2 (ascii "bob") 0).details else none)

/-- Both join a channel, and the first kicks the second. -/
def kickRun : List (Environment × MemberTask) :=
  [(quietEnvironment, .join (chatPeer 1 (ascii "alice") 32) ⟨ascii "#a", [], 0⟩),
    (quietEnvironment, .join (chatPeer 2 (ascii "bob") 0) ⟨ascii "#a", [], 0⟩),
    (quietEnvironment, .kick (chatPeer 1 (ascii "alice") 32) (ascii "#a") (ascii "bob"))]

/-- After a kick, the kicker has left as far as his own set says, and the target as far as the
channel's set says. -/
theorem kick_splits_membership :
    ¬ ∀ usernick user tasks, (runTasks (withUsers usernick user) tasks).Consistent := by
  intro h
  have hrun : (runTasks twoUsers kickRun).Consistent := h _ _ kickRun
  have htarget := (hrun 2 1).1
  have husers : (runTasks twoUsers kickRun).channelUsers 1 = [1] := by decide
  have hchannels : (runTasks twoUsers kickRun).userChannels 2 = [1] := by decide
  rw [husers, hchannels] at htarget
  exact absurd htarget (by decide)

end OpenSpy.Peerchat
