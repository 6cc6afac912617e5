import OpenSpy.Peerchat.Membership
import OpenSpy.Peerchat.ModeCommand

/-!
# Changing the modes of a channel

`performUpdateChannelModes` checks the rank of the requester against the rank of every user that
the request names, and then gives and takes their flags. The check does not look at the rank
that is given: `mode_raises_nobody_iff` says which requests nevertheless raise nobody above the
requester.
-/

namespace OpenSpy.Peerchat

open Bytes UserChannelFlag ChannelStore

/-- `TestChannelUserModeChangeItem`. The flags that are changed are not looked at. -/
def testChannelUserModeChangeItem (env : Environment) (store : ChannelStore) (peer : ChatPeer)
    (channel : ChannelSummary) (fromModeFlags : BitVec 32) (item : Bytes × BitVec 32) : Bool :=
  let target := getUserSummaryByName env store item.1
  if target.id = 0 then false
  else if peer.hasPrivilege operOverride then true
  else
    let toModeFlags := lookupUserChannelModeFlags store channel.channelId target.id
    checkActionPermissions peer fromModeFlags toModeFlags
      (getMinimumModeFlagsFromUpdateSet toModeFlags)

/-- `CheckChannelUserModeChange`. -/
def checkChannelUserModeChange (env : Environment) (store : ChannelStore) (peer : ChatPeer)
    (channelName : Bytes) (fromModeFlags : BitVec 32) (setUsermodes unsetUsermodes : FlagMap) :
    Bool :=
  let channel := getChannelSummaryByName env store channelName
  if peer.hasPrivilege operOverride then true
  else
    setUsermodes.all (testChannelUserModeChangeItem env store peer channel fromModeFlags) &&
      unsetUsermodes.all (testChannelUserModeChangeItem env store peer channel fromModeFlags)

/-- The body of the loop of `HandleSetUsermodes`. -/
def handleSetUsermode (env : Environment) (channelId : BitVec 32) (unset : Bool)
    (store : ChannelStore) (item : Bytes × BitVec 32) : ChannelStore :=
  let summary := getUserSummaryByName env store item.1
  if summary.id = 0 then store
  else
    let modeflags := lookupUserChannelModeFlags store channelId summary.id
    setUserChannelModeFlags store channelId summary.id
      (changeFlags unset modeflags item.2)

/-- `HandleSetUsermodes`. -/
def handleSetUsermodes (env : Environment) (channelId : BitVec 32) (unset : Bool)
    (usermodes : FlagMap) (store : ChannelStore) : ChannelStore :=
  usermodes.foldl (handleSetUsermode env channelId unset) store

/-- The modes that a request adds to those of the channel, and those that it removes. -/
def updateBasicFlags (modify : ChannelModify) (basicModeFlags : BitVec 32) : BitVec 32 :=
  let added := channelModeFlagMap.foldl (fun flags entry =>
    if hasFlag modify.setModeFlags entry.1 then flags ||| entry.1 else flags) basicModeFlags
  channelModeFlagMap.foldl (fun flags entry =>
    if hasFlag modify.unsetModeFlags entry.1 then flags &&& ~~~entry.1 else flags) added

/-- The hash of the channel, as the last commands of `Perform_UpdateChannelModes` change it. -/
def updateChannelHash (env : Environment) (peer : ChatPeer) (modify : ChannelModify)
    (channel : Channel) : Channel :=
  let channel := { channel with modeflags := updateBasicFlags modify channel.modeflags }
  let channel := if modify.updateLimit then { channel with limit := modify.limit } else channel
  let channel :=
    if modify.updatePassword then { channel with password := cString modify.password } else channel
  if modify.updateTopic then
    if modify.topic.length ≠ 0 then
      { channel with
        topic := cString modify.topic
        topicTime := env.now
        topicUser := cString (peer.details.toString false) }
    else { channel with topic := [], topicTime := 0, topicUser := [] }
  else channel

/-- `Perform_UpdateChannelModes`. -/
def performUpdateChannelModes (env : Environment) (peer : ChatPeer) (channelName : Bytes)
    (modify : ChannelModify) (store : ChannelStore) : ChannelStore × ResponseCode :=
  let summary := getChannelSummaryByName env store channelName
  let fromModeFlags := lookupUserChannelModeFlags store summary.channelId peer.details.id
  if summary.channelId = 0 then (store, .noSuchUser)
  else if !checkActionPermissions peer fromModeFlags 0 halfOp ||
      !checkChannelUserModeChange env store peer channelName fromModeFlags modify.setUsermodes
        modify.unsetUsermodes then (store, .authInvalidCredentials)
  else
    let store := handleSetUsermodes env summary.channelId false modify.setUsermodes store
    let store := handleSetUsermodes env summary.channelId true modify.unsetUsermodes store
    ({ store with
        channel := Function.update store.channel summary.channelId
          (some (updateChannelHash env peer modify
            ((store.channel summary.channelId).getD .empty))) }, .success)

/-- A request that is carried out. Only a change of modes touches the store; bans go to the web
service, and the others are lookups. -/
def performModeRequest (env : Environment) (peer : ChatPeer) (store : ChannelStore) :
    ModeRequest → ChannelStore
  | .updateChannelModes channelName modify =>
      (performUpdateChannelModes env peer channelName modify store).1
  | _ => store

/-- A MODE command, with all its requests carried out in their order. -/
def runMode (env : Environment) (unsetLimit : BitVec 32) (peer : ChatPeer)
    (command channelName : Bytes) (params : List Bytes) (store : ChannelStore) : ChannelStore :=
  (handleChannelModeCommand unsetLimit command channelName params).foldl
    (performModeRequest env peer) store

/-- The stores that the tasks reach from users without channels. -/
inductive ReachableStore : ChannelStore → Prop
  | start (usernick : Bytes → Option Int) (user : Int → Option UserSummary) :
      ReachableStore (withUsers usernick user)
  | task {store : ChannelStore} (env : Environment) (task : MemberTask) :
      ReachableStore store → ReachableStore (task.run env store)
  | mode {store : ChannelStore} (env : Environment) (unsetLimit : BitVec 32) (peer : ChatPeer)
      (command channelName : Bytes) (params : List Bytes) :
      ReachableStore store →
        ReachableStore (runMode env unsetLimit peer command channelName params store)

/-- The rank of a user in a channel. -/
def ChannelStore.rank (store : ChannelStore) (channelId : BitVec 32) (userId : Int) : Nat :=
  getUserChannelModeLevel (lookupUserChannelModeFlags store channelId userId)

/-- A change keeps every member of a channel at most as high as before or as the requester, and
the flags of members above the requester as they are. -/
def KeepsRanks (store after : ChannelStore) (channelId : BitVec 32) (requesterId : Int) : Prop :=
  ∀ userId, store.IsMember channelId userId →
    after.rank channelId userId ≤
        max (store.rank channelId userId) (store.rank channelId requesterId) ∧
      (store.rank channelId requesterId < store.rank channelId userId →
        lookupUserChannelModeFlags after channelId userId =
          lookupUserChannelModeFlags store channelId userId)

/-- The flags that the names of a user stand for in a request. -/
def namedFlags (env : Environment) (store : ChannelStore) (userId : Int) (usermodes : FlagMap) :
    BitVec 32 :=
  usermodes.foldl (fun flags item =>
    if (getUserSummaryByName env store item.1).id = userId then flags ||| item.2 else flags) 0

/-- The request passes the checks: the requester is at least half operator, every user that is
named is known, and the requester is owner or his rank is not below the user's, who has one. -/
def ModeAccepted (env : Environment) (store : ChannelStore) (channelId : BitVec 32)
    (requesterId : Int) (modify : ChannelModify) : Prop :=
  channelId ≠ 0 ∧ 2 ≤ store.rank channelId requesterId ∧
    ∀ item ∈ modify.setUsermodes ++ modify.unsetUsermodes,
      let userId := (getUserSummaryByName env store item.1).id
      userId ≠ 0 ∧ (store.rank channelId requesterId = 4 ∨
        0 < store.rank channelId userId ∧
          store.rank channelId userId ≤ store.rank channelId requesterId)

/-- The request is refused, or what it gives a member and does not take from him at once is no
rank above his own and the requester's. -/
def ModeHarmless (env : Environment) (store : ChannelStore) (channelId : BitVec 32)
    (requesterId : Int) (modify : ChannelModify) : Prop :=
  ModeAccepted env store channelId requesterId modify →
    ∀ userId, store.IsMember channelId userId →
      getUserChannelModeLevel (namedFlags env store userId modify.setUsermodes &&&
          ~~~namedFlags env store userId modify.unsetUsermodes) ≤
        max (store.rank channelId userId) (store.rank channelId requesterId)

/-- Giving or taking flags changes no name. -/
theorem names_set_usermode (env : Environment) (channelId : BitVec 32) (unset : Bool)
    (store : ChannelStore) (item : Bytes × BitVec 32) :
    getUserSummaryByName env (handleSetUsermode env channelId unset store item) =
      getUserSummaryByName env store := by
  unfold handleSetUsermode
  simp only
  split <;> rfl

/-- A user who is not named is given no flags. -/
theorem named_flags_none {env : Environment} {store : ChannelStore} {userId : Int}
    {usermodes : FlagMap}
    (h : ∀ item ∈ usermodes, (getUserSummaryByName env store item.1).id ≠ userId) :
    namedFlags env store userId usermodes = 0 := by
  unfold namedFlags
  induction usermodes with
  | nil => rfl
  | cons item usermodes ih =>
      rw [List.foldl_cons, if_neg (h item (by simp))]
      exact ih fun other hother => h other (by simp [hother])

/-- The flags of one name, and those of the names behind it. -/
theorem named_flags_cons (env : Environment) (store : ChannelStore) (userId : Int)
    (item : Bytes × BitVec 32) (usermodes : FlagMap) :
    namedFlags env store userId (item :: usermodes) =
      (if (getUserSummaryByName env store item.1).id = userId then item.2 else 0) |||
        namedFlags env store userId usermodes := by
  have hfold : ∀ flags : BitVec 32, usermodes.foldl (fun flags item =>
      if (getUserSummaryByName env store item.1).id = userId then flags ||| item.2 else flags)
        flags = flags ||| namedFlags env store userId usermodes := by
    unfold namedFlags
    induction usermodes with
    | nil => simp
    | cons next usermodes ih =>
        intro flags
        simp only [List.foldl_cons]
        rw [ih, ih (if (getUserSummaryByName env store next.1).id = userId then 0 ||| next.2 else 0)]
        split <;> simp [BitVec.or_assoc]
  rw [namedFlags, List.foldl_cons, hfold]
  split <;> simp

/-- One step of the loop over the users. -/
theorem set_usermode_flags (env : Environment) (channelId : BitVec 32) (unset : Bool)
    (store : ChannelStore) (item : Bytes × BitVec 32) {userId : Int} (huser : userId ≠ 0) :
    lookupUserChannelModeFlags (handleSetUsermode env channelId unset store item) channelId userId =
      changeFlags unset (lookupUserChannelModeFlags store channelId userId)
        (if (getUserSummaryByName env store item.1).id = userId then item.2 else 0) := by
  unfold handleSetUsermode
  by_cases hnamed : (getUserSummaryByName env store item.1).id = userId
  · simp only [hnamed, huser, if_false, lookup_set_flags, and_self, if_true]
  · by_cases hknown : (getUserSummaryByName env store item.1).id = 0
    · simp only [hknown, Ne.symm huser, if_true, if_false, change_flags_zero]
    · simp only [hknown, hnamed, lookup_set_flags, Ne.symm hnamed, if_false, and_false,
        change_flags_zero]

/-- The loop gives or takes all flags that the names of a user stand for. -/
theorem set_usermodes_flags (env : Environment) (channelId : BitVec 32) (unset : Bool)
    (usermodes : FlagMap) (store : ChannelStore) {userId : Int} (huser : userId ≠ 0) :
    lookupUserChannelModeFlags (handleSetUsermodes env channelId unset usermodes store) channelId
        userId =
      changeFlags unset (lookupUserChannelModeFlags store channelId userId)
        (namedFlags env store userId usermodes) := by
  induction usermodes generalizing store with
  | nil => simp only [handleSetUsermodes, namedFlags, List.foldl_nil, change_flags_zero]
  | cons item usermodes ih =>
      have hnames : ∀ later, namedFlags env (handleSetUsermode env channelId unset store item)
          userId later = namedFlags env store userId later := by
        intro later
        simp only [namedFlags, names_set_usermode]
      have hstep : handleSetUsermodes env channelId unset (item :: usermodes) store =
          handleSetUsermodes env channelId unset usermodes
            (handleSetUsermode env channelId unset store item) := rfl
      rw [hstep, ih, hnames, set_usermode_flags env channelId unset store item huser,
        named_flags_cons, change_flags_or]

/-- The names are the same after the loop. -/
theorem names_set_usermodes (env : Environment) (channelId : BitVec 32) (unset : Bool)
    (usermodes : FlagMap) (store : ChannelStore) :
    getUserSummaryByName env (handleSetUsermodes env channelId unset usermodes store) =
      getUserSummaryByName env store := by
  induction usermodes generalizing store with
  | nil => rfl
  | cons item usermodes ih => exact (ih _).trans (names_set_usermode env channelId unset store item)

/-- The loop leaves a user alone who has no id. -/
theorem set_usermodes_zero (env : Environment) (channelId : BitVec 32) (unset : Bool)
    (usermodes : FlagMap) (store : ChannelStore) :
    lookupUserChannelModeFlags (handleSetUsermodes env channelId unset usermodes store) channelId 0 =
      lookupUserChannelModeFlags store channelId 0 := by
  induction usermodes generalizing store with
  | nil => rfl
  | cons item usermodes ih =>
      refine (ih _).trans ?_
      unfold handleSetUsermode
      by_cases hknown : (getUserSummaryByName env store item.1).id = 0
      · simp only [hknown, if_true]
      · simp only [hknown, if_false, lookup_set_flags, Ne.symm hknown, and_false]

/-- Without the privilege to override, ranks alone are compared. -/
theorem action_permissions_iff {peer : ChatPeer} (hoverride : peer.hasPrivilege operOverride = false)
    (fromModeFlags toModeFlags minModeFlags : BitVec 32) :
    checkActionPermissions peer fromModeFlags toModeFlags minModeFlags ↔
      getUserChannelModeLevel minModeFlags ≤ getUserChannelModeLevel fromModeFlags ∧
        getUserChannelModeLevel toModeFlags ≤ getUserChannelModeLevel fromModeFlags := by
  rw [checkActionPermissions, hoverride, if_neg Bool.false_ne_true]
  by_cases hmin : getUserChannelModeLevel minModeFlags ≤ getUserChannelModeLevel fromModeFlags
  · rw [if_neg (Nat.not_lt.mpr hmin), and_iff_right hmin]
    by_cases hto : getUserChannelModeLevel toModeFlags ≤ getUserChannelModeLevel fromModeFlags
    · rw [if_neg (Nat.not_lt.mpr hto)]
      exact iff_of_true rfl hto
    · rw [if_pos (Nat.lt_of_not_le hto)]
      exact iff_of_false Bool.false_ne_true hto
  · rw [if_pos (Nat.lt_of_not_le hmin)]
    exact iff_of_false Bool.false_ne_true fun h => hmin h.1

/-- So it is for every user whose flags are changed. -/
theorem test_item_iff {env : Environment} {store : ChannelStore} {peer : ChatPeer}
    (hoverride : peer.hasPrivilege operOverride = false) (channel : ChannelSummary)
    (item : Bytes × BitVec 32) :
    testChannelUserModeChangeItem env store peer channel
        (lookupUserChannelModeFlags store channel.channelId peer.details.id) item ↔
      let userId := (getUserSummaryByName env store item.1).id
      userId ≠ 0 ∧ (store.rank channel.channelId peer.details.id = 4 ∨
        0 < store.rank channel.channelId userId ∧
          store.rank channel.channelId userId ≤ store.rank channel.channelId peer.details.id) := by
  set userId := (getUserSummaryByName env store item.1).id with huser
  have hrequester : store.rank channel.channelId peer.details.id ≤ 4 := level_le_four _
  have htarget : store.rank channel.channelId userId ≤ 4 := level_le_four _
  have hminimum : getUserChannelModeLevel (getMinimumModeFlagsFromUpdateSet
      (lookupUserChannelModeFlags store channel.channelId userId)) =
      if store.rank channel.channelId userId = 0 then 4 else store.rank channel.channelId userId :=
    minimum_level _
  simp only [testChannelUserModeChangeItem, ← huser]
  by_cases hknown : userId = 0
  · rw [if_pos hknown]
    exact iff_of_false Bool.false_ne_true fun h => h.1 hknown
  · rw [if_neg hknown, hoverride, if_neg Bool.false_ne_true, action_permissions_iff hoverride,
      hminimum, and_iff_right hknown]
    show _ ≤ store.rank channel.channelId peer.details.id ∧
      store.rank channel.channelId userId ≤ store.rank channel.channelId peer.details.id ↔ _
    split <;> omega

/-- The checks accept exactly these requests. -/
theorem mode_checks_iff {env : Environment} {store : ChannelStore} {peer : ChatPeer}
    (hoverride : peer.hasPrivilege operOverride = false) (channelName : Bytes)
    (modify : ChannelModify) :
    let channelId := (getChannelSummaryByName env store channelName).channelId
    let fromModeFlags := lookupUserChannelModeFlags store channelId peer.details.id
    (channelId ≠ 0 ∧ checkActionPermissions peer fromModeFlags 0 halfOp ∧
      checkChannelUserModeChange env store peer channelName fromModeFlags modify.setUsermodes
        modify.unsetUsermodes) ↔
      ModeAccepted env store channelId peer.details.id modify := by
  intro channelId fromModeFlags
  have haction : checkActionPermissions peer fromModeFlags 0 halfOp ↔
      2 ≤ store.rank channelId peer.details.id := by
    have hhalf : getUserChannelModeLevel halfOp = 2 := by decide
    have hzero : getUserChannelModeLevel 0 = 0 := by decide
    rw [action_permissions_iff hoverride, hhalf, hzero]
    exact and_iff_left (Nat.zero_le _)
  have hitems : checkChannelUserModeChange env store peer channelName fromModeFlags
      modify.setUsermodes modify.unsetUsermodes ↔
        ∀ item ∈ modify.setUsermodes ++ modify.unsetUsermodes,
          testChannelUserModeChangeItem env store peer
            (getChannelSummaryByName env store channelName) fromModeFlags item := by
    simp only [checkChannelUserModeChange, hoverride, List.forall_mem_append]
    simp
  unfold ModeAccepted
  rw [haction, hitems]
  refine and_congr_right fun _ => and_congr_right fun _ => forall_congr' fun item =>
    forall_congr' fun _ => ?_
  exact test_item_iff hoverride _ item

/-- The flags of every user after a request that is accepted. -/
theorem accepted_flags {env : Environment} {store : ChannelStore} {peer : ChatPeer}
    (hoverride : peer.hasPrivilege operOverride = false) {channelName : Bytes}
    {modify : ChannelModify}
    (haccepted : ModeAccepted env store (getChannelSummaryByName env store channelName).channelId
      peer.details.id modify) (userId : Int) :
    lookupUserChannelModeFlags (performUpdateChannelModes env peer channelName modify store).1
        (getChannelSummaryByName env store channelName).channelId userId =
      changeFlags true (changeFlags false (lookupUserChannelModeFlags store
        (getChannelSummaryByName env store channelName).channelId userId)
          (namedFlags env store userId modify.setUsermodes))
        (namedFlags env store userId modify.unsetUsermodes) := by
  obtain ⟨hknown, haction, hitems⟩ := (mode_checks_iff hoverride channelName modify).mpr haccepted
  set channelId := (getChannelSummaryByName env store channelName).channelId with hid
  have hrun : lookupUserChannelModeFlags
      (performUpdateChannelModes env peer channelName modify store).1 channelId userId =
        lookupUserChannelModeFlags (handleSetUsermodes env channelId true modify.unsetUsermodes
          (handleSetUsermodes env channelId false modify.setUsermodes store)) channelId userId := by
    simp only [performUpdateChannelModes, ← hid, hknown, haction, hitems, if_false, Bool.not_true,
      Bool.or_self, Bool.false_eq_true]
    rfl
  have hnames : namedFlags env (handleSetUsermodes env channelId false modify.setUsermodes store)
      userId modify.unsetUsermodes = namedFlags env store userId modify.unsetUsermodes := by
    simp only [namedFlags, names_set_usermodes]
  rw [hrun]
  by_cases huser : userId = 0
  · -- No name stands for the user without an id, so nothing is given to him or taken from him.
    subst huser
    have hset := named_flags_none fun item hitem =>
      (haccepted.2.2 item (List.mem_append_left modify.unsetUsermodes hitem)).1
    have hunset := named_flags_none fun item hitem =>
      (haccepted.2.2 item (List.mem_append_right modify.setUsermodes hitem)).1
    rw [set_usermodes_zero, set_usermodes_zero, hset, hunset, change_flags_zero, change_flags_zero]
  · rw [set_usermodes_flags env channelId true _ _ huser,
      set_usermodes_flags env channelId false _ _ huser, hnames]

/-- A request that is refused changes nothing. -/
theorem refused_unchanged {env : Environment} {store : ChannelStore} {peer : ChatPeer}
    (hoverride : peer.hasPrivilege operOverride = false) {channelName : Bytes}
    {modify : ChannelModify}
    (hrefused : ¬ ModeAccepted env store
      (getChannelSummaryByName env store channelName).channelId peer.details.id modify) :
    (performUpdateChannelModes env peer channelName modify store).1 = store := by
  have hchecks := fun hall => hrefused ((mode_checks_iff hoverride channelName modify).mp hall)
  unfold performUpdateChannelModes
  simp only
  split
  · rfl
  · rename_i hknown
    rw [if_pos]
    by_contra hpass
    simp only [Bool.or_eq_true, Bool.not_eq_true', not_or, Bool.not_eq_false] at hpass
    exact hchecks ⟨hknown, hpass.1, hpass.2⟩

/-- Of the requests of a command, the change of the modes decides. -/
theorem run_mode_flags (env : Environment) (unsetLimit : BitVec 32) (peer : ChatPeer)
    (command channelName modeString : Bytes) (params : List Bytes) (store : ChannelStore) :
    runMode env unsetLimit peer command channelName (modeString :: params) store =
      (performUpdateChannelModes env peer channelName
        (requestedChange unsetLimit command channelName (modeString :: params)) store).1 := by
  have hbans : ∀ (bans : List (Bytes × Bool)) (store : ChannelStore),
      (bans.map fun ban => ModeRequest.updateBanMask channelName ban.1 ban.2).foldl
        (performModeRequest env peer) store = store := by
    intro bans
    induction bans with
    | nil => exact fun _ => rfl
    | cons ban bans ih => exact fun store => ih store
  simp only [runMode, handleChannelModeCommand, List.foldl_append, hbans, List.foldl_cons]
  split <;> rfl

/-- A member above the requester is not named in a request that is accepted. -/
theorem accepted_names_no_higher {env : Environment} {store : ChannelStore} {channelId : BitVec 32}
    {requesterId userId : Int} {modify : ChannelModify}
    (haccepted : ModeAccepted env store channelId requesterId modify)
    (habove : store.rank channelId requesterId < store.rank channelId userId)
    {item : Bytes × BitVec 32} (hitem : item ∈ modify.setUsermodes ++ modify.unsetUsermodes) :
    (getUserSummaryByName env store item.1).id ≠ userId := by
  rintro rfl
  have hfour := level_le_four (lookupUserChannelModeFlags store channelId
    (getUserSummaryByName env store item.1).id)
  obtain ⟨-, howner | ⟨-, hle⟩⟩ := haccepted.2.2 item hitem
  · unfold ChannelStore.rank at habove howner
    omega
  · omega

/-- A MODE command without the privilege to override raises no member above himself and the
requester, and changes no member above the requester, if and only if it is refused or what it
gives a member and does not take from him at once is no rank above his own and the requester's. -/
theorem mode_raises_nobody_iff (env : Environment) (unsetLimit : BitVec 32) (store : ChannelStore)
    {peer : ChatPeer} (hoverride : peer.hasPrivilege operOverride = false)
    (command channelName : Bytes) (params : List Bytes) :
    let channelId := (getChannelSummaryByName env store channelName).channelId
    KeepsRanks store (runMode env unsetLimit peer command channelName params store) channelId
        peer.details.id ↔
      ModeHarmless env store channelId peer.details.id
        (requestedChange unsetLimit command channelName params) := by
  intro channelId
  have hsame : KeepsRanks store store channelId peer.details.id :=
    fun userId _ => ⟨le_max_left _ _, fun _ => rfl⟩
  cases params with
  | nil =>
      refine iff_of_true hsame fun _ userId _ => ?_
      have hnone : getUserChannelModeLevel (0 &&& ~~~0) = 0 := by decide
      exact hnone.le.trans (Nat.zero_le _)
  | cons modeString params =>
      rw [run_mode_flags]
      set modify := requestedChange unsetLimit command channelName (modeString :: params)
      by_cases haccepted : ModeAccepted env store channelId peer.details.id modify
      · have hflags := accepted_flags hoverride haccepted
        have hharmless : ModeHarmless env store channelId peer.details.id modify ↔ _ :=
          ⟨fun h => h haccepted, fun h _ => h⟩
        rw [hharmless]
        refine forall_congr' fun userId => forall_congr' fun _ => ?_
        unfold ChannelStore.rank
        rw [hflags]
        set flags := lookupUserChannelModeFlags store channelId userId with huser
        set given := namedFlags env store userId modify.setUsermodes with hgiven
        set taken := namedFlags env store userId modify.unsetUsermodes with htaken
        have hsplit : changeFlags true (changeFlags false flags given) taken =
            (flags &&& ~~~taken) ||| (given &&& ~~~taken) := by
          ext bit
          simp [changeFlags, Bool.and_or_distrib_right]
        have hlevel := level_or (flags &&& ~~~taken) (given &&& ~~~taken)
        have hkept := level_and_le flags (~~~taken)
        rw [hsplit, hlevel]
        constructor
        · rintro ⟨hle, -⟩
          exact (le_max_right _ _).trans hle
        · intro hle
          refine ⟨max_le (hkept.trans (le_max_left _ _)) hle, fun habove => ?_⟩
          have hset : given = 0 := named_flags_none fun item hitem =>
            accepted_names_no_higher haccepted habove (List.mem_append_left _ hitem)
          have hunset : taken = 0 := named_flags_none fun item hitem =>
            accepted_names_no_higher haccepted habove (List.mem_append_right _ hitem)
          rw [← hsplit, hset, hunset, change_flags_zero, change_flags_zero]
      · rw [refused_unchanged hoverride haccepted]
        exact iff_of_true hsame fun h => absurd h haccepted

/-- A web service that knows one usermode for every channel, which makes everybody half
operator. -/
def halfOpEnvironment : Environment :=
  { quietEnvironment with
    usermodes := [{ UsermodeRecord.empty with usermodeid := 1, modeflags := halfOp }]
    scan := [some [ascii "1"]] }

/-- A user has joined and is half operator. -/
def halfOpStore : ChannelStore :=
  (MemberTask.join (chatPeer 1 (ascii "alice") 0) ⟨ascii "#a", [], 0⟩).run halfOpEnvironment
    (withUsers (fun nick => if nick = ascii "alice" then some 1 else none)
      (fun id => if id = 1 then some (chatPeer 1 (ascii "alice") 0).details else none))

/-- A half operator who gives voice raises nobody. -/
theorem half_op_gives_voice :
    KeepsRanks halfOpStore
      (runMode quietEnvironment 0 (chatPeer 1 (ascii "alice") 0) (ascii "MODE") (ascii "#a")
        [ascii "+v", ascii "alice"] halfOpStore)
      (getChannelSummaryByName quietEnvironment halfOpStore (ascii "#a")).channelId 1 := by
  have hoverride : (chatPeer 1 (ascii "alice") 0).hasPrivilege operOverride = false := by decide
  refine (mode_raises_nobody_iff quietEnvironment 0 halfOpStore hoverride (ascii "MODE")
    (ascii "#a") [ascii "+v", ascii "alice"]).mpr fun _ userId _ => ?_
  have hrequest : requestedChange 0 (ascii "MODE") (ascii "#a") [ascii "+v", ascii "alice"] =
      { ChannelModify.empty 0 with setUsermodes := [(ascii "alice", voice)] } := by decide
  have hrank : halfOpStore.rank
      (getChannelSummaryByName quietEnvironment halfOpStore (ascii "#a")).channelId 1 = 2 := by
    decide
  have hvoice : getUserChannelModeLevel (namedFlags quietEnvironment halfOpStore userId
      [(ascii "alice", voice)]) ≤ 1 := by
    have hnil : namedFlags quietEnvironment halfOpStore userId [] = 0 := rfl
    rw [named_flags_cons, hnil]
    split <;> decide
  rw [hrequest]
  refine (level_and_le _ _).trans (hvoice.trans (le_max_of_le_right ?_))
  exact (by decide : 1 ≤ 2).trans hrank.ge

/-- A half operator can make himself owner. -/
theorem half_op_becomes_owner :
    ¬ ∀ store, ReachableStore store → ∀ (env : Environment) (unsetLimit : BitVec 32)
      (peer : ChatPeer) (command channelName : Bytes) (params : List Bytes),
      peer.hasPrivilege operOverride = false →
      store.IsMember (getChannelSummaryByName env store channelName).channelId peer.details.id →
      KeepsRanks store (runMode env unsetLimit peer command channelName params store)
        (getChannelSummaryByName env store channelName).channelId peer.details.id := by
  intro h
  have hmember : halfOpStore.IsMember
      (getChannelSummaryByName quietEnvironment halfOpStore (ascii "#a")).channelId 1 := by
    unfold ChannelStore.IsMember
    decide
  have hkeeps := h halfOpStore (.task halfOpEnvironment _ (.start _ _)) quietEnvironment 0
    (chatPeer 1 (ascii "alice") 0) (ascii "MODE") (ascii "#a") [ascii "+O", ascii "alice"]
    (by decide) hmember
  exact absurd (hkeeps 1 hmember).1 (by decide)

end OpenSpy.Peerchat
