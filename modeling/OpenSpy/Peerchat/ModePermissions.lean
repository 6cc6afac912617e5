import OpenSpy.Peerchat.ModeOrder

/-!
# Who may change modes

A requester who is at least half operator, and below no flag of the request and no member that it
names, should have his way. `TestChannelUserModeChangeItem` takes the minimum rank of a change
from the flags that the member has, not from those that change, and
`GetMinimumModeFlagsFromUpdateSet` answers with owner for a member without a rank:
`allowed_request_applied_iff` says that only owners, and operators who may override, can change
such a member.
-/

namespace OpenSpy.Peerchat

open Bytes UserChannelFlag ChannelStore ModeOrder

/-- A request of a requester who ranks high enough, for members of the channel. -/
structure ModeAllowed (env : Environment) (store : ChannelStore) (channelId : BitVec 32)
    (requesterId : Int) (modify : ChannelModify) : Prop where
  channel_known : channelId ≠ 0
  half_op : 2 ≤ store.rank channelId requesterId
  member : ∀ item ∈ modify.setUsermodes ++ modify.unsetUsermodes,
    (getUserSummaryByName env store item.1).id ≠ 0 ∧
      store.IsMember channelId (getUserSummaryByName env store item.1).id
  flags_le : ∀ item ∈ modify.setUsermodes ++ modify.unsetUsermodes,
    getUserChannelModeLevel item.2 ≤ store.rank channelId requesterId
  rank_le : ∀ item ∈ modify.setUsermodes ++ modify.unsetUsermodes,
    store.rank channelId (getUserSummaryByName env store item.1).id ≤
      store.rank channelId requesterId

/-- What `CheckActionPermissions` and `CheckChannelUserModeChange` say to a request. -/
def checksAccept (env : Environment) (store : ChannelStore) (peer : ChatPeer) (channelName : Bytes)
    (modify : ChannelModify) : Bool :=
  let fromModeFlags := lookupUserChannelModeFlags store
    (getChannelSummaryByName env store channelName).channelId peer.details.id
  checkActionPermissions peer fromModeFlags 0 halfOp &&
    checkChannelUserModeChange env store peer channelName fromModeFlags modify.setUsermodes
      modify.unsetUsermodes

/-- What a channel shows when a request is applied. -/
def requestedView (env : Environment) (store : ChannelStore) (channelId : BitVec 32)
    (modify : ChannelModify) : ModeView :=
  let before := viewOf store channelId
  { modeflags := updateBasicFlags modify before.modeflags
    password := if modify.updatePassword then cString modify.password else before.password
    limit := if modify.updateLimit then modify.limit else before.limit
    userFlags := fun user =>
      if user = 0 then before.userFlags 0
      else
        changeFlags true (changeFlags false (before.userFlags user)
          (namedFlags env store user modify.setUsermodes))
          (namedFlags env store user modify.unsetUsermodes) }

/-- The requester may override or is owner, or every member that is named has a rank. -/
def TargetsRanked (env : Environment) (store : ChannelStore) (channelId : BitVec 32)
    (peer : ChatPeer) (modify : ChannelModify) : Prop :=
  peer.hasPrivilege operOverride = true ∨ store.rank channelId peer.details.id = 4 ∨
    ∀ item ∈ modify.setUsermodes ++ modify.unsetUsermodes,
      0 < store.rank channelId (getUserSummaryByName env store item.1).id

section Checks

variable {env : Environment} {store : ChannelStore} {peer : ChatPeer} {channelName : Bytes}
  {modify : ChannelModify}

/-- On a channel that is there, the checks decide. -/
theorem perform_eq_of_checks (peer : ChatPeer) (modify : ChannelModify)
    (hchannel : (getChannelSummaryByName env store channelName).channelId ≠ 0) :
    if checksAccept env store peer channelName modify then
      (performUpdateChannelModes env peer channelName modify store).2 = .success
    else performUpdateChannelModes env peer channelName modify store =
      (store, .authInvalidCredentials) := by
  unfold performUpdateChannelModes checksAccept
  simp only [hchannel, if_false]
  rw [← Bool.not_and]
  split <;> simp_all

/-- The checks of a request that is allowed. -/
theorem checks_accept_iff
    (hallowed : ModeAllowed env store (getChannelSummaryByName env store channelName).channelId
      peer.details.id modify) :
    checksAccept env store peer channelName modify ↔
      TargetsRanked env store (getChannelSummaryByName env store channelName).channelId peer
        modify := by
  by_cases hoverride : peer.hasPrivilege operOverride
  · refine iff_of_true ?_ (.inl hoverride)
    simp only [checksAccept, checkActionPermissions, checkChannelUserModeChange, hoverride, if_true]
    rfl
  · rw [Bool.not_eq_true] at hoverride
    have hchecks := @mode_checks_iff env store peer hoverride channelName modify
    have haccept : checksAccept env store peer channelName modify ↔
        ModeAccepted env store (getChannelSummaryByName env store channelName).channelId
          peer.details.id modify := by
      rw [checksAccept, Bool.and_eq_true]
      exact (and_iff_right hallowed.channel_known).symm.trans hchecks
    rw [haccept, TargetsRanked, hoverride]
    constructor
    · rintro ⟨-, -, hitems⟩
      by_cases howner : store.rank (getChannelSummaryByName env store channelName).channelId
          peer.details.id = 4
      · exact .inr (.inl howner)
      · exact .inr (.inr fun item hitem => ((hitems item hitem).2.resolve_left howner).1)
    · intro hranked
      refine ⟨hallowed.channel_known, hallowed.half_op, fun item hitem =>
        ⟨(hallowed.member item hitem).1, ?_⟩⟩
      rcases hranked with hprivilege | howner | hnamed
      · cases hprivilege
      · exact .inl howner
      · exact .inr ⟨hnamed item hitem, hallowed.rank_le item hitem⟩

end Checks

/-- A request that is allowed is accepted and applied exactly if the requester may override or is
owner, or every member that is named has a rank. -/
theorem allowed_request_applied_iff {env : Environment} {store : ChannelStore} {peer : ChatPeer}
    {channelName : Bytes} {modify : ChannelModify}
    (hallowed : ModeAllowed env store (getChannelSummaryByName env store channelName).channelId
      peer.details.id modify) :
    let channelId := (getChannelSummaryByName env store channelName).channelId
    let result := performUpdateChannelModes env peer channelName modify store
    (checksAccept env store peer channelName modify ↔
        TargetsRanked env store channelId peer modify) ∧
      (TargetsRanked env store channelId peer modify → result.2 = .success ∧
        viewOf result.1 channelId = requestedView env store channelId modify) ∧
        (¬ TargetsRanked env store channelId peer modify →
          result = (store, .authInvalidCredentials)) := by
  intro channelId result
  have haccept := checks_accept_iff hallowed
  have hperform := perform_eq_of_checks peer modify hallowed.channel_known
  refine ⟨haccept, fun hranked => ?_, fun hranked => ?_⟩
  · rw [if_pos (haccept.mpr hranked)] at hperform
    exact ⟨hperform, view_of_success env channelName modify store hperform⟩
  · rwa [if_neg fun h => hranked (haccept.mp h)] at hperform

/-- Two users in a channel: the first has joined as an operator, the second has no rank. -/
def rankedStore : ChannelStore :=
  (MemberTask.join (chatPeer 2 (ascii "bob") 0) ⟨ascii "#a", [], 0⟩).run quietEnvironment
    ((MemberTask.join (chatPeer 1 (ascii "alice") 0) ⟨ascii "#a", [], 0⟩).run
      { halfOpEnvironment with
        usermodes := [{ UsermodeRecord.empty with usermodeid := 1, modeflags := op }] }
      twoUsers)

/-- The operator may give voice to either of them. -/
theorem operator_may_give_voice {name : Bytes} (hname : name = ascii "alice" ∨ name = ascii "bob") :
    ModeAllowed quietEnvironment rankedStore
      (getChannelSummaryByName quietEnvironment rankedStore (ascii "#a")).channelId 1
      { ChannelModify.empty 0 with setUsermodes := [(name, voice)] } := by
  refine ⟨by decide, by decide, ?_, ?_, ?_⟩
  all_goals
    intro item hitem
    obtain rfl : item = (name, voice) := by simpa [ChannelModify.empty] using hitem
  · unfold ChannelStore.IsMember
    rcases hname with rfl | rfl <;> decide
  · show getUserChannelModeLevel voice ≤ _
    decide
  · rcases hname with rfl | rfl <;> decide

/-- The operator gives voice to himself. -/
theorem operator_gives_himself_voice :
    let modify := { ChannelModify.empty 0 with setUsermodes := [(ascii "alice", voice)] }
    let channelId := (getChannelSummaryByName quietEnvironment rankedStore (ascii "#a")).channelId
    let result := performUpdateChannelModes quietEnvironment (chatPeer 1 (ascii "alice") 0)
      (ascii "#a") modify rankedStore
    ModeAllowed quietEnvironment rankedStore channelId 1 modify ∧
      (checksAccept quietEnvironment rankedStore (chatPeer 1 (ascii "alice") 0) (ascii "#a") modify ↔
        TargetsRanked quietEnvironment rankedStore channelId (chatPeer 1 (ascii "alice") 0) modify) ∧
        (TargetsRanked quietEnvironment rankedStore channelId (chatPeer 1 (ascii "alice") 0) modify →
          result.2 = .success ∧
            viewOf result.1 channelId =
              requestedView quietEnvironment rankedStore channelId modify) ∧
          (¬ TargetsRanked quietEnvironment rankedStore channelId (chatPeer 1 (ascii "alice") 0)
            modify → result = (rankedStore, .authInvalidCredentials)) :=
  ⟨operator_may_give_voice (.inl rfl),
    allowed_request_applied_iff (operator_may_give_voice (.inl rfl))⟩

/-- An operator cannot give voice to a member without a rank. -/
theorem operator_cannot_give_voice :
    ¬ ∀ (env : Environment) (store : ChannelStore) (peer : ChatPeer) (channelName : Bytes)
      (modify : ChannelModify),
      ModeAllowed env store (getChannelSummaryByName env store channelName).channelId
        peer.details.id modify →
      checksAccept env store peer channelName modify = true ∧
        (performUpdateChannelModes env peer channelName modify store).2 = .success := by
  intro h
  have haccept := (h quietEnvironment rankedStore (chatPeer 1 (ascii "alice") 0) (ascii "#a")
    { ChannelModify.empty 0 with setUsermodes := [(ascii "bob", voice)] }
    (operator_may_give_voice (.inr rfl))).1
  exact absurd haccept (by decide)

end OpenSpy.Peerchat
