import OpenSpy.Peerchat.Membership

/-!
# Who may join

`CheckUserCanJoinChannel` is a row of gates: the number of channels, invitations, the limit, the
password and bans. Those in the middle and at the end do what they should. The first counts the
hashes of the user and stops only whoever has more than `MAX_USER_CHANNELS`, and the second
turns away a user whose invitation is among the flags that the join has computed.
`join_admits_iff` says when this makes no difference.
-/

namespace OpenSpy.Peerchat

open UserChannelFlag ChannelMode ChannelStore

/-- The number of channels that a user is in. -/
def ChannelStore.channelsOf (store : ChannelStore) (userId : Int) : Nat :=
  ((store.channelUser userId).entries.filter fun entry => hasFlag entry.2 isInChannel).length

section Gates

variable (channel : ChannelSummary) (peer : ChatPeer) (password : Bytes) (initialFlags : BitVec 32)

/-- The user holds the Invited flag, from the peer's flags or from those of the join. -/
def HoldsInvitation : Prop :=
  hasFlag (peer.channelFlags channel.channelId) invited ∨ hasFlag initialFlags invited

/-- The limit is unset or not reached, or the user is an operator who need not obey it. The limit
is compared as a `size_t`, so a negative one is never reached. -/
def LimitAdmits : Prop :=
  channel.limit = 0 ∨ channel.users.length < MachineInt.sizeT channel.limit.toInt ∨
    (3 ≤ getUserChannelModeLevel initialFlags ∧
      ¬ hasFlag channel.basicModeFlags opsObeyChannelLimit)

/-- The password is unset or the one that is given. -/
def PasswordAdmits : Prop :=
  channel.password = [] ∨ channel.password = password

/-- The gates for the limit, the password and bans let the user through. -/
def OtherGatesAdmit : Prop :=
  LimitAdmits channel initialFlags ∧ PasswordAdmits channel password ∧
    ¬ hasFlag initialFlags banned

variable (store : ChannelStore)

/-- The users whom a JOIN should admit. -/
def ShouldAdmit : Prop :=
  peer.hasPrivilege operOverride ∨
    (store.channelsOf peer.details.id < maxUserChannels ∧
      (hasFlag channel.basicModeFlags inviteOnly → HoldsInvitation channel peer initialFlags) ∧
      OtherGatesAdmit channel password initialFlags)

/-- The first two gates make no difference. A user in fewer than `MAX_USER_CHANNELS` channels has
no more hashes than that, or has no invitation to an invite-only channel; he does not come to
such a channel with an invitation that the join has computed. A user in as many channels or more
has more hashes than that, or is turned away from an invite-only channel. -/
structure FirstGatesAgree : Prop where
  computed : store.channelsOf peer.details.id < maxUserChannels →
    store.countUserChannels peer.details.id ≤ maxUserChannels →
      hasFlag channel.basicModeFlags inviteOnly → ¬ hasFlag initialFlags invited
  hashes : store.channelsOf peer.details.id < maxUserChannels →
    maxUserChannels < store.countUserChannels peer.details.id →
      hasFlag channel.basicModeFlags inviteOnly ∧ ¬ HoldsInvitation channel peer initialFlags
  full : maxUserChannels ≤ store.channelsOf peer.details.id →
    store.countUserChannels peer.details.id ≤ maxUserChannels →
      hasFlag channel.basicModeFlags inviteOnly ∧
        (¬ hasFlag (peer.channelFlags channel.channelId) invited ∨ hasFlag initialFlags invited)

end Gates

/-- A channel that is for invited users only. -/
def inviteOnlyChannel : ChannelSummary :=
  { ChannelSummary.empty with channelId := 1, basicModeFlags := inviteOnly }

/-- A user whose usermode invites him is turned away. -/
theorem invited_user_refused :
    ¬ ∀ store channel peer password initialFlags,
      checkUserCanJoinChannel store channel peer password initialFlags = true ↔
        ShouldAdmit channel peer password initialFlags store := by
  intro h
  have hadmit := (h twoUsers inviteOnlyChannel (chatPeer 2 [] 0) [] (isInChannel ||| invited)).mpr
    (.inr ⟨by decide, fun _ => .inr (by decide), .inl rfl, .inl rfl, by decide⟩)
  revert hadmit
  decide

section Join

variable {channel : ChannelSummary} {peer : ChatPeer} {password : Bytes}
  {initialFlags : BitVec 32} {store : ChannelStore}

/-- The Invited flag is one bit. -/
theorem not_invited (flags : BitVec 32) :
    hasFlag (~~~flags) invited = !hasFlag flags invited := by
  rw [invited, has_flag_two_pow _ _ (by decide), has_flag_two_pow _ _ (by decide),
    BitVec.getLsbD_not]
  simp

/-- The gates for the limit, the password and bans do what they should. -/
theorem check_user_can_join_iff (hoverride : peer.hasPrivilege operOverride = false) :
    checkUserCanJoinChannel store channel peer password initialFlags = true ↔
      store.countUserChannels peer.details.id ≤ maxUserChannels ∧
        (hasFlag channel.basicModeFlags inviteOnly →
          hasFlag (peer.channelFlags channel.channelId) invited ∧
            ¬ hasFlag initialFlags invited) ∧
        OtherGatesAdmit channel password initialFlags := by
  have hlimit : (channel.limit ≠ 0 ∧
      channel.users.length ≥ MachineInt.sizeT channel.limit.toInt ∧
        (hasFlag channel.basicModeFlags opsObeyChannelLimit = true ∨
          getUserChannelModeLevel initialFlags < 3)) ↔ ¬ LimitAdmits channel initialFlags := by
    unfold LimitAdmits
    push Not
    refine and_congr_right fun _ => and_congr Iff.rfl ?_
    constructor
    · rintro (hobey | hlow) hlevel
      · exact hobey
      · exact absurd hlow (Nat.not_lt.mpr hlevel)
    · intro hobey
      by_cases hlow : getUserChannelModeLevel initialFlags < 3
      · exact .inr hlow
      · exact .inl (hobey (Nat.not_lt.mp hlow))
  have hpassword : (channel.password.length ≠ 0 ∧ channel.password ≠ password) ↔
      ¬ PasswordAdmits channel password := by
    simp [PasswordAdmits]
  have hinvite : (hasFlag channel.basicModeFlags inviteOnly = true ∧
      (hasFlag (~~~peer.channelFlags channel.channelId) invited = true ∨
        hasFlag initialFlags invited = true)) ↔
      ¬ (hasFlag channel.basicModeFlags inviteOnly →
          hasFlag (peer.channelFlags channel.channelId) invited ∧
            ¬ hasFlag initialFlags invited) := by
    rw [not_invited]
    cases hasFlag channel.basicModeFlags inviteOnly <;>
      cases hasFlag (peer.channelFlags channel.channelId) invited <;>
        cases hasFlag initialFlags invited <;> simp
  rw [checkUserCanJoinChannel, hoverride, if_neg Bool.false_ne_true]
  simp only [hlimit, hpassword, hinvite, OtherGatesAdmit]
  by_cases hcount : store.countUserChannels peer.details.id ≤ maxUserChannels
  · rw [if_neg (Nat.not_lt.mpr hcount)]
    simp only [hcount, true_and]
    split_ifs <;> simp_all
  · rw [if_pos (Nat.lt_of_not_le hcount)]
    simp [hcount]

/-- The first two gates make no difference exactly in the cases that `FirstGatesAgree` lists. -/
theorem first_gates_iff :
    (store.countUserChannels peer.details.id ≤ maxUserChannels ∧
        (hasFlag channel.basicModeFlags inviteOnly →
          hasFlag (peer.channelFlags channel.channelId) invited ∧
            ¬ hasFlag initialFlags invited) ↔
      store.channelsOf peer.details.id < maxUserChannels ∧
        (hasFlag channel.basicModeFlags inviteOnly → HoldsInvitation channel peer initialFlags)) ↔
      FirstGatesAgree channel peer initialFlags store := by
  have hsplit : FirstGatesAgree channel peer initialFlags store ↔ _ ∧ _ ∧ _ :=
    ⟨fun h => ⟨h.computed, h.hashes, h.full⟩, fun h => ⟨h.1, h.2.1, h.2.2⟩⟩
  rw [hsplit]
  simp only [HoldsInvitation]
  by_cases hfew : store.channelsOf peer.details.id < maxUserChannels
  · have hnotFull := Nat.not_le.mpr hfew
    by_cases hcount : store.countUserChannels peer.details.id ≤ maxUserChannels
    · have hnotMany := Nat.not_lt.mpr hcount
      simp only [hfew, hnotFull, hcount, hnotMany, true_and, false_implies, true_implies, and_true]
      grind
    · have hmany := Nat.lt_of_not_le hcount
      simp only [hfew, hnotFull, hcount, hmany, true_and, false_and, false_implies, true_implies,
        and_true]
      grind
  · have hfull := Nat.le_of_not_lt hfew
    by_cases hcount : store.countUserChannels peer.details.id ≤ maxUserChannels
    · simp only [hfew, hfull, hcount, true_and, false_and, false_implies, true_implies]
      grind
    · simp only [hfew, hcount, false_and, false_implies, imp_true_iff, and_true]

/-- `CheckUserCanJoinChannel` admits whom it should if and only if the user has the privilege to
override, is turned away by a later gate, or meets two first gates that make no difference. -/
theorem join_admits_iff (store : ChannelStore) (channel : ChannelSummary) (peer : ChatPeer)
    (password : Bytes) (initialFlags : BitVec 32) :
    (checkUserCanJoinChannel store channel peer password initialFlags = true ↔
        ShouldAdmit channel peer password initialFlags store) ↔
      (peer.hasPrivilege operOverride = true ∨ ¬ OtherGatesAdmit channel password initialFlags ∨
        FirstGatesAgree channel peer initialFlags store) := by
  cases hoverride : peer.hasPrivilege operOverride with
  | true =>
      refine iff_of_true (iff_of_true ?_ (.inl hoverride)) (.inl rfl)
      rw [checkUserCanJoinChannel, if_pos hoverride]
  | false =>
      have hshould : ShouldAdmit channel peer password initialFlags store ↔
          store.channelsOf peer.details.id < maxUserChannels ∧
            (hasFlag channel.basicModeFlags inviteOnly →
              HoldsInvitation channel peer initialFlags) ∧
            OtherGatesAdmit channel password initialFlags := by
        simp [ShouldAdmit, hoverride]
      rw [check_user_can_join_iff hoverride, hshould]
      by_cases hothers : OtherGatesAdmit channel password initialFlags
      · rw [or_iff_right Bool.false_ne_true, or_iff_right (not_not_intro hothers),
          and_iff_left hothers, and_iff_left hothers]
        exact first_gates_iff
      · refine iff_of_true ?_ (.inr (.inl hothers))
        exact iff_of_false (fun h => hothers h.2.2) fun h => hothers h.2.2

end Join

end OpenSpy.Peerchat
