import Mathlib.Data.List.DropRight
import OpenSpy.Peerchat.ChannelModes

/-!
# Ban masks

`MODE #a +b *@host` is not part of the change of the channel's modes: `handle_ban_hostmask` makes
a request of its own for every mask, and `Perform_UpdateChannelModes_BanMask` calls the usermode
service for it. The rank that `Perform_UpdateChannelModes` demands (`update_channel_modes_demands`)
is not looked at there; `ban_authorised_iff` says when this lets nobody ban.
-/

namespace OpenSpy.Peerchat

open Bytes UserChannelFlag ChannelStore

/-- A call of the usermode service, a `PUT` or a `DELETE`. -/
structure BanCall where
  set : Bool
  usermode : UsermodeRecord
  deriving DecidableEq, Repr

/-- The request of `handle_ban_hostmask`. Its limit is not set. -/
def handleBanHostmask (unsetLimit : BitVec 32) (hostmask : Bytes) (set : Bool) : ChannelModify :=
  if set then
    { ChannelModify.empty unsetLimit with setUsermodes := orFlag hostmask banned [] }
  else
    { ChannelModify.empty unsetLimit with unsetUsermodes := orFlag hostmask banned [] }

/-- `GetFormattedHostMask`: what stands behind the last `@`. -/
def getFormattedHostMask (mask : Bytes) : Bytes :=
  mask.rtakeWhile (· != char '@')

section Task

variable (webError : BanCall → Bool) (peer : ChatPeer) (channelName : Bytes)

/-- The call of `SetOrRemoveNonGlobalBan_ByChannel`. -/
def nonGlobalBan (set : Bool) (banMask : Bytes) : BanCall where
  set := set
  usermode :=
    { UsermodeRecord.empty with
      setByUserSummary := peer.details
      comment := ascii "Issued via MODE command"
      hostmask := banMask
      chanmask := channelName
      isGlobal := false
      modeflags := banned
      hasGameid := false }

/-- A loop of `Perform_UpdateChannelModes_BanMask`. `success` stays true when the service answers
with an error, so it goes on after a failure and ends after the first ban that is taken. -/
def banLoop (set : Bool) : FlagMap → List BanCall
  | [] => []
  | (mask, flags) :: rest =>
      if hasFlag flags banned then
        let call := nonGlobalBan peer channelName set (getFormattedHostMask mask)
        if webError call then call :: banLoop set rest else [call]
      else banLoop set rest

/-- `Perform_UpdateChannelModes_BanMask`. -/
def performUpdateChannelModesBanMask (modify : ChannelModify) : List BanCall :=
  banLoop webError peer channelName true modify.setUsermodes ++
    banLoop webError peer channelName false modify.unsetUsermodes

end Task

/-- The calls of the usermode service that a request makes. -/
def banCalls (webError : BanCall → Bool) (unsetLimit : BitVec 32) (peer : ChatPeer) :
    ModeRequest → List BanCall
  | .updateBanMask channelName banMask set =>
      performUpdateChannelModesBanMask webError peer channelName
        (handleBanHostmask unsetLimit banMask set)
  | _ => []

/-- The rank that `Perform_UpdateChannelModes` demands. -/
def MayChangeModes (store : ChannelStore) (peer : ChatPeer) (channelName : Bytes) : Prop :=
  peer.hasPrivilege operOverride ∨
    2 ≤ store.rank (getChannelIdByName store (channelName.map toLower)) peer.details.id

/-- The sign behind a mode. -/
def signAfter (set : Bool) (mode : UInt8) : Bool :=
  if mode = char '+' then true else if mode = char '-' then false else set

/-- The modes that take a parameter. -/
def takesParam (set : Bool) (mode : UInt8) : Bool :=
  mode = char 'b' || mode = char 'v' || mode = char 'h' || mode = char 'o' || mode = char 'O' ||
    (set && (mode = char 'k' || mode = char 'l'))

/-- The number of parameters that a mode string takes. -/
def paramsTaken (set : Bool) : Bytes → Nat
  | [] => 0
  | mode :: rest => (if takesParam set mode then 1 else 0) + paramsTaken (signAfter set mode) rest

/-- Some `b` of the mode string has a parameter. -/
def HasBanMask : List Bytes → Prop
  | [] => False
  | modeString :: params =>
      ∃ before rest, modeString = before ++ char 'b' :: rest ∧
        paramsTaken true before < params.length

section Parser

variable {data : List Bytes} {parser : ModeParser} {mode : UInt8}

/-- What a step of the loop does to the sign, the offset and the ban masks. -/
def StepsTo (parser next : ModeParser) (set param : Bool) (banMask : Option Bytes) : Prop :=
  next.set = set ∧ next.lastOffset = parser.lastOffset + (if param then 1 else 0) ∧
    next.banMasks = parser.banMasks ++ (banMask.map fun mask => (mask, parser.set)).toList

theorem steps_user_flag (flag : BitVec 32) :
    StepsTo parser (parseUserFlag data flag parser) parser.set true none := by
  unfold parseUserFlag
  simp only
  split
  · exact ⟨rfl, rfl, by simp⟩
  · split <;> exact ⟨rfl, rfl, by simp⟩

theorem steps_ban :
    StepsTo parser (parseBan data parser) parser.set true data[parser.lastOffset + 1]? := by
  unfold parseBan
  simp only
  cases data[parser.lastOffset + 1]? <;> exact ⟨rfl, rfl, by simp⟩

theorem steps_password :
    StepsTo parser (parsePassword data parser) parser.set parser.set none := by
  obtain ⟨set, setFlags, unsetFlags, lastOffset, modify, banMasks, lookup⟩ := parser
  unfold parsePassword
  cases set with
  | false => exact ⟨rfl, rfl, by simp⟩
  | true =>
      simp only [if_true]
      split <;> exact ⟨rfl, rfl, by simp⟩

theorem steps_limit :
    StepsTo parser (parseLimit data parser) parser.set parser.set none := by
  obtain ⟨set, setFlags, unsetFlags, lastOffset, modify, banMasks, lookup⟩ := parser
  unfold parseLimit
  cases set with
  | false => exact ⟨rfl, rfl, by simp⟩
  | true =>
      simp only [if_true]
      split <;> exact ⟨rfl, rfl, by simp⟩

theorem steps_channel_flag (mode : UInt8) :
    StepsTo parser (parseChannelFlag mode parser) parser.set false none := by
  unfold parseChannelFlag
  split
  · exact ⟨rfl, rfl, by simp⟩
  · split <;> exact ⟨rfl, rfl, by simp⟩

/-- The body of the loop takes a parameter for the modes that have one, and a mask for `b`. -/
theorem steps_mode :
    StepsTo parser (parseMode data parser mode) (signAfter parser.set mode)
      (takesParam parser.set mode)
      (if mode = char 'b' then data[parser.lastOffset + 1]? else none) := by
  unfold parseMode
  by_cases hplus : mode = char '+'
  · subst hplus
    exact ⟨rfl, by simp [takesParam, char], by simp [char]⟩
  by_cases hminus : mode = char '-'
  · subst hminus
    exact ⟨rfl, by simp [takesParam, char], by simp [char]⟩
  have hsign : signAfter parser.set mode = parser.set := by
    rw [signAfter, if_neg hplus, if_neg hminus]
  rw [if_neg hplus, if_neg hminus, hsign]
  by_cases hban : mode = char 'b'
  · subst hban
    exact steps_ban
  rw [if_neg hban, if_neg hban]
  by_cases hpassword : mode = char 'k'
  · subst hpassword
    rw [if_pos rfl, show takesParam parser.set (char 'k') = parser.set by
      simp [takesParam, char]]
    exact steps_password
  rw [if_neg hpassword]
  by_cases hlimit : mode = char 'l'
  · subst hlimit
    rw [if_pos rfl, show takesParam parser.set (char 'l') = parser.set by
      simp [takesParam, char]]
    exact steps_limit
  rw [if_neg hlimit]
  by_cases hvoice : mode = char 'v'
  · subst hvoice
    exact steps_user_flag voice
  rw [if_neg hvoice]
  by_cases hhalf : mode = char 'h'
  · subst hhalf
    exact steps_user_flag halfOp
  rw [if_neg hhalf]
  by_cases hop : mode = char 'o'
  · subst hop
    exact steps_user_flag op
  rw [if_neg hop]
  by_cases howner : mode = char 'O'
  · subst howner
    exact steps_user_flag owner
  rw [if_neg howner, show takesParam parser.set mode = false by
    simp [takesParam, hban, hvoice, hhalf, hop, howner, hpassword, hlimit]]
  exact steps_channel_flag mode

/-- The loop finds a ban mask if there was one before, or some `b` has a parameter left. -/
theorem parse_ban_masks (modeString : Bytes) :
    (modeString.foldl (parseMode data) parser).banMasks ≠ [] ↔
      parser.banMasks ≠ [] ∨ ∃ before rest, modeString = before ++ char 'b' :: rest ∧
        parser.lastOffset + paramsTaken parser.set before + 1 < data.length := by
  induction modeString generalizing parser with
  | nil => simp
  | cons mode modeString ih =>
      obtain ⟨hset, hoffset, hmasks⟩ := @steps_mode data parser mode
      rw [List.foldl_cons, ih, hset, hoffset, hmasks]
      -- the mask of the first mode, or one of those behind it
      have hfirst : (∃ before rest, mode :: modeString = before ++ char 'b' :: rest ∧
          parser.lastOffset + paramsTaken parser.set before + 1 < data.length) ↔
          (mode = char 'b' ∧ parser.lastOffset + 1 < data.length) ∨
            ∃ before rest, modeString = before ++ char 'b' :: rest ∧
              parser.lastOffset + (if takesParam parser.set mode then 1 else 0) +
                paramsTaken (signAfter parser.set mode) before + 1 < data.length := by
        constructor
        · rintro ⟨before, rest, heq, hlength⟩
          cases before with
          | nil =>
              obtain ⟨rfl, -⟩ := List.cons.inj heq
              exact .inl ⟨rfl, hlength⟩
          | cons first before =>
              obtain ⟨rfl, htail⟩ := List.cons.inj heq
              refine .inr ⟨before, rest, htail, ?_⟩
              rw [paramsTaken] at hlength
              omega
        · rintro (⟨rfl, hlength⟩ | ⟨before, rest, rfl, hlength⟩)
          · exact ⟨[], modeString, rfl, hlength⟩
          · refine ⟨mode :: before, rest, rfl, ?_⟩
            rw [paramsTaken]
            omega
      rw [hfirst, ← or_assoc]
      refine or_congr ?_ Iff.rfl
      by_cases hban : mode = char 'b'
      · rw [if_pos hban]
        by_cases hlength : parser.lastOffset + 1 < data.length
        · simp [hban, hlength]
        · simp [hlength]
      · simp [hban]

end Parser

section Bans

variable {webError : BanCall → Bool} {unsetLimit : BitVec 32} {peer : ChatPeer}

/-- The request for a ban mask makes one call, for its channel. -/
theorem ban_mask_calls (channelName banMask : Bytes) (set : Bool) :
    banCalls webError unsetLimit peer (.updateBanMask channelName banMask set) =
      [nonGlobalBan peer channelName set (getFormattedHostMask banMask)] := by
  have hflag : hasFlag banned banned = true := by decide
  cases set <;>
    simp [banCalls, performUpdateChannelModesBanMask, handleBanHostmask, ChannelModify.empty,
      banLoop, orFlag, hflag]

/-- The calls of a MODE command are those for the masks that the loop has found. -/
theorem mem_ban_calls_iff (command channelName : Bytes) (params : List Bytes) (call : BanCall) :
    (∃ request ∈ handleChannelModeCommand unsetLimit command channelName params,
        call ∈ banCalls webError unsetLimit peer request) ↔
      ∃ modeString rest, params = modeString :: rest ∧
        ∃ ban ∈ (parseModes unsetLimit (command :: channelName :: params) modeString).banMasks,
          call = nonGlobalBan peer channelName ban.2 (getFormattedHostMask ban.1) := by
  cases params with
  | nil => simp [handleChannelModeCommand, banCalls]
  | cons modeString params =>
      set parser := parseModes unsetLimit (command :: channelName :: modeString :: params)
        modeString with hparser
      have hlookup : ∀ request ∈ (if parser.includeBanLookup then
          [ModeRequest.listUserModes channelName] else []),
            banCalls webError unsetLimit peer request = [] := by
        intro request hrequest
        split at hrequest
        · rw [List.mem_singleton.mp hrequest]
          rfl
        · cases hrequest
      have hchange : ∀ modify, banCalls webError unsetLimit peer
          (.updateChannelModes channelName modify) = [] := fun _ => rfl
      constructor
      · rintro ⟨request, hrequest, hcall⟩
        refine ⟨modeString, params, rfl, ?_⟩
        simp only [handleChannelModeCommand, ← hparser, List.mem_append, List.mem_map,
          List.mem_cons] at hrequest
        rcases hrequest with ⟨ban, hban, rfl⟩ | rfl | hrest
        · rw [ban_mask_calls, List.mem_singleton] at hcall
          exact ⟨ban, hban, hcall⟩
        · rw [hchange] at hcall
          cases hcall
        · rw [hlookup request hrest] at hcall
          cases hcall
      · rintro ⟨modeString', params', heq, ban, hban, rfl⟩
        obtain ⟨rfl, rfl⟩ := List.cons.inj heq
        refine ⟨.updateBanMask channelName ban.1 ban.2, ?_, ?_⟩
        · simp only [handleChannelModeCommand, ← hparser, List.mem_append, List.mem_map]
          exact .inl ⟨ban, hban, rfl⟩
        · rw [ban_mask_calls, List.mem_singleton]

/-- A MODE command calls the usermode service if and only if some `b` has a parameter. -/
theorem ban_called_iff (command channelName : Bytes) (params : List Bytes) :
    (∃ call, ∃ request ∈ handleChannelModeCommand unsetLimit command channelName params,
        call ∈ banCalls webError unsetLimit peer request) ↔ HasBanMask params := by
  simp only [mem_ban_calls_iff]
  cases params with
  | nil => simp [HasBanMask]
  | cons modeString params =>
      have hmasks : (parseModes unsetLimit (command :: channelName :: modeString :: params)
          modeString).banMasks ≠ [] ↔ HasBanMask (modeString :: params) := by
        have hoffset : ∀ taken, 2 + taken + 1 <
            (command :: channelName :: modeString :: params).length ↔ taken < params.length := by
          intro taken
          simp only [List.length_cons]
          omega
        unfold parseModes
        rw [parse_ban_masks]
        simp only [ne_eq, not_true_eq_false, false_or, hoffset]
        rfl
      rw [← hmasks]
      constructor
      · rintro ⟨call, modeString', params', heq, ban, hban, -⟩
        obtain ⟨rfl, rfl⟩ := List.cons.inj heq
        exact List.ne_nil_of_mem hban
      · intro hfound
        obtain ⟨ban, hban⟩ := List.exists_mem_of_ne_nil _ hfound
        exact ⟨_, modeString, params, rfl, ban, hban, rfl⟩

/-- `Perform_UpdateChannelModes` changes nothing for a requester without the rank. -/
theorem update_channel_modes_demands (env : Environment) {store : ChannelStore}
    {channelName : Bytes} (h : ¬ MayChangeModes store peer channelName)
    (modify : ChannelModify) :
    (performUpdateChannelModes env peer channelName modify store).1 = store := by
  have hoverride : peer.hasPrivilege operOverride = false := by
    cases hprivilege : peer.hasPrivilege operOverride with
    | false => rfl
    | true => exact absurd (.inl hprivilege) h
  unfold performUpdateChannelModes
  simp only
  split
  · rfl
  · rename_i hchannel
    have hid : (getChannelSummaryByName env store channelName).channelId =
        getChannelIdByName store (channelName.map toLower) := by
      unfold getChannelSummaryByName at hchannel ⊢
      simp only at hchannel ⊢
      split
      · rfl
      · rename_i hzero
        rw [if_neg hzero] at hchannel
        exact absurd rfl hchannel
    have hrefused : checkActionPermissions peer
        (lookupUserChannelModeFlags store (getChannelSummaryByName env store channelName).channelId
          peer.details.id) 0 halfOp = false := by
      rw [← Bool.not_eq_true, action_permissions_iff hoverride, hid]
      intro hlevel
      have hhalf : getUserChannelModeLevel halfOp = 2 := by decide
      exact h (.inr (hhalf ▸ hlevel.1))
    rw [hrefused]
    rfl

/-- Only who may change the modes of a channel bans there, in every store and for every MODE
command, if and only if the requester may do so or no `b` of the command has a parameter. -/
theorem ban_authorised_iff (webError : BanCall → Bool) (unsetLimit : BitVec 32)
    (store : ChannelStore) (peer : ChatPeer) (command channelName : Bytes) (params : List Bytes) :
    (∀ request ∈ handleChannelModeCommand unsetLimit command channelName params,
        ∀ call ∈ banCalls webError unsetLimit peer request,
          MayChangeModes store peer call.usermode.chanmask) ↔
      (MayChangeModes store peer channelName ∨ ¬ HasBanMask params) := by
  have hchannel : ∀ request ∈ handleChannelModeCommand unsetLimit command channelName params,
      ∀ call ∈ banCalls webError unsetLimit peer request,
        call.usermode.chanmask = channelName := by
    intro request hrequest call hcall
    obtain ⟨_, _, -, ban, -, rfl⟩ := (mem_ban_calls_iff command channelName params call).mp
      ⟨request, hrequest, hcall⟩
    rfl
  constructor
  · intro hall
    by_cases hmask : HasBanMask params
    · obtain ⟨call, request, hrequest, hcall⟩ := (@ban_called_iff webError unsetLimit peer
        command channelName params).mpr hmask
      exact .inl (hchannel request hrequest call hcall ▸ hall request hrequest call hcall)
    · exact .inr hmask
  · rintro (hmay | hmask) request hrequest call hcall
    · rw [hchannel request hrequest call hcall]
      exact hmay
    · exact absurd ((ban_called_iff command channelName params).mp
        ⟨call, request, hrequest, hcall⟩) hmask

/-- Somebody who has not joined the channel bans a host there. -/
theorem stranger_bans :
    ¬ ∀ (webError : BanCall → Bool) (unsetLimit : BitVec 32) (store : ChannelStore)
        (peer : ChatPeer) (command channelName : Bytes) (params : List Bytes),
        ReachableStore store →
          ∀ request ∈ handleChannelModeCommand unsetLimit command channelName params,
            ∀ call ∈ banCalls webError unsetLimit peer request,
              MayChangeModes store peer call.usermode.chanmask := by
  intro h
  have hban := h (fun _ => false) 0 twoUsers (chatPeer 2 (ascii "bob") 0) (ascii "MODE")
    (ascii "#a") [ascii "+b", ascii "*@host"] (.start _ _)
    (.updateBanMask (ascii "#a") (ascii "*@host") true) (by decide)
    (nonGlobalBan (chatPeer 2 (ascii "bob") 0) (ascii "#a") true (ascii "host")) (by decide)
  revert hban
  unfold MayChangeModes
  decide

end Bans

end OpenSpy.Peerchat
