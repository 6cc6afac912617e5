import OpenSpy.Library.Commands
import OpenSpy.Peerchat.Membership

/-!
# JOIN and PART by their commands

`Perform_UserJoinChannel` and `Perform_UserPartChannel` with the functions of `Channel.cpp` as
programs that issue one command after the other, so that the commands of several tasks can come
in any order. The scan of a set, that of a user's channels, that of the usermodes and what the
web service does to a channel are one command each. A task that runs alone does what
`Membership` says (`run_join`, `run_part`).
-/

namespace OpenSpy.Peerchat.ChannelTasks

open Bytes Commands Redis UserChannelFlag ChannelMode

/-- A redis command. The keys of names are what is behind `channelname_`. -/
inductive Cmd where
  | get (key : Bytes)
  | existsChannel (channelId : BitVec 32)
  | incr
  | hmsetChannel (channelId : BitVec 32) (name : Bytes) (now : BitVec 64)
  | set (key : Bytes) (channelId : BitVec 32)
  | applyChanProps (channelId : BitVec 32) (change : Channel → Channel)
  | writeUsermodes (channelId : BitVec 32) (records : List UsermodeRecord)
  | associateUsermodes (channelId : BitVec 32) (records : List UsermodeRecord)
  | hmgetChannel (channelId : BitVec 32)
  | hmgetUser (userId : Int)
  | hgetFlags (channelId : BitVec 32) (userId : Int)
  | scanUsers (channelId : BitVec 32)
  | scanUserChannels (userId : Int)
  | scanUsermodes (unset : UserSummary) (details : UserSummary)
      (replies : List (Option (List Bytes)))
  | zaddChannel (userId : Int) (channelId : BitVec 32)
  | zincrbyUser (channelId : BitVec 32) (userId : Int)
  | hmsetFlags (channelId : BitVec 32) (userId : Int) (modeflags : BitVec 32)
  | zremUser (channelId : BitVec 32) (userId : Int)
  | zremChannel (userId : Int) (channelId : BitVec 32)
  | delFlags (channelId : BitVec 32) (userId : Int)
  | delName (key : Bytes)
  | delUsermodes (channelId : BitVec 32)

/-- The reply of a command. -/
abbrev Cmd.Reply : Cmd → Type
  | get _ => Option (BitVec 32)
  | existsChannel _ => Bool
  | incr => BitVec 32
  | hmgetChannel _ => Option Channel
  | hmgetUser _ => Option UserSummary
  | hgetFlags _ _ => BitVec 32
  | scanUsers _ => List Int
  | scanUserChannels _ => Nat
  | scanUsermodes _ _ _ => BitVec 32
  | _ => Unit

/-- A command's reply, and the store behind it. -/
def exec : (cmd : Cmd) → ChannelStore → cmd.Reply × ChannelStore
  | .get key, s => (s.channelname key, s)
  | .existsChannel channelId, s => ((s.channel channelId).isSome, s)
  | .incr, s => (s.channelId + 1, { s with channelId := s.channelId + 1 })
  | .hmsetChannel channelId name now, s =>
      ((), { s with
        channel := Function.update s.channel channelId
          (some { (s.channel channelId).getD .empty with
            name := cString name, modeflags := 0, createdAt := now }) })
  | .set key channelId, s =>
      ((), { s with channelname := Function.update s.channelname key (some channelId) })
  | .applyChanProps channelId change, s =>
      ((), { s with
        channel := Function.update s.channel channelId ((s.channel channelId).map change) })
  | .writeUsermodes channelId records, s =>
      ((), { s with
        usermodes := Peerchat.writeUsermodes s.usermodes
          (records.map fun record => (record, channelId)) })
  | .associateUsermodes channelId records, s =>
      ((), { s with
        usermodes := records.foldl
          (fun cache record => associateUsermodeToChannel record channelId cache) s.usermodes })
  | .hmgetChannel channelId, s => (s.channel channelId, s)
  | .hmgetUser userId, s => (s.user userId, s)
  | .hgetFlags channelId userId, s => (s.lookupUserChannelModeFlags channelId userId, s)
  | .scanUsers channelId, s => (s.channelUsers channelId, s)
  | .scanUserChannels userId, s => (s.countUserChannels userId, s)
  | .scanUsermodes unset details replies, s =>
      (getEffectiveUsermode unset s.usermodes details replies 0, s)
  | .zaddChannel userId channelId, s =>
      ((), { s with
        userChannels := Function.update s.userChannels userId
          (zadd (s.userChannels userId) channelId) })
  | .zincrbyUser channelId userId, s =>
      ((), { s with
        channelUsers := Function.update s.channelUsers channelId
          (zadd (s.channelUsers channelId) userId) })
  | .hmsetFlags channelId userId modeflags, s =>
      ((), s.setUserChannelModeFlags channelId userId modeflags)
  | .zremUser channelId userId, s =>
      ((), { s with
        channelUsers := Function.update s.channelUsers channelId
          (zrem (s.channelUsers channelId) userId) })
  | .zremChannel userId channelId, s =>
      ((), { s with
        userChannels := Function.update s.userChannels userId
          (zrem (s.userChannels userId) channelId) })
  | .delFlags channelId userId, s => ((), s.deleteChannelUser channelId userId)
  | .delName key, s =>
      ((), { s with channelname := Function.update s.channelname key none })
  | .delUsermodes channelId, s =>
      ((), { s with
        usermodes :=
          { s.usermodes with
            channels := Function.update s.usermodes.channels channelId fun _ => none } })

/-- A program of the chat tasks. -/
abbrev ChatProg (α : Type) := Prog Cmd.Reply α

/-- The program that issues one command. -/
abbrev redis (cmd : Cmd) : ChatProg cmd.Reply :=
  Prog.issue cmd

/-- `LookupUserById`. -/
def lookupUserById (env : Environment) (userId : Int) : ChatProg UserSummary :=
  if userId = -1 then pure (ChannelStore.serverUserSummary env)
  else do
    let found ← redis (.hmgetUser userId)
    pure (found.elim .empty fun summary => { summary with id := userId })

/-- The loop of `GetChannelUsers` over the members of a reply. -/
def readMembers (env : Environment) (channelId : BitVec 32) :
    List Int → ChatProg (List ChannelUserSummary)
  | [] => pure []
  | userId :: rest => do
      let userSummary ← lookupUserById env userId
      if userSummary.id = 0 then readMembers env channelId rest
      else
        let modeflags ← redis (.hgetFlags channelId userId)
        let others ← readMembers env channelId rest
        pure (⟨channelId, userId, modeflags, userSummary⟩ :: others)

/-- `GetChannelUsers`. -/
def getChannelUsers (env : Environment) (channelId : BitVec 32) :
    ChatProg (List ChannelUserSummary) := do
  let members ← redis (.scanUsers channelId)
  readMembers env channelId members

/-- `LookupChannelById`. -/
def lookupChannelById (env : Environment) (channelId : BitVec 32) : ChatProg ChannelSummary := do
  let reply ← redis (.hmgetChannel channelId)
  let channel := reply.getD .empty
  let users ← getChannelUsers env channelId
  pure
    { channelId := channelId
      channelName := channel.name
      entrymsg := channel.entrymsg
      basicModeFlags := channel.modeflags
      password := channel.password
      limit := channel.limit
      createdAt := channel.createdAt
      topic := channel.topic
      topicTime := channel.topicTime
      topicUserSummary := channel.topicUser
      users := users }

/-- `GetChannelIdByName`. -/
def getChannelIdByName (name : Bytes) : ChatProg (BitVec 32) := do
  let reply ← redis (.get (cString name))
  match reply with
  | none => pure 0
  | some id =>
      if id ≠ 0 then
        let present ← redis (.existsChannel id)
        pure (if present then id else 0)
      else pure 0

/-- `CreateChannel`. -/
def createChannel (env : Environment) (name : Bytes) : ChatProg ChannelSummary := do
  let id ← redis .incr
  redis (.hmsetChannel id name env.now)
  redis (.set (cString (name.map toLower)) id)
  redis (.applyChanProps id env.applyChanProps)
  let summary ← lookupChannelById env id
  redis (.writeUsermodes id env.usermodes)
  pure summary

/-- `GetChannelSummaryByName` with `create` true, and whether the channel is new. -/
def getOrCreateChannel (env : Environment) (name : Bytes) :
    ChatProg (ChannelSummary × Bool) := do
  let id ← getChannelIdByName (name.map toLower)
  if id ≠ 0 then
    let summary ← lookupChannelById env id
    pure (summary, false)
  else
    let summary ← createChannel env (name.map toLower)
    pure (summary, true)

/-- `GetChannelSummaryByName` with `create` false. -/
def getChannelSummaryByName (env : Environment) (name : Bytes) : ChatProg ChannelSummary := do
  let id ← getChannelIdByName (name.map toLower)
  if id ≠ 0 then lookupChannelById env id
  else pure { ChannelSummary.empty with channelName := name }

/-- `CheckUserCanJoinChannel`. -/
def checkUserCanJoinChannel (channel : ChannelSummary) (peer : ChatPeer) (password : Bytes)
    (initialFlags : BitVec 32) : ChatProg Bool :=
  if peer.hasPrivilege operOverride then pure true
  else do
    let count : Nat ← redis (.scanUserChannels peer.details.id)
    pure <|
      if count > maxUserChannels then false
      else if hasFlag channel.basicModeFlags inviteOnly ∧
          (hasFlag (~~~peer.channelFlags channel.channelId) invited ∨
            hasFlag initialFlags invited) then false
      else if channel.limit ≠ 0 ∧ channel.users.length ≥ MachineInt.sizeT channel.limit.toInt ∧
          (hasFlag channel.basicModeFlags opsObeyChannelLimit ∨
            getUserChannelModeLevel initialFlags < 3) then false
      else if channel.password.length ≠ 0 ∧ channel.password ≠ password then false
      else if hasFlag initialFlags banned then false
      else true

/-- `AddUserToChannel`. -/
def addUserToChannel (userId : Int) (channelId initialFlags : BitVec 32) : ChatProg Unit := do
  redis (.zaddChannel userId channelId)
  redis (.zincrbyUser channelId userId)
  redis (.hmsetFlags channelId userId initialFlags)

/-- The end of `Perform_UserJoinChannel`, for a user who is not in the channel. -/
def admitUser (env : Environment) (peer : ChatPeer) (request : JoinRequest)
    (channel : ChannelSummary) (flags : BitVec 32) : ChatProg ResponseCode := do
  let usermode : BitVec 32 ← redis (.scanUsermodes env.unset peer.details env.scan)
  let initialFlags := flags ||| isInChannel ||| request.setModeFlags ||| usermode
  let allowed ← checkUserCanJoinChannel channel peer request.password initialFlags
  if allowed then
    addUserToChannel peer.details.id channel.channelId initialFlags
    pure .success
  else pure .authInvalidCredentials

/-- `Perform_UserJoinChannel`. -/
def performUserJoinChannel (env : Environment) (peer : ChatPeer) (request : JoinRequest) :
    ChatProg ResponseCode := do
  let (channel, created) ← getOrCreateChannel env request.channelName
  let flags : BitVec 32 ← redis (.hgetFlags channel.channelId peer.details.id)
  if hasFlag flags isInChannel then pure .authInvalidCredentials
  else
    if hasFlag channel.basicModeFlags userCreated ∧ created then
      redis (.associateUsermodes channel.channelId env.stagingRoom)
    admitUser env peer request channel flags

/-- `DeleteChannelById`. The channel's hash is left to expire. -/
def deleteChannelById (env : Environment) (channelId : BitVec 32) : ChatProg Unit := do
  let channel ← lookupChannelById env channelId
  redis (.delName (cString channel.channelName))
  redis (.delUsermodes channelId)

/-- `RemoveUserFromChannel` without a target. -/
def removeUserFromChannel (env : Environment) (userId : Int) (channel : ChannelSummary) :
    ChatProg Unit := do
  redis (.zremUser channel.channelId userId)
  redis (.delFlags channel.channelId userId)
  redis (.zremChannel userId channel.channelId)
  if !hasFlag channel.basicModeFlags stayOpen then
    let members ← redis (.scanUsers channel.channelId)
    if members.length = 0 then
      deleteChannelById env channel.channelId

/-- `Perform_UserPartChannel`. -/
def performUserPartChannel (env : Environment) (peer : ChatPeer) (channelName : Bytes) :
    ChatProg ResponseCode := do
  let channel ← getChannelSummaryByName env channelName
  if channel.channelId ≠ 0 then
    let fromModeFlags : BitVec 32 ← redis (.hgetFlags channel.channelId peer.details.id)
    if hasFlag fromModeFlags isInChannel then
      removeUserFromChannel env peer.details.id channel
      pure .success
    else pure .authInvalidCredentials
  else pure .noSuchUser

section Alone

variable (env : Environment) (store : ChannelStore)

@[simp] theorem run_lookup_user (userId : Int) :
    run exec (lookupUserById env userId) store =
      (store.lookupUserById env userId, store) := by
  unfold lookupUserById ChannelStore.lookupUserById
  split_ifs
  · rfl
  · show ((store.user userId).elim UserSummary.empty _, store) = _
    cases store.user userId <;> rfl

/-- Reading the members changes nothing. -/
theorem run_read_members (channelId : BitVec 32) (members : List Int) :
    run exec (readMembers env channelId members) store =
      ((members.map fun userId =>
        { channelId := channelId
          userId := userId
          modeflags := store.lookupUserChannelModeFlags channelId userId
          userSummary := store.lookupUserById env userId : ChannelUserSummary }).filter
            (·.userSummary.id ≠ 0), store) := by
  induction members with
  | nil => rfl
  | cons userId rest ih =>
      rw [readMembers, run_bind, run_lookup_user, run_ite]
      by_cases hid : (store.lookupUserById env userId).id = 0
      · rw [if_pos hid, ih]
        simp [hid]
      · rw [if_neg hid]
        simp only [run_bind, run_issue, exec, ih, run_pure]
        simp [hid]

@[simp] theorem run_lookup_channel (channelId : BitVec 32) :
    run exec (lookupChannelById env channelId) store =
      (store.lookupChannelById env channelId, store) := by
  simp only [lookupChannelById, getChannelUsers, run_bind, run_issue, exec, run_read_members,
    run_pure]
  rfl

@[simp] theorem run_get_id (name : Bytes) :
    run exec (getChannelIdByName name) store = (store.getChannelIdByName name, store) := by
  unfold getChannelIdByName ChannelStore.getChannelIdByName
  rw [run_bind, run_issue]
  simp only [exec]
  cases store.channelname (cString name) with
  | none => rfl
  | some id =>
      simp only
      rw [run_ite]
      by_cases hid : id = 0
      · rw [if_neg (not_not.mpr hid), hid]
        simp
      · rw [if_pos hid]
        rfl

@[simp] theorem run_create (name : Bytes) :
    run exec (createChannel env name) store =
      ((store.createChannel env name).2, (store.createChannel env name).1) := by
  simp only [createChannel, run_bind, run_issue, run_pure, run_lookup_channel, exec,
    ChannelStore.createChannel, ChannelStore.newChannel, Function.update_self, Option.map_some,
    Function.update_idem]

@[simp] theorem run_get_or_create (name : Bytes) :
    run exec (getOrCreateChannel env name) store =
      ((store.getOrCreateChannel env name).2, (store.getOrCreateChannel env name).1) := by
  unfold getOrCreateChannel ChannelStore.getOrCreateChannel
  rw [run_bind, run_get_id, run_ite]
  simp only [run_bind, run_lookup_channel, run_create, run_pure]
  split <;> rfl

@[simp] theorem run_get_summary (name : Bytes) :
    run exec (getChannelSummaryByName env name) store =
      (store.getChannelSummaryByName env name, store) := by
  unfold getChannelSummaryByName ChannelStore.getChannelSummaryByName
  rw [run_bind, run_get_id, run_ite]
  simp only [run_lookup_channel, run_pure]
  split <;> rfl

@[simp] theorem run_check (channel : ChannelSummary) (peer : ChatPeer) (password : Bytes)
    (initialFlags : BitVec 32) :
    run exec (checkUserCanJoinChannel channel peer password initialFlags) store =
      (Peerchat.checkUserCanJoinChannel store channel peer password initialFlags, store) := by
  unfold checkUserCanJoinChannel Peerchat.checkUserCanJoinChannel
  by_cases hoverride : peer.hasPrivilege operOverride
  · rw [if_pos hoverride, if_pos hoverride]
    rfl
  · rw [if_neg hoverride, if_neg hoverride]
    rfl

@[simp] theorem run_admit (peer : ChatPeer) (request : JoinRequest) (channel : ChannelSummary)
    (flags : BitVec 32) :
    run exec (admitUser env peer request channel flags) store =
      (let initialFlags := flags ||| isInChannel ||| request.setModeFlags |||
          getEffectiveUsermode env.unset store.usermodes peer.details env.scan 0
        if Peerchat.checkUserCanJoinChannel store channel peer request.password initialFlags then
          (.success, store.addUserToChannel peer.details.id channel.channelId initialFlags)
        else (.authInvalidCredentials, store)) := by
  unfold admitUser
  simp only [run_bind, run_issue, exec, run_check, run_ite, run_pure]
  split_ifs <;> rfl

/-- A JOIN that runs alone. -/
theorem run_join (peer : ChatPeer) (request : JoinRequest) :
    run exec (performUserJoinChannel env peer request) store =
      ((Peerchat.performUserJoinChannel env peer request store).2,
        (Peerchat.performUserJoinChannel env peer request store).1) := by
  unfold performUserJoinChannel Peerchat.performUserJoinChannel
  rw [run_bind, run_get_or_create]
  obtain ⟨made, channel, created⟩ := store.getOrCreateChannel env request.channelName
  show run exec (if hasFlag (made.lookupUserChannelModeFlags channel.channelId peer.details.id)
    isInChannel then _ else _) made = _
  simp only [run_ite, run_bind, run_issue, exec, run_admit, run_pure,
    ChannelStore.createStagingRoomUsermodeRecords]
  split_ifs <;> rfl

@[simp] theorem run_delete (channelId : BitVec 32) :
    run exec (deleteChannelById env channelId) store =
      ((), store.deleteChannelById env channelId) := by
  simp only [deleteChannelById, run_bind, run_lookup_channel, run_issue, exec]
  rfl

@[simp] theorem run_remove (userId : Int) (channel : ChannelSummary) :
    run exec (removeUserFromChannel env userId channel) store =
      ((), store.removeUserFromChannel env userId channel 0) := by
  set removed := store.removeMember userId channel.channelId 0 with hremoved
  show run exec (if !hasFlag channel.basicModeFlags stayOpen then
    redis (.scanUsers channel.channelId) >>= _ else _) removed = _
  rw [run_ite, run_bind, run_issue]
  show (if !hasFlag channel.basicModeFlags stayOpen then
    run exec (if removed.countChannelUsers channel.channelId = 0 then _ else _) removed
      else _) = _
  simp only [ChannelStore.removeUserFromChannel, run_ite, run_delete, run_pure, ← hremoved, ite_and]
  split_ifs <;> rfl

/-- A PART that runs alone. -/
theorem run_part (peer : ChatPeer) (channelName : Bytes) :
    run exec (performUserPartChannel env peer channelName) store =
      ((Peerchat.performUserPartChannel env peer channelName store).2,
        (Peerchat.performUserPartChannel env peer channelName store).1) := by
  unfold performUserPartChannel Peerchat.performUserPartChannel
  rw [run_bind, run_get_summary, run_ite, run_bind, run_issue]
  show (if (store.getChannelSummaryByName env channelName).channelId ≠ 0 then
    run exec (if hasFlag (store.lookupUserChannelModeFlags
      (store.getChannelSummaryByName env channelName).channelId peer.details.id) isInChannel
        then _ else _) store else _) = _
  simp only [run_ite, run_bind, run_remove, run_pure]
  split_ifs <;> rfl

end Alone

end OpenSpy.Peerchat.ChannelTasks
