import Mathlib.Data.List.AList
import OpenSpy.Peerchat.Flags
import OpenSpy.Peerchat.Usermode

/-!
# The channel store

The redis database of the chat server: users and their nicks, channels and their names, and for
the members of a channel the sorted set of the channel, the sorted set of each user and the
flags of each user in the channel. Below are the lookups and the helpers that change it.
Expiry, `_custkeys` hashes and the notifications to other servers are left out.
-/

namespace OpenSpy.Peerchat

open Bytes Redis UserChannelFlag ChannelMode

/-- The hash `channel_<id>`, with defaults for the fields that are not there. -/
structure Channel where
  name : Bytes
  entrymsg : Bytes
  modeflags : BitVec 32
  password : Bytes
  limit : BitVec 32
  createdAt : BitVec 64
  topic : Bytes
  topicTime : BitVec 64
  topicUser : Bytes
  deriving DecidableEq, Repr

/-- A channel without fields. -/
def Channel.empty : Channel :=
  ⟨[], [], 0, [], 0, 0, [], 0, []⟩

/-- The keys of the database. `channelUser` holds the `modeflags` of the hashes
`channel_<id>_user_<id>`, by user and channel. -/
structure ChannelStore where
  usernick : Bytes → Option Int
  user : Int → Option UserSummary
  channelname : Bytes → Option (BitVec 32)
  channel : BitVec 32 → Option Channel
  channelUsers : BitVec 32 → List Int
  channelUser : Int → AList fun _ : BitVec 32 => BitVec 32
  userChannels : Int → List (BitVec 32)
  usermodes : UsermodeCache
  channelId : BitVec 32

/-- What a task gets from outside: the server's name, the time, the memory of integers without
a value, what the web service does (it applies channel properties to a new channel and answers
with the usermodes for it and the records of a staging room) and the replies of the usermode
scan. -/
structure Environment where
  serverName : Bytes
  now : BitVec 64
  unset : UserSummary
  applyChanProps : Channel → Channel
  usermodes : List UsermodeRecord
  stagingRoom : List UsermodeRecord
  scan : List (Option (List Bytes))

/-- `ChannelUserSummary`. -/
structure ChannelUserSummary where
  channelId : BitVec 32
  userId : Int
  modeflags : BitVec 32
  userSummary : UserSummary

/-- `ChannelSummary`. -/
structure ChannelSummary where
  channelId : BitVec 32
  channelName : Bytes
  entrymsg : Bytes
  basicModeFlags : BitVec 32
  password : Bytes
  limit : BitVec 32
  createdAt : BitVec 64
  topic : Bytes
  topicTime : BitVec 64
  topicUserSummary : Bytes
  users : List ChannelUserSummary

/-- `ChannelSummary::ChannelSummary()`. -/
def ChannelSummary.empty : ChannelSummary :=
  ⟨0, [], [], 0, [], 0, 0, [], 0, [], []⟩

namespace ChannelStore

/-- Users with their nicks, and no channel. -/
def withUsers (usernick : Bytes → Option Int) (user : Int → Option UserSummary) :
    ChannelStore where
  usernick := usernick
  user := user
  channelname := fun _ => none
  channel := fun _ => none
  channelUsers := fun _ => []
  channelUser := fun _ => ∅
  userChannels := fun _ => []
  usermodes := ⟨fun _ _ => none, fun _ _ => none⟩
  channelId := 0

variable (env : Environment) (store : ChannelStore)

/-- `server_userSummary`. -/
def serverUserSummary : UserSummary :=
  { UserSummary.empty with
    id := -1
    nick := ascii "SERVER"
    username := ascii "SERVER"
    hostname := env.serverName }

/-- `LookupUserById`. -/
def lookupUserById (userId : Int) : UserSummary :=
  if userId = -1 then serverUserSummary env
  else
    match store.user userId with
    | none => .empty
    | some summary => { summary with id := userId }

/-- The key of a nick, behind `usernick_`. -/
def nickKey (name : Bytes) : Bytes :=
  cString (name.map toLower)

/-- `GetUserSummaryByName`. -/
def getUserSummaryByName (name : Bytes) : UserSummary :=
  match store.usernick (nickKey name) with
  | none => .empty
  | some id => lookupUserById env store id

/-- `LookupUserChannelModeFlags`. -/
def lookupUserChannelModeFlags (channelId : BitVec 32) (userId : Int) : BitVec 32 :=
  ((store.channelUser userId).lookup channelId).getD 0

/-- `HSET channel_<id>_user_<id> modeflags`. -/
def setUserChannelModeFlags (channelId : BitVec 32) (userId : Int) (modeflags : BitVec 32) :
    ChannelStore :=
  { store with
    channelUser := Function.update store.channelUser userId
      ((store.channelUser userId).insert channelId modeflags) }

/-- `DEL channel_<id>_user_<id>`. -/
def deleteChannelUser (channelId : BitVec 32) (userId : Int) : ChannelStore :=
  { store with
    channelUser := Function.update store.channelUser userId
      ((store.channelUser userId).erase channelId) }

/-- `CountUserChannels`, a scan for the hashes of a user. -/
def countUserChannels (userId : Int) : Nat :=
  (store.channelUser userId).entries.length

/-- `CountChannelUsers`. -/
def countChannelUsers (channelId : BitVec 32) : Nat :=
  (store.channelUsers channelId).length

/-- `GetChannelUsers`: the members who are still there. -/
def getChannelUsers (channelId : BitVec 32) : List ChannelUserSummary :=
  ((store.channelUsers channelId).map fun userId =>
    { channelId := channelId
      userId := userId
      modeflags := lookupUserChannelModeFlags store channelId userId
      userSummary := lookupUserById env store userId }).filter (·.userSummary.id ≠ 0)

/-- `LookupChannelById`. -/
def lookupChannelById (channelId : BitVec 32) : ChannelSummary :=
  let channel := (store.channel channelId).getD .empty
  { channelId := channelId
    channelName := channel.name
    entrymsg := channel.entrymsg
    basicModeFlags := channel.modeflags
    password := channel.password
    limit := channel.limit
    createdAt := channel.createdAt
    topic := channel.topic
    topicTime := channel.topicTime
    topicUserSummary := channel.topicUser
    users := getChannelUsers env store channelId }

/-- `GetChannelIdByName`. -/
def getChannelIdByName (name : Bytes) : BitVec 32 :=
  match store.channelname (cString name) with
  | none => 0
  | some id => if (store.channel id).isSome then id else 0

/-- `GetChannelSummaryByName` with `create` false. -/
def getChannelSummaryByName (name : Bytes) : ChannelSummary :=
  let id := getChannelIdByName store (name.map toLower)
  if id ≠ 0 then lookupChannelById env store id
  else { ChannelSummary.empty with channelName := name }

/-- The new channel of `CreateChannel`, as `HMSET` writes it. -/
def newChannel (name : Bytes) (old : Option Channel) : Channel :=
  { old.getD .empty with
    name := cString name
    modeflags := 0
    createdAt := env.now }

/-- `CreateChannel`. The web service applies the channel properties and answers with the
usermodes for the channel. -/
def createChannel (name : Bytes) : ChannelStore × ChannelSummary :=
  let id := store.channelId + 1
  let channel := env.applyChanProps (newChannel env name (store.channel id))
  let created :=
    { store with
      channelId := id
      channel := Function.update store.channel id (some channel)
      channelname := Function.update store.channelname (cString (name.map toLower)) (some id) }
  ({ created with
      usermodes :=
        writeUsermodes created.usermodes (env.usermodes.map fun record => (record, id)) },
    lookupChannelById env created id)

/-- `GetChannelSummaryByName` with `create` true, and whether the channel is new. -/
def getOrCreateChannel (name : Bytes) : ChannelStore × ChannelSummary × Bool :=
  let id := getChannelIdByName store (name.map toLower)
  if id ≠ 0 then (store, lookupChannelById env store id, false)
  else
    let (store, channel) := createChannel env store (name.map toLower)
    (store, channel, true)

/-- `Create_StagingRoom_UsermodeRecords`: the records come back from the web service. -/
def createStagingRoomUsermodeRecords (channelId : BitVec 32) : ChannelStore :=
  { store with
    usermodes := env.stagingRoom.foldl
      (fun cache record => associateUsermodeToChannel record channelId cache) store.usermodes }

/-- `AddUserToChannel`. -/
def addUserToChannel (userId : Int) (channelId : BitVec 32) (initialFlags : BitVec 32) :
    ChannelStore :=
  let added :=
    { store with
      userChannels := Function.update store.userChannels userId
        (zadd (store.userChannels userId) channelId)
      channelUsers := Function.update store.channelUsers channelId
        (zadd (store.channelUsers channelId) userId) }
  setUserChannelModeFlags added channelId userId initialFlags

/-- `DeleteChannelById`. The channel's hash is left to expire. -/
def deleteChannelById (channelId : BitVec 32) : ChannelStore :=
  let channel := lookupChannelById env store channelId
  { store with
    channelname := Function.update store.channelname (cString channel.channelName) none
    usermodes :=
      { store.usermodes with
        channels := Function.update store.usermodes.channels channelId fun _ => none } }

/-- The first commands of `RemoveUserFromChannel`. The target leaves the set of the channel, but
the user's flags are deleted and the channel is taken from the user's set. -/
def removeMember (userId : Int) (channelId : BitVec 32) (targetId : Int) : ChannelStore :=
  let removed :=
    { store with
      channelUsers := Function.update store.channelUsers channelId
        (zrem (store.channelUsers channelId) (if targetId ≠ 0 then targetId else userId))
      userChannels := Function.update store.userChannels userId
        (zrem (store.userChannels userId) channelId) }
  deleteChannelUser removed channelId userId

/-- `RemoveUserFromChannel`. -/
def removeUserFromChannel (userId : Int) (channel : ChannelSummary) (targetId : Int) :
    ChannelStore :=
  let removed := removeMember store userId channel.channelId targetId
  if !hasFlag channel.basicModeFlags stayOpen ∧ countChannelUsers removed channel.channelId = 0 then
    deleteChannelById env removed channel.channelId
  else removed

/-- The id of the channel of a name. -/
theorem channel_id_by_name (name : Bytes) :
    (getChannelSummaryByName env store name).channelId =
      getChannelIdByName store (name.map toLower) := by
  unfold getChannelSummaryByName
  simp only
  split
  · rfl
  · rename_i hzero
    exact (not_not.mp hzero).symm

/-- The flags after a change. -/
theorem lookup_set_flags (channelId otherId : BitVec 32) (userId other : Int) (flags : BitVec 32) :
    lookupUserChannelModeFlags (setUserChannelModeFlags store channelId userId flags) otherId other =
      if otherId = channelId ∧ other = userId then flags
      else lookupUserChannelModeFlags store otherId other := by
  unfold lookupUserChannelModeFlags setUserChannelModeFlags
  by_cases huser : other = userId
  · subst huser
    by_cases hchannel : otherId = channelId
    · subst hchannel
      simp
    · simp [hchannel, AList.lookup_insert_ne hchannel]
  · simp [huser]

/-- The flags after the hash is deleted. -/
theorem lookup_delete (channelId otherId : BitVec 32) (userId other : Int) :
    lookupUserChannelModeFlags (deleteChannelUser store channelId userId) otherId other =
      if otherId = channelId ∧ other = userId then 0
      else lookupUserChannelModeFlags store otherId other := by
  unfold lookupUserChannelModeFlags deleteChannelUser
  by_cases huser : other = userId
  · subst huser
    by_cases hchannel : otherId = channelId
    · subst hchannel
      simp
    · simp [hchannel, AList.lookup_erase_ne hchannel]
  · simp [huser]

end ChannelStore

end OpenSpy.Peerchat
