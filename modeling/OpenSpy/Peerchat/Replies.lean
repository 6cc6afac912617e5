import OpenSpy.Core.KVReader
import OpenSpy.Core.Match
import OpenSpy.Peerchat.Membership
import OpenSpy.Peerchat.ModeCommand

/-!
# Replies

What a client is sent: in answer to MODE, NAMES, WHO, WHOIS, LIST, GETCHANKEY and GETCKEY, and
when a message to a channel, a broadcast of keys or a QUIT or NICK of another user arrives. The
text of every packet is given as it is handed to the connection, before it is encrypted there.
-/

namespace OpenSpy.Peerchat

open Bytes UserChannelFlag ChannelMode ChannelStore

/-- `UserAddressVisibiltyInfo`. -/
structure UserAddressVisibilityInfo where
  userId : Int
  channelId : BitVec 32
  deriving DecidableEq, Repr

/-- A peer, with the list of the users whose addresses it may see. -/
structure Viewer where
  peer : ChatPeer
  visibility : List UserAddressVisibilityInfo

/-- The fields of a `_custkeys` hash, and the replies of an `HSCAN` of it for each pattern up to
the one with the cursor 0, each with its fields or without an answer. -/
structure KeyHash where
  field : Bytes → Option Bytes
  scan : Bytes → List (Option (List (Bytes × Bytes)))

/-- `ChanpropsRecord`, as far as a channel is listed by it. -/
structure ChanpropsRecord where
  channelMask : Bytes
  groupname : Bytes
  topic : Bytes
  limit : BitVec 32
  modeflags : BitVec 32
  password : Bytes

/-- What the queries read: the store, the custom keys of channels, `channelUserKeys` for the users
of a channel and `strayUserKeys` under the key that the scan for them uses, the channels of the
hashes `channel_*_user_<id>` with a `channel_id`, the replies of the scan for `channelname_*`, and
the channels that the web service knows and the store does not. -/
structure Backing where
  store : ChannelStore
  channelKeys : BitVec 32 → KeyHash
  channelUserKeys : BitVec 32 → Int → KeyHash
  strayUserKeys : BitVec 32 → Int → KeyHash
  userHashes : Int → List (BitVec 32)
  channelNames : List (Option (List Bytes))
  persistent : List ChanpropsRecord

section Sending

variable (env : Environment) (viewer : Viewer)

/-- `Peer::IsUserAddressVisible`. -/
def Viewer.isUserAddressVisible (userId : Int) : Bool :=
  viewer.peer.hasPrivilege globalOwner || viewer.visibility.any (·.userId == userId)

/-- The peer is in a channel, as far as it knows. -/
def ChatPeer.inChannel (peer : ChatPeer) (channelId : BitVec 32) : Bool :=
  hasFlag (peer.channelFlags channelId) isInChannel

/-- The peer has the mode `q`. -/
def ChatPeer.isQuiet (peer : ChatPeer) : Bool :=
  hasFlag (BitVec.ofInt 32 peer.details.modeflags) quietUser

/-- `UserSummary::GetIRCAddress`. -/
def UserSummary.getIRCAddress (summary : UserSummary) (addressVisible : Bool) : Bytes :=
  if addressVisible then inetNtop summary.address else ascii "*"

/-- `UserSummary::ToIRCString`. -/
def UserSummary.toIRCString (summary : UserSummary) (addressVisible : Bool) : Bytes :=
  summary.nick ++ char '!' :: summary.username ++ char '@' :: summary.getIRCAddress addressVisible

/-- `Peer::send_numeric`. The nick, or a star, comes in front of the target or is left out. -/
def sendNumeric (num : Nat) (str : Bytes) (noColon : Bool) (targetName : Bytes)
    (appendName : Bool) : Bytes :=
  let nick := if viewer.peer.details.nick = [] then ascii "*" else viewer.peer.details.nick
  let name :=
    if targetName = [] then nick
    else if appendName then nick ++ char ' ' :: targetName
    else targetName
  char ':' :: env.serverName ++ char ' ' :: (printNat num).leftpad 3 (char '0') ++
    char ' ' :: name ++ char ' ' :: (if noColon then [] else [char ':']) ++ str ++ ascii "\r\n"

/-- `Peer::send_message`. -/
def sendMessage (messageType messageContent : Bytes) (source : UserSummary) (toName target : Bytes)
    (noColon : Bool) : List Bytes :=
  if viewer.peer.isQuiet then []
  else
    let sourceText :=
      if source.id = 0 then env.serverName
      else source.toIRCString (viewer.isUserAddressVisible source.id)
    [char ':' :: sourceText ++ char ' ' :: messageType ++
      (if toName = [] then [] else char ' ' :: toName) ++
      (if target = [] then [] else char ' ' :: target) ++
      (if messageContent = [] then []
      else char ' ' :: (if noColon then [] else [char ':']) ++ messageContent) ++ ascii "\r\n"]

/-- `Peer::send_no_such_target_error`. -/
def sendNoSuchTargetError (channel : Bytes) : Bytes :=
  sendNumeric env viewer 401 (ascii "No such nick/channel") false channel true

end Sending

section Queries

variable (env : Environment) (viewer : Viewer) (backing : Backing)

/-- The channel of a name, as `Perform_LookupChannelDetails` finds it. -/
def Backing.channel (name : Bytes) : ChannelSummary :=
  getChannelSummaryByName env backing.store name

/-- The first line that `OnMode_FetchChannelInfo` sends. -/
def channelModeText (summary : ChannelSummary) : Bytes :=
  summary.channelName ++ ascii " +" ++
    (channelModeFlagMap.filter fun entry => hasFlag summary.basicModeFlags entry.1).map (·.2) ++
    (if summary.password = [] then [] else [char 'k']) ++
    (if summary.limit.toInt > 0 then [char 'l'] else []) ++
    (if summary.password = [] then [] else char ' ' :: summary.password) ++
    if summary.limit.toInt > 0 then char ' ' :: printBits summary.limit else []

/-- `OnMode_FetchChannelInfo`, for a `MODE` without modes. -/
def onModeFetchChannelInfo (summary : ChannelSummary) : List Bytes :=
  if summary.channelId ≠ 0 then
    [sendNumeric env viewer 324 (channelModeText summary) true [] true,
      sendNumeric env viewer 329 (summary.channelName ++ char ' ' :: printBits summary.createdAt)
        true [] true]
  else [sendNoSuchTargetError env viewer summary.channelName]

/-- In an auditorium only the viewer himself is shown, or those with a rank, too. -/
def auditoriumHides (basicModeFlags : BitVec 32) (userId : Int) (modeflags : BitVec 32) : Bool :=
  if hasFlag basicModeFlags auditorium ∧ userId ≠ viewer.peer.details.id then true
  else if hasFlag basicModeFlags auditoriumShowVOP ∧ userId ≠ viewer.peer.details.id then
    !hasFlag modeflags (owner ||| op ||| halfOp ||| voice)
  else false

/-- A member is passed over: he is invisible, or hidden in an auditorium. -/
def memberHidden (seeInvisible : Bool) (basicModeFlags : BitVec 32) (user : ChannelUserSummary) :
    Bool :=
  (hasFlag user.modeflags invisible && !seeInvisible) ||
    auditoriumHides viewer basicModeFlags user.userSummary.id user.modeflags

/-- The sign of the rank of a member. -/
def rankSign (modeflags : BitVec 32) : Bytes :=
  if hasFlag modeflags (owner ||| op ||| halfOp) then ascii "@"
  else if hasFlag modeflags voice then ascii "+"
  else []

/-- `OnNames_FetchChannelInfo`. -/
def onNamesFetchChannelInfo (summary : ChannelSummary) : List Bytes :=
  let seeInvisible := viewer.peer.hasPrivilege operInvisible
  let ending :=
    sendNumeric env viewer 366 (ascii "End of /NAMES list.") false summary.channelName true
  if !viewer.peer.inChannel summary.channelId ∧ !seeInvisible then [ending]
  else
    let users := summary.users.filter (!memberHidden viewer seeInvisible summary.basicModeFlags ·)
    [sendNumeric env viewer 353
      (users.flatMap fun user => rankSign user.modeflags ++ user.userSummary.nick ++ [char ' '])
      false (ascii "= " ++ summary.channelName) true, ending]

/-- A line of the reply to `WHO`, in front of the signs. -/
def whoText (summary : UserSummary) : Bytes :=
  summary.username ++ char ' ' :: summary.getIRCAddress (viewer.isUserAddressVisible summary.id) ++
    char ' ' :: env.serverName ++ char ' ' :: summary.nick ++ ascii " H"

/-- `OnWho_FetchChannelInfo`. No privilege makes it show invisible users. -/
def onWhoFetchChannelInfo (name : Bytes) (summary : ChannelSummary) : List Bytes :=
  if summary.channelId = 0 then [sendNoSuchTargetError env viewer name]
  else
    let users := summary.users.filter (!memberHidden viewer false summary.basicModeFlags ·)
    users.map (fun user => sendNumeric env viewer 352
        (whoText env viewer user.userSummary ++ rankSign user.modeflags ++ ascii " :0 " ++
          user.userSummary.realname) true summary.channelName true) ++
      [sendNumeric env viewer 315 (ascii "End of /WHO list.") false [] true]

/-- `OnWho_FetchUserInfo`. -/
def onWhoFetchUserInfo (name : Bytes) (summary : UserSummary) : List Bytes :=
  let ending := sendNumeric env viewer 315 (ascii "End of /WHO list.") false
  if summary.id = 0 then [sendNoSuchTargetError env viewer name, ending name true]
  else
    [sendNumeric env viewer 352 (whoText env viewer summary ++ ascii " :0 " ++ summary.realname)
      true summary.nick true, ending summary.nick true]

/-- `WHO`: `handle_who`. -/
def replyWho (target : Bytes) : List Bytes :=
  if target.head? = some (char '#') then
    onWhoFetchChannelInfo env viewer target (backing.channel env target)
  else onWhoFetchUserInfo env viewer target (getUserSummaryByName env backing.store target)

/-- `OnWhois_FetchUser` shows a channel. -/
def whoisShows (summary : ChannelSummary) : Bool :=
  (!hasFlag summary.basicModeFlags (privateChannel ||| secret) ||
      viewer.peer.inChannel summary.channelId || viewer.peer.hasPrivilege globalOwner) &&
    !(hasFlag (viewer.peer.channelFlags summary.channelId) invisible &&
      !viewer.peer.hasPrivilege operInvisible)

/-- `OnWhois_FetchUser`. -/
def onWhoisFetchUser (name : Bytes) (summary : UserSummary)
    (channelSummaries : List ChannelSummary) : List Bytes :=
  if summary.id = 0 then
    [sendNoSuchTargetError env viewer name,
      sendNumeric env viewer 318 (ascii "End of WHOIS list") false name true]
  else
    let names := ((channelSummaries.filter (whoisShows viewer)).map (·.channelName)).flatMap
      fun channelName => channelName ++ [char ' ']
    sendNumeric env viewer 311 (summary.username ++ char ' ' ::
        summary.getIRCAddress (viewer.isUserAddressVisible summary.id) ++ ascii " * :" ++
        summary.realname) true summary.nick true ::
      ((if names = [] then []
      else [sendNumeric env viewer 319 names.dropLast false summary.nick true]) ++
      (if summary.operflags ≠ 0 ∧ viewer.peer.hasPrivilege listOpers then
        [sendNumeric env viewer 313
          (ascii "Is an IRC Operator (" ++ printInt summary.operflags ++ ascii ")") false
          summary.nick true]
      else []) ++
      [sendNumeric env viewer 318 (ascii "End of WHOIS list") false summary.nick true])

/-- `AssignChannelSummariesToResponse`. -/
def Backing.channelsOf (userId : Int) : List ChannelSummary :=
  (backing.userHashes userId).map (lookupChannelById env backing.store)

/-- `WHOIS`: `Perform_LookupUserDetailsByName`. -/
def replyWhois (name : Bytes) : List Bytes :=
  let summary := getUserSummaryByName env backing.store name
  onWhoisFetchUser env viewer name summary (backing.channelsOf env summary.id)

/-- `Peer::getChannelSpecialInfo`. -/
def getChannelSpecialInfo (summary : ChannelSummary) : Bytes :=
  (if summary.topic = [] then [] else ascii "\\topic\\" ++ summary.topic) ++
    (if summary.limit.toInt > 0 then ascii "\\limit\\" ++ printBits summary.limit else []) ++
    if summary.password = [] then [] else ascii "\\key\\1"

/-- `Peer::GetListUserCount`. -/
def getListUserCount (summary : ChannelSummary) : Nat :=
  if viewer.peer.hasPrivilege operInvisible then summary.users.length
  else (summary.users.filter fun user => !hasFlag user.modeflags invisible).length

/-- `OnListChannels` lists a channel. -/
def listShows (summary : ChannelSummary) : Bool :=
  (viewer.peer.hasPrivilege operOverride ||
      !hasFlag summary.basicModeFlags (privateChannel ||| secret) ||
      viewer.peer.inChannel summary.channelId) &&
    (getListUserCount viewer summary != 0 || hasFlag summary.basicModeFlags stayOpen)

/-- `OnListChannels`. -/
def onListChannels (specialInfo : Bool) (summaries : List ChannelSummary) : List Bytes :=
  sendNumeric env viewer 321 (ascii "Channel :Users Name") true [] true ::
    ((summaries.filter (listShows viewer)).map fun summary =>
      sendNumeric env viewer 322 (summary.channelName ++
        char ' ' :: printNat (getListUserCount viewer summary) ++ ascii " :" ++
        if specialInfo then getChannelSpecialInfo summary else summary.topic) true [] true) ++
    [sendNumeric env viewer 323 (ascii "End of /LIST") false [] true]

/-- The mask of a LIST is the name of a group, or matches the name of a channel. -/
def listMatches (mask group name : Bytes) : Bool :=
  mask == group || match2 (char '*') (cString mask) (cString name) == 0

/-- `ChanPropsToChannelSummary`. -/
def chanPropsToChannelSummary (record : ChanpropsRecord) : ChannelSummary :=
  { ChannelSummary.empty with
    channelName := record.channelMask
    topic := record.topic
    limit := record.limit
    basicModeFlags := record.modeflags
    password := record.password }

/-- `AppendNonExistentPersistentChannels`. -/
def Backing.nonExistentChannels (mask : Bytes) : List ChannelSummary :=
  (backing.persistent.filter fun record =>
    listMatches mask record.groupname record.channelMask).map chanPropsToChannelSummary

/-- A key of the scan stands for a channel that is to be listed. -/
def Backing.listedChannel (mask key : Bytes) : Option ChannelSummary :=
  if key.length ≤ 12 then none
  else
    let summary := backing.channel env (key.drop 12)
    let group := ((backing.channelKeys summary.channelId).field (ascii "groupname")).getD []
    if summary.channelId ≠ 0 ∧ listMatches mask group summary.channelName then some summary
    else none

/-- The loop of `ListChannels` over the replies of the scan. -/
def Backing.listLoop (mask : Bytes) (limit : BitVec 32) :
    List (Option (List Bytes)) → List ChannelSummary → List ChannelSummary
  | [], channels => channels ++ backing.nonExistentChannels mask
  | none :: _, channels => channels
  | some keys :: replies, channels =>
      let channels := channels ++ keys.filterMap (backing.listedChannel env mask)
      if channels.length < MachineInt.sizeT limit.toInt ∨ limit = 0 then
        listLoop mask limit replies channels
      else channels ++ backing.nonExistentChannels mask

/-- The mask and the `k` of a LIST: the `k` is the last argument, the mask the first other one. -/
def listArguments (arguments : List Bytes) : Bytes × Bool :=
  if arguments.getLast? = some (ascii "k") then (arguments.dropLast.head?.getD (ascii "*"), true)
  else (arguments.head?.getD (ascii "*"), false)

/-- `LIST`: `handle_list` sets no limit. -/
def replyList (arguments : List Bytes) : List Bytes :=
  onListChannels env viewer (listArguments arguments).2
    (backing.listLoop env (listArguments arguments).1 0 backing.channelNames [])

/-- What is put around a text does not hide it. -/
theorem send_numeric_inj {env : Environment} {viewer : Viewer} {num : Nat} {str other : Bytes}
    {noColon : Bool} {targetName : Bytes}
    {appendName : Bool} :
    sendNumeric env viewer num str noColon targetName appendName =
      sendNumeric env viewer num other noColon targetName appendName ↔ str = other := by
  simp [sendNumeric]

section Lists

variable {env viewer backing} {other : Backing} {mask : Bytes} {β : Type*}
  {view : ChannelSummary → β}

/-- Where the channels of a name look alike, a key of the scan stands for channels that look
alike. -/
theorem listed_channel_map {key : Bytes}
    (hview : view (backing.channel env (key.drop 12)) = view (other.channel env (key.drop 12)))
    (hid : (backing.channel env (key.drop 12)).channelId =
      (other.channel env (key.drop 12)).channelId)
    (hname : (backing.channel env (key.drop 12)).channelName =
      (other.channel env (key.drop 12)).channelName)
    (hkeys : backing.channelKeys = other.channelKeys) :
    (backing.listedChannel env mask key).map view = (other.listedChannel env mask key).map view := by
  unfold Backing.listedChannel
  by_cases hlength : key.length ≤ 12
  · rw [if_pos hlength, if_pos hlength]
  · rw [if_neg hlength, if_neg hlength]
    simp only [hid, hname, hkeys]
    split
    · exact congrArg some hview
    · rfl

/-- The loop over the scan then finds channels that look alike. -/
theorem list_loop_map
    (hlisted : ∀ key, (backing.listedChannel env mask key).map view =
      (other.listedChannel env mask key).map view)
    (hpersistent : (backing.nonExistentChannels mask).map view =
      (other.nonExistentChannels mask).map view)
    (limit : BitVec 32) (replies : List (Option (List Bytes)))
    {channels others : List ChannelSummary} (h : channels.map view = others.map view) :
    (backing.listLoop env mask limit replies channels).map view =
      (other.listLoop env mask limit replies others).map view := by
  induction replies generalizing channels others with
  | nil => rw [Backing.listLoop, Backing.listLoop, List.map_append, List.map_append, h, hpersistent]
  | cons reply replies ih =>
      cases reply with
      | none => exact h
      | some keys =>
          have hpage : (channels ++ keys.filterMap (backing.listedChannel env mask)).map view =
              (others ++ keys.filterMap (other.listedChannel env mask)).map view := by
            rw [List.map_append, List.map_append, h, List.map_filterMap, List.map_filterMap]
            simp only [hlisted]
          have hlength := congrArg List.length hpage
          rw [List.length_map, List.length_map] at hlength
          simp only [Backing.listLoop, hlength]
          split
          · exact ih hpage
          · rw [List.map_append, hpage, hpersistent, ← List.map_append]

end Lists

/-- `Perform_GetChannelKeys_HandleOverrides`. -/
def handleOverrides (summary : ChannelSummary) (name : Bytes) : Option Bytes :=
  if name = ascii "topic" then some summary.topic
  else if name = ascii "limit" then some (printBits summary.limit)
  else if name = ascii "key" then some (if summary.password = [] then ascii "0" else ascii "1")
  else none

/-- `Perform_GetChannelKeys_InjectOverrides`. -/
def injectOverrides (summary : ChannelSummary) (searchString : Bytes) : Bytes :=
  [ascii "topic", ascii "limit", ascii "key"].flatMap fun key =>
    if matchMask (cString searchString) key = 0 then
      char '\\' :: key ++ char '\\' :: (handleOverrides summary key).getD []
    else []

/-- The fields of the replies of a scan, and `behind` unless a reply is missing. -/
def scanText (behind : Bytes) : List (Option (List (Bytes × Bytes))) → Bytes
  | [] => behind
  | none :: _ => []
  | some fields :: replies => kvString fields ++ scanText behind replies

/-- `Handle_GetChannelKeys_LookupWildcard`: all keys, whatever is searched for. -/
def lookupChannelWildcard (summary : ChannelSummary) (searchString : Bytes) : Bytes :=
  scanText (injectOverrides summary searchString)
    ((backing.channelKeys summary.channelId).scan (ascii "*"))

/-- A key without a star is looked up. -/
def plainKey (key : Bytes × Bytes) : Bool :=
  !key.1.contains (char '*')

/-- The two texts of `Perform_GetChannelKeys`. -/
def channelKeyTexts (summary : ChannelSummary) (keys : List (Bytes × Bytes)) : Bytes × Bytes :=
  ((keys.filter plainKey).flatMap fun key => char '\\' :: key.1 ++ char '\\' ::
      ((handleOverrides summary key.1).or
        ((backing.channelKeys summary.channelId).field (cString key.1))).getD [],
    (keys.filter fun key => !plainKey key).flatMap fun key =>
      lookupChannelWildcard backing summary key.1)

/-- `Perform_GetChannelKeys` and `OnGetChanKey`. -/
def onGetChanKey (numeric kvText : Bytes) (summary : ChannelSummary) : List Bytes :=
  let texts :=
    if summary.channelId ≠ 0 then channelKeyTexts backing summary (requestedKeys kvText)
    else ([], [])
  [sendNumeric env viewer 704 (summary.channelName ++ char ' ' :: numeric ++ ascii " :" ++
    kvValues (kvReader texts.1) ++ kvString (kvReader texts.2)) true [] true]

/-- The keys of one user in `Handle_GetChannelUserKeys_AllUsers`. -/
def userKeyTexts (channelId : BitVec 32) (userId : Int) (keys : List (Bytes × Bytes)) :
    Bytes × Bytes :=
  ((keys.filter plainKey).flatMap fun key => char '\\' :: key.1 ++ char '\\' ::
      ((backing.channelUserKeys channelId userId).field (cString key.1)).getD [],
    (keys.filter fun key => !plainKey key).flatMap fun key =>
      scanText [] ((backing.strayUserKeys channelId userId).scan (cString key.1)))

/-- `OnGetCKey` for a user of the channel. -/
def onGetCKey (summary : ChannelSummary) (numeric : Bytes) (keys : List (Bytes × Bytes))
    (user : ChannelUserSummary) : List Bytes :=
  let texts := userKeyTexts backing summary.channelId user.userId keys
  if memberHidden viewer (viewer.peer.hasPrivilege operInvisible) summary.basicModeFlags user
  then []
  else [sendNumeric env viewer 702 (user.userSummary.nick ++ char ' ' :: numeric ++ ascii " :" ++
    kvValues (kvReader texts.1) ++ kvString (kvReader texts.2)) true summary.channelName true]

/-- `GETCKEY` of all users: `Handle_GetChannelUserKeys_AllUsers` calls `OnGetCKey` for each, and
the call for the last one ends the list. -/
def replyGetCKeyAll (numeric kvText : Bytes) (summary : ChannelSummary) : List Bytes :=
  if summary.channelId = 0 ∨ summary.users = [] then []
  else
    summary.users.flatMap (onGetCKey env viewer backing summary numeric (requestedKeys kvText)) ++
      [sendNumeric env viewer 703 (numeric ++ ascii " :End of GETCKEY") true
        summary.channelName true]

end Queries

/-- How a message names a user. A summary is sent as a text and read again where it arrives. -/
inductive Sender where
  | userId (id : Int)
  | summary (text : Bytes)
  deriving DecidableEq, Repr

/-- A message to a channel. -/
structure ChannelMessage where
  type : Bytes
  toChannelId : BitVec 32
  source : Sender
  message : Bytes
  target : Option Sender
  includeSelf : Bool
  requiredChanUserModes : BitVec 32
  requiredOperFlags : BitVec 32
  onlyVisibleTo : Int

/-- A message of a type, without the fields that most messages leave out. -/
def ChannelMessage.plain (type : Bytes) (toChannelId : BitVec 32) (source : Sender)
    (message : Bytes) : ChannelMessage :=
  ⟨type, toChannelId, source, message, none, true, 0, 0, 0⟩

/-- A message to all who share a channel with a user, with his flags in each channel. -/
structure UserBroadcast where
  type : Bytes
  source : Sender
  channels : List (BitVec 32 × BitVec 32)
  message : Bytes
  includeSelf : Bool

/-- What the tasks publish. -/
inductive Published where
  | channelMessage (message : ChannelMessage)
  | userBroadcast (broadcast : UserBroadcast)
  | setChannelUserKeys (channelId : BitVec 32) (userId : Int) (keys : Bytes)
  | setChannelKeys (channelId : BitVec 32) (keys : Bytes)

/-- What comes to a peer: a packet, or the request for the events that follow its own JOIN. -/
inductive Received where
  | packet (data : Bytes)
  | joinEvents (channelId : BitVec 32)
  deriving DecidableEq, Repr

section Deliveries

variable (env : Environment) (viewer : Viewer) (store : ChannelStore)

/-- The user of a message, as it is handled. -/
def Sender.resolve : Sender → UserSummary
  | userId id => lookupUserById env store id
  | summary text => UserSummary.ofString env.unset text

/-- The messages that go out whether or not their sender is invisible. -/
def allowedThrough : List Bytes :=
  [ascii "NOTICE", ascii "MODE", ascii "TOPIC", ascii "KICK"]

/-- The tests of `LLIterator_OnChannelMessage` for a peer. A PART is for the user himself, too,
who is not in the channel any more. -/
def channelMessageReaches (message : ChannelMessage) : Bool :=
  let source := message.source.resolve env store
  let flags := viewer.peer.channelFlags message.toChannelId
  let own := source.id == viewer.peer.details.id
  (allowedThrough.contains message.type ||
      !hasFlag (lookupUserChannelModeFlags store message.toChannelId source.id) invisible ||
      viewer.peer.hasPrivilege operInvisible) &&
    ((hasFlag flags isInChannel &&
        (hasFlag flags message.requiredChanUserModes || message.requiredChanUserModes == 0)) ||
      (own && message.type == ascii "PART")) &&
    (message.includeSelf || !own) &&
    (viewer.peer.hasPrivilege message.requiredOperFlags || message.requiredOperFlags == 0)

/-- `Handle_PrivMsg` for a channel, and `LLIterator_OnChannelMessage`. -/
def onChannelMessage (message : ChannelMessage) : List Received :=
  let source := message.source.resolve env store
  let target := message.target.elim UserSummary.empty (·.resolve env store)
  if message.toChannelId ≠ 0 ∧ channelMessageReaches env viewer store message then
    (if message.onlyVisibleTo = 0 ∨ message.onlyVisibleTo = viewer.peer.details.id then
      (sendMessage env viewer message.type message.message source
        (lookupChannelById env store message.toChannelId).channelName target.nick
        (message.type == ascii "MODE")).map .packet
    else []) ++
    if message.type = ascii "JOIN" ∧ source.id = viewer.peer.details.id then
      [.joinEvents message.toChannelId]
    else []
  else []

/-- `LLIterator_OnChannelBroadcast` finds a channel that the peer shares with the user. -/
def sharesChannel (channels : List (BitVec 32 × BitVec 32)) : Bool :=
  channels.any fun channel => viewer.peer.inChannel channel.1 &&
    (!hasFlag channel.2 invisible || viewer.peer.hasPrivilege operInvisible)

/-- `Handle_Broadcast` and `LLIterator_OnChannelBroadcast`. -/
def onChannelBroadcast (broadcast : UserBroadcast) : List Received :=
  let target := broadcast.source.resolve env store
  if (broadcast.includeSelf ∧ viewer.peer.details.id = target.id) ∨
      sharesChannel viewer broadcast.channels then
    (sendMessage env viewer broadcast.type broadcast.message target [] [] false).map .packet
  else []

/-- A message is handled: `Handle_PrivMsg`, `Handle_Broadcast` and `Handle_KeyUpdates`. -/
def deliver : Published → List Received
  | .channelMessage message => onChannelMessage env viewer store message
  | .userBroadcast broadcast => onChannelBroadcast env viewer store broadcast
  | .setChannelUserKeys channelId userId keys =>
      let summary := lookupChannelById env store channelId
      if viewer.peer.inChannel channelId then
        [.packet (sendNumeric env viewer 702 (summary.channelName ++ char ' ' ::
          (lookupUserById env store userId).nick ++ ascii " BCAST :" ++ kvString (kvReader keys))
          true summary.channelName false)]
      else []
  | .setChannelKeys channelId keys =>
      let summary := lookupChannelById env store channelId
      if viewer.peer.inChannel channelId then
        [.packet (sendNumeric env viewer 704 (summary.channelName ++ ascii " BCAST :" ++
          kvString (kvReader keys)) true summary.channelName false)]
      else []

end Deliveries

end OpenSpy.Peerchat
