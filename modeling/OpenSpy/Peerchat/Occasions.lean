import OpenSpy.Peerchat.UserKeys

/-!
# Occasions

A member whose flags contain `EUserChannelFlag_Invisible` is hidden from all peers without the
privilege to see him. An occasion is a query of such a peer, or something that the member does or
that is done to him. Below is what the peer is sent on each occasion, while he is a member and while
he is not, and when he shows.
-/

namespace OpenSpy.Peerchat

open Bytes Redis UserChannelFlag ChannelMode ChannelStore

/-- A user is not in a channel, and has no hash for it. -/
def Backing.withoutMember (backing : Backing) (channelId : BitVec 32) (userId : Int) : Backing :=
  { backing with
    store := removeMember backing.store userId channelId 0
    userHashes := Function.update backing.userHashes userId
      (zrem (backing.userHashes userId) channelId) }

section Published

variable (env : Environment)

/-- The text of a summary, as `ToBase64String` encodes it with the id. -/
def sentSummary (details : UserSummary) : Sender :=
  .summary (details.toString true)

/-- A message that is for peers with the flag `EUserChannelFlag_Invisible` if the user whom it is
about has it. -/
def hiddenMessage (modeflags : BitVec 32) (message : ChannelMessage) : Published :=
  .channelMessage
    { message with requiredChanUserModes := if hasFlag modeflags invisible then invisible else 0 }

/-- The notice about an invisible user. -/
def invisibleNotice (modeflags : BitVec 32) (channelId : BitVec 32) (details : UserSummary)
    (event : Bytes) : List Published :=
  if hasFlag modeflags invisible then
    [hiddenMessage modeflags (.plain (ascii "NOTICE") channelId (sentSummary details)
      (ascii "INVISIBLE USER " ++ details.nick ++ event))]
  else []

/-- What `Perform_UserPartChannel` publishes. -/
def partPublished (peer : ChatPeer) (channelName message : Bytes) (store : ChannelStore) :
    List Published :=
  let channel := getChannelSummaryByName env store channelName
  let fromModeFlags := lookupUserChannelModeFlags store channel.channelId peer.details.id
  if channel.channelId ≠ 0 ∧ hasFlag fromModeFlags isInChannel then
    invisibleNotice fromModeFlags channel.channelId peer.details (ascii " PARTED CHANNEL") ++
      [hiddenMessage fromModeFlags
        (.plain (ascii "PART") channel.channelId (sentSummary peer.details) message)]
  else []

/-- What `Perform_UserKickChannel` publishes. -/
def kickPublished (kicker : ChatPeer) (channelName target message : Bytes) (store : ChannelStore) :
    List Published :=
  let channel := getChannelSummaryByName env store channelName
  let toSummary := getUserSummaryByName env store target
  let fromModeFlags := lookupUserChannelModeFlags store channel.channelId kicker.details.id
  let toModeFlags := lookupUserChannelModeFlags store channel.channelId toSummary.id
  if checkActionPermissions kicker fromModeFlags toModeFlags halfOp ∧ toSummary.id ≠ 0 then
    invisibleNotice toModeFlags channel.channelId toSummary (ascii " KICKED FROM CHANNEL") ++
      [hiddenMessage toModeFlags
        { ChannelMessage.plain (ascii "KICK") channel.channelId (sentSummary kicker.details)
            message with
          target := some (sentSummary toSummary) }]
  else []

/-- The JOIN that `AddUserToChannel` publishes. -/
def joinMessage (peer : ChatPeer) (channelId : BitVec 32) : ChannelMessage :=
  .plain (ascii "JOIN") channelId (sentSummary peer.details) []

/-- The flags in `Perform_UserJoinEvents`: those that the peer remembers, and those that its
privileges give it. -/
def initialFlags (peer : ChatPeer) (channelId : BitVec 32) : BitVec 32 :=
  peer.channelFlags channelId ||| (if peer.hasPrivilege globalOwner then owner else 0) |||
    if peer.hasPrivilege getVoice then voice else 0

/-- What `Perform_UserJoinEvents` publishes to the channel. -/
def joinEventsPublished (peer : ChatPeer) (channelId : BitVec 32) (store : ChannelStore) :
    List Published :=
  let flags := initialFlags peer channelId
  let requiredOperFlags := if hasFlag flags invisible then operInvisible else 0
  let entrymsg := (lookupChannelById env store channelId).entrymsg
  let fromServer (type message : Bytes) : Published := .channelMessage
    { ChannelMessage.plain type channelId (.userId (-1)) message with
      requiredOperFlags := requiredOperFlags }
  (if hasFlag flags invisible then
    [fromServer (ascii "NOTICE")
      (ascii "INVISIBLE USER " ++ peer.details.nick ++ ascii " JOINED CHANNEL")]
  else []) ++
  (if hasFlag flags voice then [fromServer (ascii "MODE") (ascii "+v " ++ peer.details.nick)]
  else []) ++
  (if hasFlag flags (halfOp ||| op ||| owner) then
    [fromServer (ascii "MODE") (ascii "+o " ++ peer.details.nick)]
  else []) ++
  if entrymsg = [] then []
  else [.channelMessage
    { ChannelMessage.plain (ascii "NOTICE") channelId (sentSummary (serverUserSummary env))
        entrymsg with
      onlyVisibleTo := peer.details.id }]

/-- What is published on the JOIN of a peer: the events follow when it gets its own JOIN. -/
def joinPublished (peer : ChatPeer) (channelId : BitVec 32) (store : ChannelStore) :
    List Published :=
  .channelMessage (joinMessage peer channelId) ::
    if .joinEvents channelId ∈ onChannelMessage env ⟨peer, []⟩ store (joinMessage peer channelId)
    then joinEventsPublished env peer channelId store
    else []

/-- `CheckUserCanSendMessage`. -/
def checkUserCanSendMessage (channel : ChannelSummary) (peer : ChatPeer) : Bool :=
  let chanUserFlags := peer.channelFlags channel.channelId
  if hasFlag channel.basicModeFlags moderated ∧
      !hasFlag chanUserFlags (voice ||| halfOp ||| op ||| owner) then false
  else if hasFlag channel.basicModeFlags noOutsideMessages ∧ !hasFlag chanUserFlags isInChannel then
    false
  else !hasFlag chanUserFlags gagged

/-- What `Perform_SendMessageToTarget` publishes for a channel. -/
def privmsgPublished (peer : ChatPeer) (channelName message : Bytes) (store : ChannelStore) :
    List Published :=
  let summary := getChannelSummaryByName env store channelName
  if summary.channelId ≠ 0 ∧ checkUserCanSendMessage summary peer then
    [.channelMessage
      { ChannelMessage.plain (ascii "PRIVMSG") summary.channelId (.userId peer.details.id)
          message with
        includeSelf := false }]
  else []

/-- The channels of a QUIT or NICK, with the flags that the peer remembers. `known` are the keys of
its map. -/
def broadcastChannels (peer : ChatPeer) (known : List (BitVec 32)) :
    List (BitVec 32 × BitVec 32) :=
  known.map fun channelId => (channelId, peer.channelFlags channelId)

/-- `send_quit` names the channels that the peer is in. -/
def quitBroadcast (peer : ChatPeer) (known : List (BitVec 32)) (reason : Bytes) : UserBroadcast :=
  ⟨ascii "QUIT", sentSummary peer.details, broadcastChannels peer (known.filter peer.inChannel),
    reason, true⟩

/-- `SendNickUpdate` names all channels that the peer knows. -/
def nickBroadcast (peer : ChatPeer) (known : List (BitVec 32)) (newNick : Bytes) : UserBroadcast :=
  ⟨ascii "NICK", sentSummary peer.details, broadcastChannels peer known, newNick, true⟩

end Published

/-- An occasion on which a member may show: a query of the viewer, or what the member does or what
is done to him. -/
inductive Occasion where
  | names (name : Bytes)
  | who (target : Bytes)
  | list (arguments : List Bytes)
  | getCKey (channelTarget numeric kvText : Bytes)
  | whois (name : Bytes)
  | join
  | part (channelName message : Bytes)
  | kick (kicker : ChatPeer) (channelName target message : Bytes)
  | quit (known : List (BitVec 32)) (reason : Bytes)
  | nick (known : List (BitVec 32)) (newNick : Bytes)
  | privmsg (channelName message : Bytes)
  | setCKey (channelTarget userTarget kvText : Bytes)

section Seen

variable (env : Environment) (viewer : Viewer) (member : ChatPeer) (channelId : BitVec 32)

/-- What the viewer is sent for a query. -/
def answer (backing : Backing) : Occasion → List Bytes
  | .names name => onNamesFetchChannelInfo env viewer (backing.channel env name)
  | .who target => replyWho env viewer backing target
  | .list arguments => replyList env viewer backing arguments
  | .getCKey channelTarget numeric kvText =>
      replyGetCKeyAll env viewer backing numeric kvText (backing.channel env channelTarget)
  | .whois name => replyWhois env viewer backing name
  | _ => []

/-- What the viewer is sent for an event. Messages about a membership that has ended are handled in
the store behind the task. -/
def eventSeen (store : ChannelStore) : Occasion → List Received
  | .join => (joinPublished env member channelId store).flatMap (deliver env viewer store)
  | .part channelName message =>
      (partPublished env member channelName message store).flatMap
        (deliver env viewer (performUserPartChannel env member channelName store).1)
  | .kick kicker channelName target message =>
      (kickPublished env kicker channelName target message store).flatMap
        (deliver env viewer (performUserKickChannel env kicker channelName target store).1)
  | .quit known reason =>
      deliver env viewer store (.userBroadcast (quitBroadcast member known reason))
  | .nick known newNick =>
      deliver env viewer store (.userBroadcast (nickBroadcast member known newNick))
  | .privmsg channelName message =>
      (privmsgPublished env member channelName message store).flatMap (deliver env viewer store)
  | .setCKey channelTarget userTarget kvText =>
      (performSetChannelUserKeys env member channelTarget userTarget kvText
        (.ofStore store)).2.flatMap (deliver env viewer store)
  | _ => []

/-- What the viewer is sent. -/
def seen (backing : Backing) (occasion : Occasion) : List Received :=
  (answer env viewer backing occasion).map .packet ++
    eventSeen env viewer member channelId backing.store occasion

/-- The event is one of the membership in the channel. -/
def Occasion.OfMembership (store : ChannelStore) : Occasion → Prop
  | join => True
  | part channelName _ | privmsg channelName _ | setCKey channelName _ _ =>
      (getChannelSummaryByName env store channelName).channelId = channelId
  | kick _ channelName target _ =>
      (getChannelSummaryByName env store channelName).channelId = channelId ∧
        (getUserSummaryByName env store target).id = member.details.id
  | _ => False

instance (store : ChannelStore) :
    (occasion : Occasion) → Decidable (occasion.OfMembership env member channelId store)
  | .join => inferInstanceAs (Decidable True)
  | .part .. | .privmsg .. | .setCKey .. => inferInstanceAs (Decidable (_ = _))
  | .kick .. => inferInstanceAs (Decidable (_ ∧ _))
  | .names _ | .who _ | .list _ | .getCKey .. | .whois _ | .quit .. | .nick .. =>
      inferInstanceAs (Decidable False)

/-- An event without the channel, as it is for a user who is not a member. -/
def Occasion.withoutChannel : Occasion → Occasion
  | quit known reason => quit (known.filter (· ≠ channelId)) reason
  | nick known newNick => nick (known.filter (· ≠ channelId)) newNick
  | occasion => occasion

/-- What the viewer is sent if the user is not a member: the events of his membership do not take
place. -/
def seenWithout (backing : Backing) (occasion : Occasion) : List Received :=
  let without := backing.withoutMember channelId member.details.id
  (answer env viewer without occasion).map .packet ++
    if occasion.OfMembership env member channelId backing.store then []
    else eventSeen env viewer member channelId without.store (occasion.withoutChannel channelId)

end Seen

/-- The member is in the channel, and hidden there. -/
structure HiddenMember (store : ChannelStore) (member : ChatPeer) (channelId : BitVec 32) :
    Prop where
  channel : channelId ≠ 0
  user : member.details.id ≠ 0
  isMember : store.IsMember channelId member.details.id
  isInvisible : hasFlag (lookupUserChannelModeFlags store channelId member.details.id) invisible

/-- The viewer is somebody else, who must not see hidden members. -/
structure Ordinary (viewer : Viewer) (member : ChatPeer) (channelId : BitVec 32) : Prop where
  other : viewer.peer.details.id ≠ member.details.id
  privilege : viewer.peer.hasPrivilege operInvisible = false
  flag : hasFlag (viewer.peer.channelFlags channelId) invisible = false

section Shown

variable (env : Environment) (viewer : Viewer) (member : ChatPeer) (channelId : BitVec 32)

/-- The member as the receiver of his summary takes him. -/
def decoded : UserSummary :=
  UserSummary.ofString env.unset (member.details.toString true)

/-- A QUIT or NICK reaches the viewer for this channel and no other. -/
def BroadcastShows (known : List (BitVec 32)) : Prop :=
  channelId ∈ known ∧ viewer.peer.inChannel channelId ∧
    ¬ hasFlag (member.channelFlags channelId) invisible ∧
    (decoded env member).id ≠ viewer.peer.details.id ∧
    ¬ sharesChannel viewer (broadcastChannels member (known.filter (· ≠ channelId))) ∧
    ¬ viewer.peer.isQuiet

/-- The JOIN itself reaches the viewer: the user whom the summary stands for is not hidden. -/
def JoinShows (store : ChannelStore) : Prop :=
  ¬ hasFlag (lookupUserChannelModeFlags store channelId (decoded env member).id) invisible ∧
    (viewer.peer.isQuiet → (decoded env member).id = viewer.peer.details.id)

/-- The member gets his own JOIN and asks for the events, and his rank is told without the flag
`Invisible`, which he has in the store, but does not remember. -/
def RankShows (store : ChannelStore) : Prop :=
  member.inChannel channelId ∧ (decoded env member).id = member.details.id ∧
    (hasFlag (lookupUserChannelModeFlags store channelId (decoded env member).id) invisible →
      member.hasPrivilege operInvisible) ∧
    ¬ hasFlag (initialFlags member channelId) invisible ∧
    hasFlag (initialFlags member channelId) (voice ||| (halfOp ||| op ||| owner)) ∧
    ¬ viewer.peer.isQuiet

/-- The member kicks somebody else, who is not hidden, because of his rank in the channel. -/
def KickShows (kicker : ChatPeer) (channelName target : Bytes) (store : ChannelStore) : Prop :=
  (getChannelSummaryByName env store channelName).channelId = channelId ∧
    kicker.details.id = member.details.id ∧
    (getUserSummaryByName env store target).id ≠ member.details.id ∧
    KickAccepted env kicker channelName target store ∧ ¬ kicker.hasPrivilege operOverride ∧
    ¬ hasFlag (lookupUserChannelModeFlags store channelId (getUserSummaryByName env store target).id)
      invisible ∧ viewer.peer.inChannel channelId ∧ ¬ viewer.peer.isQuiet

/-- The member shows. -/
def Occasion.Shows (backing : Backing) : Occasion → Prop
  | getCKey channelTarget _ _ =>
      (backing.channel env channelTarget).channelId = channelId ∧
        (backing.channel env channelTarget).users ≠ [] ∧
        ∀ user ∈ (backing.channel env channelTarget).users, user.userId = member.details.id
  | whois name =>
      (getUserSummaryByName env backing.store name).id = member.details.id ∧
        channelId ∈ backing.userHashes member.details.id ∧
        whoisShows viewer (lookupChannelById env backing.store channelId)
  | join => viewer.peer.inChannel channelId ∧
      (JoinShows env viewer member channelId backing.store ∨
        RankShows env viewer member channelId backing.store)
  | part channelName _ =>
      (getChannelSummaryByName env backing.store channelName).channelId = channelId ∧
        (decoded env member).id = viewer.peer.details.id ∧
        ¬ hasFlag (lookupUserChannelModeFlags backing.store channelId viewer.peer.details.id)
          invisible ∧ ¬ viewer.peer.isQuiet
  | quit known _ => BroadcastShows env viewer member channelId (known.filter member.inChannel)
  | nick known _ => BroadcastShows env viewer member channelId known
  | privmsg channelName _ =>
      (getChannelSummaryByName env backing.store channelName).channelId = channelId ∧
        checkUserCanSendMessage (getChannelSummaryByName env backing.store channelName) member ∧
        viewer.peer.inChannel channelId ∧
        (lookupUserById env backing.store member.details.id).id ≠ viewer.peer.details.id ∧
        ¬ hasFlag (lookupUserChannelModeFlags backing.store channelId
          (lookupUserById env backing.store member.details.id).id) invisible ∧
        ¬ viewer.peer.isQuiet
  | kick kicker channelName target _ =>
      KickShows env viewer member channelId kicker channelName target backing.store
  | setCKey channelTarget userTarget kvText =>
      (∃ userId, setCKeyTarget env member channelTarget userTarget backing.store =
        some (channelId, userId)) ∧ broadcastKeys kvText ≠ [] ∧ viewer.peer.inChannel channelId
  | _ => False

end Shown

end OpenSpy.Peerchat
