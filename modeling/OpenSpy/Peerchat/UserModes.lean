import OpenSpy.Peerchat.ChannelModes
import OpenSpy.Peerchat.NickTasks
import OpenSpy.Peerchat.UserKeys

/-!
# The modes of users

The modes of a user are a word that his peer has in `m_user_details` and that is in his hash in the
store. `SetUserDetails`, MODE for a nick and SETKEY read and write these, and `LookupGlobalUsermode`
may gag a user when he registers. Such a task reads, writes and calls back, one at a time, so that
the tasks of all peers can go on in any order. The tasks about channels are done at once.
-/

namespace OpenSpy.Peerchat.UserModes

open Bytes MachineInt ChannelStore
open NickTasks (Callback)

/-- A peer that is connected: `m_user_details`, what `getAddress` answers, `m_sent_client_init` and
`m_delete_flag`. -/
structure Peer where
  details : UserSummary
  address : IPv4
  sentClientInit : Bool
  deleted : Bool

/-- The modes of a user as bits. -/
def modeBits (summary : UserSummary) : BitVec 32 :=
  BitVec.ofInt 32 summary.modeflags

/-- `user_mode_flag_map`. -/
def userModeFlagMap : List (UInt8 × BitVec 32) :=
  [(char 'q', quietUser), (char 'i', invisibleUser), (char 'g', gaggedUser)]

/-- The locals of the loop over the mode string of a user. -/
structure UserModeParser where
  set : Bool
  setFlags : BitVec 32
  unsetFlags : BitVec 32

/-- One character of the mode string. -/
def parseUserMode (parser : UserModeParser) (mode : UInt8) : UserModeParser :=
  if mode = char '+' then { parser with set := true }
  else if mode = char '-' then { parser with set := false }
  else
    match userModeFlagMap.lookup mode with
    | none => parser
    | some flag =>
        if parser.set then
          { parser with
            setFlags := parser.setFlags ||| flag
            unsetFlags := parser.unsetFlags &&& ~~~flag }
        else
          { parser with
            unsetFlags := parser.unsetFlags ||| flag
            setFlags := parser.setFlags &&& ~~~flag }

/-- The loop of `handle_user_mode_command`. -/
def parseUserModes (modeString : Bytes) : UserModeParser :=
  modeString.foldl parseUserMode ⟨true, 0, 0⟩

/-- One turn of the loop of `Perform_UpdateUserModes`. -/
def updateUserMode (setFlags unsetFlags modeflags flag : BitVec 32) : BitVec 32 :=
  let given :=
    if hasFlag setFlags flag ∧ hasFlag (~~~modeflags) flag then modeflags ||| flag else modeflags
  if hasFlag unsetFlags flag ∧ hasFlag given flag then given &&& ~~~flag else given

/-- The loop of `Perform_UpdateUserModes`. -/
def updateUserModes (setFlags unsetFlags modeflags : BitVec 32) : BitVec 32 :=
  userModeFlagMap.foldl (fun modeflags item =>
    updateUserMode setFlags unsetFlags modeflags item.2) modeflags

/-- The requests whose tasks read or write modes. -/
inductive Request where
  | setUserDetails (summary : UserSummary) (callback : Callback)
  | updateUserModes (setFlags unsetFlags : BitVec 32)
  | setUserKeys (username kvText : Bytes)
  | lookupGlobalUsermode

/-- What a task does next: it starts, or has read the details of its peer or the record of a user,
or calls back with a summary, and with whether the nick is in use, or with the answer of the web
service. -/
inductive Control where
  | start
  | detailsRead (userDetails : UserSummary) (id : Int)
  | found (summary : UserSummary)
  | response (inUse : Bool) (summary : UserSummary)
  | usermode (modeflags : BitVec 32)
  | done

/-- A task: the number of its peer, its request, and where it is. -/
structure Task where
  peer : Nat
  request : Request
  control : Control

/-- The store, with `PEERCHATID`, the peers and the tasks. -/
structure State where
  keys : KeyState
  peerchatId : Int
  peers : List Peer
  tasks : List Task

/-- An empty database. -/
def State.init : State :=
  ⟨⟨withUsers (fun _ => none) fun _ => none, fun _ _ => none, fun _ _ _ => none⟩, 0, [], []⟩

/-- The commands of `Perform_SetUserDetails` for a new nick. -/
def updateNick (originalNick : Bytes) (id : Int) (nick : Bytes) (keys : KeyState) : KeyState :=
  { keys with
    store :=
      { keys.store with
        usernick := Function.update
          (Function.update keys.store.usernick (nickKey originalNick) none) (nickKey nick) (some id)
        user := Function.update keys.store.user id
          (some { (keys.store.user id).getD .empty with nick := cString nick }) } }

/-- The commands of `Perform_SetUserDetails` for the nick that the user has. -/
def keepNick (originalNick : Bytes) (id : Int) (summary : UserSummary) (keys : KeyState) :
    KeyState :=
  let applied := keys.applyUserKeys true summary
  if summary.nick.length ≠ 0 then
    { applied with
      store :=
        { applied.store with
          usernick := Function.update
            (Function.update applied.store.usernick (nickKey originalNick) none)
            (nickKey summary.nick) (some id) } }
  else applied

/-- `HSET user_<id> modeflags`. -/
def setModeflags (summary : UserSummary) (keys : KeyState) : KeyState :=
  { keys with
    store :=
      { keys.store with
        user := Function.update keys.store.user summary.id
          (some { (keys.store.user summary.id).getD .empty with
            modeflags := summary.modeflags }) } }

namespace State

variable (s : State)

/-- `m_user_details` and the flags of a peer change. -/
def modifyPeer (peer : Nat) (change : Peer → Peer) : State :=
  { s with peers := s.peers.modify peer change }

/-- `AddTaskRequest`. -/
def addTask (peer : Nat) (request : Request) : State :=
  { s with tasks := s.tasks ++ [⟨peer, request, .start⟩] }

/-- `Peer::OnUserMaybeRegistered`. -/
def onUserMaybeRegistered (number : Nat) : State :=
  match s.peers[number]? with
  | none => s
  | some peer =>
      if peer.details.nick.length = 0 ∨ peer.details.username.length = 0 ∨ peer.sentClientInit then
        s
      else
        (s.modifyPeer number fun peer => { peer with sentClientInit := true }).addTask number
          .lookupGlobalUsermode

/-- `OnGetBackendId`, `OnNickReserve` without the numeric and the remote kill, or
`OnUserRegistered`. -/
def onSetUserDetails (number : Nat) (callback : Callback) (inUse : Bool) (summary : UserSummary) :
    State :=
  match callback with
  | .onGetBackendId =>
      s.modifyPeer number fun peer =>
        { peer with details := { peer.details with id := summary.id } }
  | .onNickReserve =>
      if inUse then s
      else
        (s.modifyPeer number fun peer =>
          { peer with
            details := { peer.details with id := summary.id, nick := summary.nick } }
          ).onUserMaybeRegistered number
  | .onUserRegistered => s.modifyPeer number fun peer => { peer with details := summary }
  | .null => s

/-- `Peer::OnLookupGlobalUsermode`. -/
def onLookupGlobalUsermode (number : Nat) (modeflags : BitVec 32) (peer : Peer) : State :=
  if hasFlag modeflags UserChannelFlag.banned then
    s.modifyPeer number fun peer => { peer with deleted := true }
  else
    let details :=
      if hasFlag modeflags UserChannelFlag.gagged then
        { peer.details with modeflags := (modeBits peer.details ||| gaggedUser).toInt }
      else peer.details
    (s.modifyPeer number fun peer => { peer with details := details }).addTask number
      (.setUserDetails details .onUserRegistered)

/-- One step of a task of a peer. The environment holds what the store does not, and the answer of
the web service to a `LookupGlobalUsermode`. -/
def perform (env : Environment) (web : BitVec 32) (number : Nat) (peer : Peer) :
    Request → Control → State × Control
  | .setUserDetails _ _, .start =>
      if peer.details.id ≠ 0 then (s, .detailsRead peer.details peer.details.id)
      else
        ({ s with peerchatId := s.peerchatId + 1 },
          .detailsRead peer.details (int32 (s.peerchatId + 1)))
  | .setUserDetails summary _, .detailsRead userDetails id =>
      -- `EXISTS`, whose reply does not count for the nick that the peer has
      if (s.keys.store.usernick (nickKey summary.nick)).isSome ∧
          summary.nick ≠ userDetails.nick then
        (s, .response true (getUserSummaryByName env s.keys.store (summary.nick.map toLower)))
      else
        let response :=
          { summary with id := id, address := peer.address, hostname := inetNtop peer.address }
        if userDetails.id = 0 ∨ summary.nick ≠ userDetails.nick then
          ({ s with keys := updateNick userDetails.nick id summary.nick s.keys },
            .response false response)
        else
          ({ s with
              keys := keepNick userDetails.nick id { summary with address := peer.address } s.keys },
            .response false { response with nick := userDetails.nick })
  | .setUserDetails _ callback, .response inUse summary =>
      (s.onSetUserDetails number callback inUse summary, .done)
  | .updateUserModes _ _, .start => (s, .found (lookupUserById env s.keys.store peer.details.id))
  | .updateUserModes setFlags unsetFlags, .found summary =>
      let updated :=
        { summary with
          modeflags := (UserModes.updateUserModes setFlags unsetFlags (modeBits summary)).toInt }
      ({ s with keys := setModeflags updated s.keys }, .response false updated)
  | .updateUserModes _ _, .response _ summary =>
      (s.modifyPeer number fun peer =>
        { peer with details := { peer.details with modeflags := summary.modeflags } }, .done)
  | .setUserKeys username _, .start =>
      let userSummary := getUserSummaryByName env s.keys.store username
      (s, if userSummary.id ≠ peer.details.id ∧
          hasFlag (BitVec.ofInt 32 peer.details.operflags) globalOwner = false then .done
        else .found userSummary)
  | .setUserKeys _ kvText, .found userSummary =>
      ({ s with
          keys := (s.keys.setUserKeys userSummary.id (hashPairs kvText)).applyUserKeys true
            userSummary },
        .done)
  | .lookupGlobalUsermode, .start => (s, .usermode web)
  | .lookupGlobalUsermode, .usermode modeflags =>
      (s.onLookupGlobalUsermode number modeflags peer, .done)
  | _, control => (s, control)

/-- The next step of a task. -/
def execute (i : Nat) (env : Environment) (web : BitVec 32) : State :=
  match s.tasks[i]? with
  | none => s
  | some task =>
      match s.peers[task.peer]? with
      | none => s
      | some peer =>
          let (next, control) := s.perform env web task.peer peer task.request task.control
          { next with tasks := next.tasks.set i ⟨task.peer, task.request, control⟩ }

end State

/-- The tasks that have to do with channels, and the deletion of a user. -/
inductive ChannelTask where
  | join (request : JoinRequest)
  | part (channelName : Bytes)
  | kick (channelName target : Bytes)
  | mode (channelName : Bytes) (modify : ChannelModify)
  | setCKey (channelTarget userTarget kvText : Bytes)

/-- Such a task is run to its end. -/
def ChannelTask.run (env : Environment) (peer : ChatPeer) (keys : KeyState) :
    ChannelTask → KeyState
  | join request => performJoin env peer request keys
  | part channelName =>
      { keys with store := (performUserPartChannel env peer channelName keys.store).1 }
  | kick channelName target =>
      { keys with store := (performUserKickChannel env peer channelName target keys.store).1 }
  | mode channelName modify =>
      { keys with store := (performUpdateChannelModes env peer channelName modify keys.store).1 }
  | setCKey channelTarget userTarget kvText =>
      (performSetChannelUserKeys env peer channelTarget userTarget kvText keys).1

/-- The commands that send a message. -/
inductive MessageType where
  | privmsg | notice | utm | atm
  deriving DecidableEq, Repr

/-- A message that is submitted for delivery, with the number of its peer. -/
structure Message where
  peer : Nat
  type : MessageType
  message : Bytes
  target : Bytes
  deriving DecidableEq, Repr

/-- The command table lets only users with an id in, whose registration has begun. -/
def Peer.loggedIn (peer : Peer) : Bool :=
  !peer.deleted && peer.details.id != 0 && peer.sentClientInit

/-- `Peer::handle_message_command`. -/
def handleMessageCommand (number : Nat) (peer : Peer) (type : MessageType) (target message : Bytes)
    (rest : List Bytes) : List Message :=
  let combined :=
    if message.headD 0 = char ':' then
      rest.foldl (fun text word => text ++ char ' ' :: word) (message.drop 1)
    else message
  let isCtcp := combined.length > 0 && !hasFlag (BitVec.ofInt 32 peer.details.operflags) ctcp &&
    combined.headD 0 == 1 && type == .privmsg
  if isCtcp && !(combined.length ≥ 7 && (combined.drop 1).take 6 == ascii "ACTION") then []
  else (getlines (char ',') target).map fun current => ⟨number, type, combined, current⟩

/-- `Peer::handle_privmsg`, `handle_notice`, `handle_utm` and `handle_atm`. -/
def handleMessage (number : Nat) (peer : Peer) (type : MessageType) (target message : Bytes)
    (rest : List Bytes) : List Message :=
  match type with
  | .privmsg | .notice =>
      if hasFlag (modeBits peer.details) gaggedUser then []
      else handleMessageCommand number peer type target message rest
  | .utm | .atm => handleMessageCommand number peer type target message rest

/-- What happens: a client connects; a peer handles `NICK`, takes over a uniquenick after a remote
kill, handles `USER`, `CRYPT`, `LOGIN` or `OPER`, gets its operator privileges, handles `MODE` for a
nick, `SETKEY` or a command about channels, sends a message, or is destroyed; or a task goes on. -/
inductive Event where
  | connect (address : IPv4)
  | nick (peer : Nat) (uniquenick param : Bytes)
  | acquire (peer : Nat) (uniquenick : Bytes)
  | user (peer : Nat) (username realname : Bytes)
  | crypt (peer : Nat) (gameid : Int)
  | login (peer : Nat) (profileid : Int)
  | oper (peer : Nat) (profileid userid : Int)
  | operStatus (peer : Nat) (operflags : Int)
  | mode (peer : Nat) (modeString : Bytes)
  | setKey (peer : Nat) (kvText : Bytes)
  | channel (peer : Nat) (env : Environment) (flags : BitVec 32 → BitVec 32) (task : ChannelTask)
  | message (peer : Nat) (type : MessageType) (target message : Bytes) (rest : List Bytes)
  | quit (peer : Nat) (env : Environment)
  | execute (task : Nat) (env : Environment) (web : BitVec 32)

namespace State

variable (s : State)

/-- The constructor of `Peer`. -/
def connect (address : IPv4) : State :=
  let details :=
    { UserSummary.empty with address := address, hostname := inetNtop address }
  ({ s with peers := s.peers ++ [⟨details, address, false, false⟩] } : State).addTask
    s.peers.length (.setUserDetails .empty .onGetBackendId)

/-- A peer that is not deleted changes its details and asks for them to be written, as
`refresh_user_details` does. -/
def refresh (number : Nat) (change : UserSummary → UserSummary) : State :=
  match s.peers[number]? with
  | none => s
  | some peer =>
      let details := change peer.details
      (s.modifyPeer number fun peer => { peer with details := details }).addTask number
        (.setUserDetails details .null)

/-- A request with another nick. -/
def requestNick (number : Nat) (nick : Bytes) : State :=
  match s.peers[number]? with
  | none => s
  | some peer =>
      if peer.deleted then s
      else s.addTask number (.setUserDetails { peer.details with nick := nick } .onNickReserve)

/-- The parameters of USER are taken as they are, without `:` in front of the second one. -/
def handleUser (number : Nat) (username realname : Bytes) : State :=
  match s.peers[number]? with
  | none => s
  | some peer =>
      let realname :=
        if realname.length > 1 ∧ realname.headD 0 = char ':' then realname.drop 1 else realname
      if peer.deleted ∨ isNickValid (cString username) = 0 ∨ isNickValid (cString realname) = 0 then
        s
      else
        (s.modifyPeer number fun peer =>
          { peer with details := { peer.details with username := username, realname := realname } }
          ).onUserMaybeRegistered number

/-- A command of a peer that has logged in. -/
def command (number : Nat) (handle : Peer → State) : State :=
  match s.peers[number]? with
  | none => s
  | some peer => if peer.loggedIn then handle peer else s

/-- The destructor of a peer, which waits for its tasks, and `Perform_DeleteUser`. -/
def quit (number : Nat) (env : Environment) : State :=
  match s.peers[number]? with
  | none => s
  | some peer =>
      if s.tasks.any fun task => task.peer == number && (task.control matches .done) = false then s
      else
        { s with
          keys :=
            { s.keys with
              store := (performDeleteUser env peer.details s.keys.store).1
              userKeys := Function.update s.keys.userKeys peer.details.id fun _ => none }
          peers := s.peers.modify number fun peer => { peer with deleted := true } }

/-- One event. -/
def step : Event → State
  | .connect address => s.connect address
  | .nick number uniquenick param =>
      match handleNick uniquenick param with
      | .ok nick => s.requestNick number nick
      | .error _ => s
  | .acquire number uniquenick => s.requestNick number uniquenick
  | .user number username realname => s.handleUser number username realname
  | .crypt number gameid => s.refresh number fun details => { details with gameid := gameid }
  | .login number profileid =>
      s.refresh number fun details => { details with profileid := profileid }
  | .oper number profileid userid =>
      s.refresh number fun details =>
        { details with operflags := 0, profileid := profileid, userid := userid }
  | .operStatus number operflags =>
      s.modifyPeer number fun peer =>
        { peer with details := { peer.details with operflags := operflags } }
  | .mode number modeString =>
      s.command number fun _ =>
        let parser := parseUserModes modeString
        s.addTask number (.updateUserModes parser.setFlags parser.unsetFlags)
  | .setKey number kvText =>
      s.command number fun peer => s.addTask number (.setUserKeys peer.details.nick kvText)
  | .channel number env flags task =>
      s.command number fun peer => { s with keys := task.run env ⟨peer.details, flags⟩ s.keys }
  | .message .. => s
  | .quit number env => s.quit number env
  | .execute i env web => s.execute i env web

/-- The messages that are submitted for delivery at an event. -/
def submitted : Event → List Message
  | .message number type target message rest =>
      match s.peers[number]? with
      | none => []
      | some peer =>
          if peer.loggedIn then handleMessage number peer type target message rest else []
  | _ => []

end State

/-- The state that a run of events leads to. -/
abbrev serve (run : List Event) : State :=
  Runs.after State.step .init run

end OpenSpy.Peerchat.UserModes
