import OpenSpy.Library.MachineInt
import OpenSpy.Library.Runs
import OpenSpy.Peerchat.ChannelStore

/-!
# The tasks that write nicks

`Perform_SetUserDetails` and the part of `Perform_DeleteUser` that is about nicks, one redis
command, one read of the peer or one callback at a time, so that the tasks of any number of
peers can go on in any order. A peer is connected until its destructor runs, which the requests
that refer to it hold off; its `DeleteUser` task comes after that. Expiry, `_custkeys` hashes and
the channels of a deleted user are left out.
-/

namespace OpenSpy.Peerchat.NickTasks

open Bytes ChannelStore MachineInt

/-- The id and the nick of a `UserSummary`. -/
structure Details where
  id : Int
  nick : Bytes
  deriving DecidableEq

/-- The callback of a `SetUserDetails` request. -/
inductive Callback where
  | onGetBackendId | onNickReserve | onUserRegistered | null
  deriving DecidableEq

/-- What the callback makes of `m_user_details` when the task has succeeded. -/
def Callback.onSuccess (callback : Callback) (response details : Details) : Details :=
  match callback with
  | onGetBackendId => { details with id := response.id }
  | onNickReserve => ⟨response.id, response.nick⟩
  | onUserRegistered => response
  | null => details

/-- What it makes of them when the nick is in use. Only `OnNickReserve` looks at the code. -/
def Callback.onUniqueNickInUse (callback : Callback) (response details : Details) : Details :=
  match callback with
  | onGetBackendId => { details with id := response.id }
  | onNickReserve => details
  | onUserRegistered => response
  | null => details

/-- A `SetUserDetails` request with the number of its peer. -/
structure Request where
  peer : Nat
  summary : Details
  callback : Callback
  deriving DecidableEq

/-- The locals of `Perform_SetUserDetails`: `original_nick`, `userDetails` and
`response.summary.id`. -/
structure Locals where
  originalNick : Bytes
  userDetails : Details
  id : Int
  deriving DecidableEq

/-- What a `SetUserDetails` task does next. `delOriginal`, `hsetNick` and `setUpdated` are the
commands of a nick update, `applyKeys`, `delKept` and `setKept` those without one, `existsNick`
to `hmgetUser` those of `GetUserSummaryByName`. `succeed` and `fail` are the callback;
`updated` says whether the keys of the nicks have been written. -/
inductive Control where
  | readNick
  | readDetails (originalNick : Bytes)
  | incr (originalNick : Bytes) (userDetails : Details)
  | exist (locals : Locals)
  | delOriginal (locals : Locals)
  | hsetNick (locals : Locals)
  | setUpdated (locals : Locals)
  | applyKeys (locals : Locals)
  | delKept (locals : Locals)
  | setKept (locals : Locals)
  | existsNick
  | getNick
  | existsUser (userId : Int)
  | hmgetUser (userId : Int)
  | succeed (locals : Locals) (response : Details) (updated : Bool)
  | fail (response : Details)
  | done
  deriving DecidableEq

/-- A task: its request, and where it is. -/
structure Task where
  request : Request
  control : Control
  deriving DecidableEq

/-- A peer is connected, or its `DeleteUser` task deletes the nick or the user next, or has come
to its end. -/
inductive Life where
  | connected | delNick | delUser | deleted
  deriving DecidableEq

/-- `m_user_details` of a peer, and where its life is. -/
structure Peer where
  details : Details
  life : Life
  deriving DecidableEq

/-- The keys `usernick_<nick>`, the nicks of the hashes `user_<id>` and `PEERCHATID`, with the
peers and the tasks. -/
structure State where
  usernick : Bytes → Option Int
  userNick : Int → Option Bytes
  peerchatId : Int
  peers : List Peer
  tasks : List Task

/-- An empty database. -/
def State.init : State :=
  ⟨fun _ => none, fun _ => none, 0, [], []⟩

/-- `DEL usernick_<nick>`. -/
def State.delNick (s : State) (nick : Bytes) : State :=
  { s with usernick := Function.update s.usernick (nickKey nick) none }

/-- `SET usernick_<nick> <id>`. -/
def State.setNick (s : State) (nick : Bytes) (id : Int) : State :=
  { s with usernick := Function.update s.usernick (nickKey nick) (some id) }

/-- The `nick` of the hash `user_<id>` is set. -/
def State.setUserNick (s : State) (id : Int) (nick : Bytes) : State :=
  { s with userNick := Function.update s.userNick id (some (cString nick)) }

/-- `m_user_details` of a peer is set. -/
def State.setDetails (s : State) (peer : Nat) (details : Details) : State :=
  { s with peers := s.peers.modify peer fun peer => { peer with details := details } }

/-- One step of `Perform_SetUserDetails`, with the details of the peer. -/
def State.perform (s : State) (request : Request) (details : Details) :
    Control → State × Control
  | .readNick => (s, .readDetails details.nick)
  | .readDetails originalNick =>
      (s, if details.id ≠ 0 then .exist ⟨originalNick, details, details.id⟩
        else .incr originalNick details)
  | .incr originalNick userDetails =>
      ({ s with peerchatId := s.peerchatId + 1 },
        .exist ⟨originalNick, userDetails, int32 (s.peerchatId + 1)⟩)
  -- `EXISTS`, whose reply does not count for the nick that the peer has
  | .exist locals =>
      let sameNick := request.summary.nick = locals.userDetails.nick
      (s, if (s.usernick (nickKey request.summary.nick)).isSome ∧ ¬ sameNick then .existsNick
        else if locals.userDetails.id = 0 ∨ ¬ sameNick then .delOriginal locals
        else .applyKeys locals)
  | .delOriginal locals => (s.delNick locals.originalNick, .hsetNick locals)
  | .hsetNick locals => (s.setUserNick locals.id request.summary.nick, .setUpdated locals)
  | .setUpdated locals =>
      (s.setNick request.summary.nick locals.id,
        .succeed locals ⟨locals.id, request.summary.nick⟩ true)
  | .applyKeys locals =>
      (s.setUserNick request.summary.id request.summary.nick,
        if request.summary.nick.length ≠ 0 then .delKept locals
        else .succeed locals ⟨locals.id, locals.userDetails.nick⟩ false)
  | .delKept locals => (s.delNick locals.originalNick, .setKept locals)
  | .setKept locals =>
      (s.setNick request.summary.nick locals.id,
        .succeed locals ⟨locals.id, locals.userDetails.nick⟩ true)
  -- `GetUserSummaryByName` is called with the nick in lower case
  | .existsNick =>
      (s, if (s.usernick (nickKey (request.summary.nick.map toLower))).isSome then .getNick
        else .fail ⟨0, []⟩)
  | .getNick =>
      let userId := (s.usernick (nickKey (request.summary.nick.map toLower))).getD 0
      (s, if userId = -1 then .fail ⟨-1, ascii "SERVER"⟩ else .existsUser userId)
  | .existsUser userId =>
      (s, if (s.userNick userId).isSome then .hmgetUser userId else .fail ⟨0, []⟩)
  | .hmgetUser userId => (s, .fail ⟨userId, (s.userNick userId).getD []⟩)
  | .succeed _ response _ =>
      (s.setDetails request.peer (request.callback.onSuccess response details), .done)
  | .fail response =>
      (s.setDetails request.peer (request.callback.onUniqueNickInUse response details), .done)
  | .done => (s, .done)

/-- The next step of a task. -/
def State.execute (s : State) (i : Nat) : State :=
  match s.tasks[i]? with
  | none => s
  | some task =>
      match s.peers[task.request.peer]? with
      | none => s
      | some peer =>
          let (following, control) := s.perform task.request peer.details task.control
          { following with tasks := following.tasks.set i ⟨task.request, control⟩ }

/-- A connected peer adds a `SetUserDetails` request: its details, with another nick or its own. -/
def State.addTaskRequest (s : State) (peer : Nat) (nick : Option Bytes) (callback : Callback) :
    State :=
  match s.peers[peer]? with
  | some ⟨details, .connected⟩ =>
      let summary := { details with nick := nick.getD details.nick }
      { s with tasks := s.tasks ++ [⟨⟨peer, summary, callback⟩, .readNick⟩] }
  | _ => s

/-- The constructor of `Peer`. -/
def State.connect (s : State) : State :=
  { s with
    peers := s.peers ++ [⟨⟨0, []⟩, .connected⟩]
    tasks := s.tasks ++ [⟨⟨s.peers.length, ⟨0, []⟩, .onGetBackendId⟩, .readNick⟩] }

/-- The peer has requests that are not done. -/
def State.Referred (s : State) (peer : Nat) : Prop :=
  ∃ task ∈ s.tasks, task.request.peer = peer ∧ task.control ≠ .done

instance (s : State) (peer : Nat) : Decidable (s.Referred peer) :=
  inferInstanceAs (Decidable (∃ task ∈ s.tasks, _))

/-- The destructor of a peer that no request refers to. -/
def State.quit (s : State) (peer : Nat) : State :=
  match s.peers[peer]? with
  | some ⟨details, .connected⟩ =>
      -- each request holds a reference, so the destructor waits for them
      if s.Referred peer then s else { s with peers := s.peers.set peer ⟨details, .delNick⟩ }
  | _ => s

/-- The next command of `Perform_DeleteUser`. -/
def State.delete (s : State) (peer : Nat) : State :=
  match s.peers[peer]? with
  | some ⟨details, .delNick⟩ =>
      { s.delNick details.nick with peers := s.peers.set peer ⟨details, .delUser⟩ }
  | some ⟨details, .delUser⟩ =>
      { s with
        userNick := Function.update s.userNick details.id none
        peers := s.peers.set peer ⟨details, .deleted⟩ }
  | _ => s

/-- A client connects, a peer handles `NICK`, takes over a uniquenick after a remote kill, adds
a request for its own details (`refresh_user_details` and `OnGetGameInfo_Crypt`) or is destroyed,
or the next step of a task is executed. -/
inductive Event where
  | connect
  | nick (peer : Nat) (uniquenick param : Bytes)
  | acquire (peer : Nat) (uniquenick : Bytes)
  | refresh (peer : Nat) (userRegistration : Bool)
  | quit (peer : Nat)
  | execute (task : Nat)
  | delete (peer : Nat)
  deriving DecidableEq

/-- One event. -/
def State.step (s : State) : Event → State
  | .connect => s.connect
  | .nick peer uniquenick param =>
      match handleNick uniquenick param with
      | .ok nick => s.addTaskRequest peer (some nick) .onNickReserve
      | .error _ => s
  | .acquire peer uniquenick => s.addTaskRequest peer (some uniquenick) .onNickReserve
  | .refresh peer userRegistration =>
      s.addTaskRequest peer none (if userRegistration then .onUserRegistered else .null)
  | .quit peer => s.quit peer
  | .execute i => s.execute i
  | .delete peer => s.delete peer

/-- The state that a run of events leads to. -/
abbrev serve (run : List Event) : State :=
  Runs.after State.step .init run

/-- All tasks have finished. -/
def State.Finished (s : State) : Prop :=
  (∀ task ∈ s.tasks, task.control = .done) ∧
    ∀ peer ∈ s.peers, peer.life = .connected ∨ peer.life = .deleted

instance (s : State) : Decidable s.Finished :=
  inferInstanceAs (Decidable (_ ∧ _))

end OpenSpy.Peerchat.NickTasks
