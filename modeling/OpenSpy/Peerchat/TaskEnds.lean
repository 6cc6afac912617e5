import OpenSpy.Peerchat.ChannelModes
import OpenSpy.Peerchat.TaskQueue

/-!
# The ends of the tasks

A request that is added takes a reference on its peer. The task for it has to drop the reference
and to call the callback, at the end of every path. Below are the paths of all tasks as what they
do to the reference and the callback, and the references of a peer over a run of requests.
`tasks_end_iff` says which requests end as they should, and when a deleted peer is freed; none is
freed while a request of it waits (`waiting_not_freed`).
-/

namespace OpenSpy.Peerchat

open Bytes UserChannelFlag ChannelStore TaskQueue Runs

/-- What a task does to the reference on its peer, and a call of the callback. -/
inductive Effect where
  | incRef
  | callback
  | decRef
  deriving DecidableEq, Repr

/-- A reply of the web service: `Handle_WebError` finds an error in it, or it has some records. -/
inductive WebReply where
  | error
  | records (count : Nat)
  deriving DecidableEq, Repr

/-- What a task finds: the redis database, the reply of the web service, and the replies to the
`SCAN` for usermodes up to the one with the cursor 0, each with its keys or without an answer. -/
structure Backend where
  env : Environment
  store : ChannelStore
  web : WebReply
  scan : List (Option Nat)

/-- A request, as far as the way to its end depends on it. Only `QUIT` makes one without a peer,
for the deletion of the user. -/
structure TaskRequest where
  type : EPeerchatRequestType
  peer : ChatPeer
  hasPeer : Bool
  hasCallback : Bool
  username : Bytes
  channelName : Bytes
  modify : ChannelModify
  withPeer : type ≠ .deleteUser → hasPeer = true

section Tasks

variable (backend : Backend) (request : TaskRequest)

/-- `if(request.callback) request.callback(response, request.peer)`. -/
def TaskRequest.call : List Effect :=
  if request.hasCallback then [.callback] else []

/-- `if(request.peer) request.peer->DecRef()`. -/
def TaskRequest.release : List Effect :=
  if request.hasPeer then [.decRef] else []

/-- The callback and then the reference. -/
def TaskRequest.finish : List Effect :=
  request.call ++ request.release

/-- The id of the user that the request names. -/
def Backend.userId : Int :=
  (getUserSummaryByName backend.env backend.store request.username).id

/-- The id of the channel that the request names. -/
def Backend.channelId : BitVec 32 :=
  (getChannelSummaryByName backend.env backend.store request.channelName).channelId

/-- `CheckActionPermissions` for the peer in the channel of the request. -/
def Backend.permits (minModeFlags : BitVec 32) : Bool :=
  checkActionPermissions request.peer
    (lookupUserChannelModeFlags backend.store (backend.channelId request)
      request.peer.details.id) 0 minModeFlags

/-- The members of the channel that are listed. -/
def Backend.listed : List ChannelUserSummary :=
  if backend.channelId request ≠ 0 then
    getChannelUsers backend.env backend.store (backend.channelId request)
  else []

/-- `Perform_SetUserDetails`, whether the nick is in use or not. -/
def setUserDetailsEnd : List Effect := request.finish

/-- `Perform_SendMessageToTarget`, which has no use for a callback. -/
def sendMessageToTargetEnd : List Effect := request.release

/-- `Perform_UserJoinChannel`. -/
def userJoinChannelEnd : List Effect := request.finish

/-- `Perform_UserPartChannel`. -/
def userPartChannelEnd : List Effect := request.finish

/-- `Perform_UserKickChannel`. -/
def userKickChannelEnd : List Effect := request.finish

/-- `Perform_LookupChannelDetails`. -/
def lookupChannelDetailsEnd : List Effect := request.finish

/-- `Perform_LookupUserDetailsByName`. -/
def lookupUserDetailsByNameEnd : List Effect := request.finish

/-- `Perform_UpdateChannelModes`, with an early return for a request that is refused. -/
def updateChannelModesEnd : List Effect :=
  if backend.channelId request = 0 || !backend.permits request halfOp ||
      !checkChannelUserModeChange backend.env backend.store request.peer request.channelName
        (lookupUserChannelModeFlags backend.store (backend.channelId request)
          request.peer.details.id) request.modify.setUsermodes request.modify.unsetUsermodes then
    request.finish
  else request.finish

/-- `Perform_UpdateUserModes`. -/
def updateUserModesEnd : List Effect := request.finish

/-- `Perform_ListChannels`. -/
def listChannelsEnd : List Effect := request.finish

/-- `Perform_SetChannelUserKeys`, with an early return for the keys of somebody else. -/
def setChannelUserKeysEnd : List Effect :=
  if backend.userId request ≠ request.peer.details.id then
    if !backend.permits request op then request.finish else request.finish
  else request.finish

/-- `Handle_GetChannelUserKeys_AllUsers`. The end is marked at the last user. -/
def getChannelUserKeysAllUsersEnd : List Effect :=
  (if backend.channelId request ≠ 0 then
    (getChannelUsers backend.env backend.store (backend.channelId request)).flatMap
      fun _ => request.call
  else []) ++ request.release

/-- `Handle_GetChannelUserKeys_SingleUser`. -/
def getChannelUserKeysSingleUserEnd : List Effect := request.finish

/-- `Perform_GetChannelUserKeys`. -/
def getChannelUserKeysEnd : List Effect :=
  if request.username = ascii "*" then getChannelUserKeysAllUsersEnd backend request
  else getChannelUserKeysSingleUserEnd request

/-- `Perform_SetUserKeys`. The keys of somebody else are for global owners; whoever is none gets
back at once. -/
def setUserKeysEnd : List Effect :=
  if backend.userId request ≠ request.peer.details.id then
    if !request.peer.hasPrivilege globalOwner then [] else request.finish
  else request.finish

/-- `Perform_GetUserKeys`. -/
def getUserKeysEnd : List Effect := request.finish

/-- `Perform_SetChannelKeys`, with an early return for a user who is no operator. -/
def setChannelKeysEnd : List Effect :=
  if backend.channelId request ≠ 0 then
    if !backend.permits request op then request.finish else request.finish
  else request.finish

/-- `Perform_GetChannelKeys`. -/
def getChannelKeysEnd : List Effect := request.finish

/-- `Perform_SetBroadcastToVisibleUsers`. -/
def setBroadcastToVisibleUsersEnd : List Effect := request.finish

/-- `Perform_DeleteUser`. -/
def deleteUserEnd : List Effect := request.finish

/-- `Perform_KeepaliveUser`. -/
def keepaliveUserEnd : List Effect := request.finish

/-- `Perform_UserJoinEvents`. -/
def userJoinEventsEnd : List Effect := request.finish

/-- `Perform_SetUsermode`, which is `Perform_SetGlobalUsermode`. -/
def setUsermodeEnd : List Effect := request.finish

/-- The records of a lookup: one call for each, and one if there is none or an error. -/
def recordsEnd : List Effect :=
  (match backend.web with
    | .error => request.call
    | .records count =>
        (List.replicate count request.call).flatten ++ if count = 0 then request.call else []) ++
    request.release

/-- A lookup that answers once, with the error or what it has found. -/
def lookupEnd : List Effect :=
  (match backend.web with
    | .error => request.call
    | .records _ => request.call) ++
    request.release

/-- `Perform_ListUsermodes`. -/
def listUsermodesEnd : List Effect := recordsEnd backend request

/-- The loop of `Perform_ListUsermodes_Cached`, and the call behind it. -/
def usermodeScan : List (Option Nat) → List Effect
  | [] => request.call
  | none :: _ => []
  | some keys :: rest => (List.replicate keys request.call).flatten ++ usermodeScan rest

/-- `Perform_ListUsermodes_Cached`. -/
def listUsermodesCachedEnd : List Effect :=
  usermodeScan request backend.scan ++ request.release

/-- `Perform_DeleteUsermode`. -/
def deleteUsermodeEnd : List Effect := request.finish

/-- `Perform_LookupGameInfo`. -/
def lookupGameInfoEnd : List Effect := request.finish

/-- `Perform_LookupGlobalUsermode`. -/
def lookupGlobalUsermodeEnd : List Effect := lookupEnd backend request

/-- `Perform_SetChanprops`. -/
def setChanpropsEnd : List Effect := lookupEnd backend request

/-- `Perform_ListChanprops`. -/
def listChanpropsEnd : List Effect := recordsEnd backend request

/-- `Perform_DelChanprops`. -/
def delChanpropsEnd : List Effect := request.finish

/-- `Perform_RemoteKill_ByName`. -/
def remoteKillByNameEnd : List Effect := request.finish

/-- `Perform_UpdateChannelModes_BanMask`. -/
def updateChannelModesBanMaskEnd : List Effect := request.finish

/-- `Perform_OperCheck`. -/
def operCheckEnd : List Effect := lookupEnd backend request

/-- `Perform_CountServerUsers`. -/
def countServerUsersEnd : List Effect := request.finish

/-- The task that `PerformUVWorkRequest` performs. -/
def performTask : List Effect :=
  match request.type with
  | .setUserDetails => setUserDetailsEnd request
  | .sendMessageToTarget => sendMessageToTargetEnd request
  | .userJoinChannel => userJoinChannelEnd request
  | .userPartChannel => userPartChannelEnd request
  | .userKickChannel => userKickChannelEnd request
  | .lookupChannelDetails => lookupChannelDetailsEnd request
  | .lookupUserDetailsByName => lookupUserDetailsByNameEnd request
  | .updateChannelModes => updateChannelModesEnd backend request
  | .updateUserModes => updateUserModesEnd request
  | .listChannels => listChannelsEnd request
  | .setChannelUserKeys => setChannelUserKeysEnd backend request
  | .getChannelUserKeys => getChannelUserKeysEnd backend request
  | .setUserKeys => setUserKeysEnd backend request
  | .getUserKeys => getUserKeysEnd request
  | .setChannelKeys => setChannelKeysEnd backend request
  | .getChannelKeys => getChannelKeysEnd request
  | .setBroadcastToVisibleUsers | .setBroadcastToVisibleUsersSendSummary
  | .setBroadcastToVisibleUsersSkipSource => setBroadcastToVisibleUsersEnd request
  | .deleteUser => deleteUserEnd request
  | .keepaliveUser => keepaliveUserEnd request
  | .userJoinEvents => userJoinEventsEnd request
  | .createUserMode => setUsermodeEnd request
  | .listUserModes => listUsermodesEnd backend request
  | .listUserModesCacheLookup => listUsermodesCachedEnd backend request
  | .deleteUserMode => deleteUsermodeEnd request
  | .lookupGameInfo => lookupGameInfoEnd request
  | .lookupGlobalUsermode => lookupGlobalUsermodeEnd backend request
  | .setChanProps => setChanpropsEnd backend request
  | .listChanProps => listChanpropsEnd backend request
  | .deleteChanProps => delChanpropsEnd request
  | .remoteKillByName => remoteKillByNameEnd request
  | .updateChannelModesBanMask => updateChannelModesBanMaskEnd request
  | .operCheck => operCheckEnd backend request
  | .countServerUsers => countServerUsersEnd request

/-- `PerformUVWorkRequest`, which holds a reference of its own for `ProcessNextTask`. -/
def performUVWorkRequest : List Effect :=
  (if request.hasPeer then [.incRef] else []) ++ performTask backend request ++ request.release

/-- The task ends its request: it drops the reference once, and calls the callback at least once
if there is one, for `GETCKEY` on all users once for each user. -/
structure EndsRequest : Prop where
  released : (performTask backend request).count .decRef = if request.hasPeer then 1 else 0
  called : request.hasCallback → 1 ≤ (performTask backend request).count .callback
  each_user : request.hasCallback → request.type = .getChannelUserKeys →
    request.username = ascii "*" →
      (performTask backend request).count .callback = (backend.listed request).length

/-- The request may change the keys of the user it names. -/
def OwnKeys : Prop :=
  backend.userId request = request.peer.details.id ∨ request.peer.hasPrivilege globalOwner

/-- The task does not get lost on its way: keys are set for the own user or by a global owner,
and nobody waits for a message that is sent, for the keys of a channel without listed members, or
for a scan of usermodes that fails before the first key. -/
def GetsThrough : Prop :=
  match request.type with
  | .setUserKeys => OwnKeys backend request
  | .sendMessageToTarget => request.hasCallback = false
  | .getChannelUserKeys =>
      request.hasCallback → request.username = ascii "*" → backend.listed request ≠ []
  | .listUserModesCacheLookup =>
      request.hasCallback → none ∈ backend.scan →
        ∃ keys, some (keys + 1) ∈ backend.scan.takeWhile Option.isSome
  | _ => True

end Tasks

/-- The references on a peer by the driver and by requests, the requests that have not been
performed, and those that have, with what they found. -/
structure PeerRefs where
  refs : Int
  waiting : List TaskRequest
  ran : List (Backend × TaskRequest)
  deleteFlag : Bool
  freed : Bool

/-- What may happen to a peer: a request is added, some waiting request is performed, the peer is
to be deleted, or the driver looks after it. -/
inductive RefEvent where
  | add (request : TaskRequest)
  | perform (index : Nat) (backend : Backend)
  | delete
  | tick

namespace PeerRefs

/-- A new peer, which the driver refers to. -/
def init : PeerRefs :=
  ⟨1, [], [], false, false⟩

/-- An effect on the number of references. -/
def count (refs : Int) : Effect → Int
  | .incRef => refs + 1
  | .callback => refs
  | .decRef => refs - 1

/-- `TCPDriver::LLIterator_TickOrDeleteClient`, as far as it deletes the peer. -/
def tickOrDeleteClient (peer : PeerRefs) : PeerRefs :=
  if peer.refs = 0 then peer
  else if peer.deleteFlag then
    if peer.refs = 1 then { peer with refs := peer.refs - 1, freed := true } else peer
  else peer

/-- One event. Nothing happens to a peer that has been freed. -/
def step (peer : PeerRefs) (event : RefEvent) : PeerRefs :=
  if peer.freed then peer
  else
    match event with
    | .add request =>
        { peer with
          refs := if request.hasPeer then peer.refs + 1 else peer.refs
          waiting := peer.waiting ++ [request] }
    | .perform index backend =>
        match peer.waiting[index]? with
        | none => peer
        | some request =>
            { peer with
              refs := (performUVWorkRequest backend request).foldl count peer.refs
              waiting := peer.waiting.eraseIdx index
              ran := peer.ran ++ [(backend, request)] }
    | .delete => { peer with deleteFlag := true }
    | .tick => peer.tickOrDeleteClient

end PeerRefs

/-- The peer behind a run of events. -/
abbrev peerAfter (run : List RefEvent) : PeerRefs :=
  after PeerRefs.step .init run

section Paths

variable {backend : Backend} {request : TaskRequest}

/-- The calls of the scan: the keys up to a reply that is missing, or all of them and the end. -/
def scanCalls : List (Option Nat) → Nat
  | [] => 1
  | none :: _ => 0
  | some keys :: rest => keys + scanCalls rest

/-- The calls of a task that does not return early, if there is a callback. -/
def callCount (backend : Backend) (request : TaskRequest) : Nat :=
  match request.type with
  | .sendMessageToTarget => 0
  | .getChannelUserKeys =>
      if request.username = ascii "*" then (backend.listed request).length else 1
  | .listUserModes | .listChanProps =>
      match backend.web with
      | .error => 1
      | .records count => max count 1
  | .listUserModesCacheLookup => scanCalls backend.scan
  | _ => 1

/-- The request that `Perform_SetUserKeys` forgets. -/
def Forgotten (backend : Backend) (request : TaskRequest) : Prop :=
  request.type = .setUserKeys ∧ ¬ OwnKeys backend request

/-- Some calls of the callback, and then the release. -/
def callsThenRelease (request : TaskRequest) (calls : Nat) : List Effect :=
  List.replicate (if request.hasCallback then calls else 0) .callback ++ request.release

theorem finish_eq : request.finish = callsThenRelease request 1 := by
  unfold TaskRequest.finish TaskRequest.call callsThenRelease
  cases request.hasCallback <;> rfl

theorem replicate_call (count : Nat) :
    (List.replicate count request.call).flatten =
      List.replicate (if request.hasCallback then count else 0) .callback := by
  unfold TaskRequest.call
  cases request.hasCallback with
  | false => simp
  | true => simp [List.flatten_replicate_singleton]

theorem records_eq :
    recordsEnd backend request =
      callsThenRelease request
        (match backend.web with | .error => 1 | .records count => max count 1) := by
  unfold recordsEnd callsThenRelease
  cases backend.web with
  | error => cases hcallback : request.hasCallback <;> simp [TaskRequest.call, hcallback]
  | records count =>
      simp only [replicate_call]
      by_cases hzero : count = 0
      · cases hcallback : request.hasCallback <;> simp [TaskRequest.call, hcallback, hzero]
      · have hmax : max count 1 = count := max_eq_left (Nat.one_le_iff_ne_zero.mpr hzero)
        simp [hzero, hmax]

theorem lookup_eq : lookupEnd backend request = callsThenRelease request 1 := by
  rw [← finish_eq, lookupEnd, TaskRequest.finish]
  cases backend.web <;> rfl

theorem scan_eq (scan : List (Option Nat)) :
    usermodeScan request scan =
      List.replicate (if request.hasCallback then scanCalls scan else 0) .callback := by
  induction scan with
  | nil => cases hcallback : request.hasCallback <;> simp [usermodeScan, TaskRequest.call, scanCalls,
      hcallback]
  | cons reply scan ih =>
      cases reply with
      | none => simp [usermodeScan, scanCalls]
      | some keys =>
          rw [usermodeScan, ih, replicate_call, scanCalls]
          cases request.hasCallback <;> simp

theorem all_users_eq :
    getChannelUserKeysAllUsersEnd backend request =
      callsThenRelease request (backend.listed request).length := by
  unfold getChannelUserKeysAllUsersEnd callsThenRelease Backend.listed
  congr 1
  split
  · rw [← replicate_call, ← List.map_const', List.flatMap_def]
  · simp

/-- Every task calls the callback so often and drops the reference, but for the one that forgets
its request. -/
theorem task_path (h : ¬ Forgotten backend request) :
    performTask backend request = callsThenRelease request (callCount backend request) := by
  cases htype : request.type with
  | setUserDetails | userJoinChannel | userPartChannel | userKickChannel | lookupChannelDetails
  | lookupUserDetailsByName | updateUserModes | listChannels | getUserKeys | getChannelKeys
  | setBroadcastToVisibleUsers | setBroadcastToVisibleUsersSendSummary
  | setBroadcastToVisibleUsersSkipSource | deleteUser | keepaliveUser | userJoinEvents
  | createUserMode | deleteUserMode | lookupGameInfo | deleteChanProps | remoteKillByName
  | updateChannelModesBanMask | countServerUsers =>
      simp only [performTask, callCount, htype]
      exact finish_eq
  | updateChannelModes =>
      simp only [performTask, callCount, htype, updateChannelModesEnd, ite_self]
      exact finish_eq
  | setChannelUserKeys =>
      simp only [performTask, callCount, htype, setChannelUserKeysEnd, ite_self]
      exact finish_eq
  | setChannelKeys =>
      simp only [performTask, callCount, htype, setChannelKeysEnd, ite_self]
      exact finish_eq
  | setUserKeys =>
      have hown : OwnKeys backend request := by
        by_contra hnot
        exact h ⟨htype, hnot⟩
      simp only [performTask, callCount, htype, setUserKeysEnd]
      rcases hown with hown | howner
      · rw [if_neg (not_not.mpr hown)]
        exact finish_eq
      · rw [howner]
        simp only [Bool.not_true, Bool.false_eq_true, if_false, ite_self]
        exact finish_eq
  | sendMessageToTarget =>
      simp only [performTask, callCount, htype, sendMessageToTargetEnd, callsThenRelease, ite_self]
      rfl
  | getChannelUserKeys =>
      simp only [performTask, callCount, htype, getChannelUserKeysEnd]
      split
      · exact all_users_eq
      · exact finish_eq
  | listUserModes | listChanProps =>
      simp only [performTask, callCount, htype]
      exact records_eq
  | listUserModesCacheLookup =>
      simp only [performTask, callCount, htype, listUsermodesCachedEnd, scan_eq]
      rfl
  | lookupGlobalUsermode | setChanProps | operCheck =>
      simp only [performTask, callCount, htype]
      exact lookup_eq

/-- The task that forgets its request does nothing. -/
theorem task_forgotten (h : Forgotten backend request) : performTask backend request = [] := by
  obtain ⟨htype, hown⟩ := h
  rw [OwnKeys, not_or] at hown
  simp only [performTask, htype, setUserKeysEnd]
  rw [if_pos hown.1, if_pos (by simpa using hown.2)]

/-- What the calls and the release count. -/
theorem calls_count (calls : Nat) :
    (callsThenRelease request calls).count .callback = (if request.hasCallback then calls else 0) ∧
      (callsThenRelease request calls).count .decRef = (if request.hasPeer then 1 else 0) ∧
      (callsThenRelease request calls).count .incRef = 0 := by
  unfold callsThenRelease TaskRequest.release
  cases request.hasPeer <;> cases request.hasCallback <;> simp [List.count_replicate]

/-- A scan calls back unless it fails before the first key. -/
theorem scan_calls_iff (scan : List (Option Nat)) :
    1 ≤ scanCalls scan ↔
      (none ∈ scan → ∃ keys, some (keys + 1) ∈ scan.takeWhile Option.isSome) := by
  induction scan with
  | nil => simp [scanCalls]
  | cons reply scan ih =>
      cases reply with
      | none => simp [scanCalls]
      | some keys =>
          cases keys with
          | zero => simpa [scanCalls] using ih
          | succ keys =>
              refine iff_of_true ?_ fun _ => ⟨keys, by simp⟩
              rw [scanCalls]
              omega

/-- A task ends its request if and only if it does not get lost on its way. -/
theorem ends_request_iff : EndsRequest backend request ↔ GetsThrough backend request := by
  by_cases hforgotten : Forgotten backend request
  · have hpeer : request.hasPeer = true := request.withPeer (by rw [hforgotten.1]; decide)
    refine iff_of_false (fun hends => ?_) fun hthrough => ?_
    · have hreleased := hends.released
      rw [task_forgotten hforgotten, hpeer] at hreleased
      exact absurd hreleased (by decide)
    · simp only [GetsThrough, hforgotten.1] at hthrough
      exact hforgotten.2 hthrough
  · have hpath := task_path hforgotten
    obtain ⟨hcalls, hreleased, -⟩ := @calls_count request (callCount backend request)
    rw [← hpath] at hcalls hreleased
    have hends : EndsRequest backend request ↔
        (request.hasCallback → 1 ≤ callCount backend request) ∧
          (request.hasCallback → request.type = .getChannelUserKeys →
            request.username = ascii "*" →
              callCount backend request = (backend.listed request).length) := by
      constructor
      · rintro ⟨-, hcalled, heach⟩
        refine ⟨fun hcallback => ?_, fun hcallback htype hname => ?_⟩
        · have hone := hcalled hcallback
          rwa [hcalls, if_pos hcallback] at hone
        · have hall := heach hcallback htype hname
          rwa [hcalls, if_pos hcallback] at hall
      · rintro ⟨hcalled, heach⟩
        refine ⟨hreleased, fun hcallback => ?_, fun hcallback htype hname => ?_⟩
        · rw [hcalls, if_pos hcallback]
          exact hcalled hcallback
        · rw [hcalls, if_pos hcallback]
          exact heach hcallback htype hname
    rw [hends]
    cases htype : request.type with
    | setUserKeys =>
        have hown : OwnKeys backend request := by
          by_contra hnot
          exact hforgotten ⟨htype, hnot⟩
        simp [callCount, GetsThrough, htype, hown]
    | sendMessageToTarget => simp [callCount, GetsThrough, htype]
    | getChannelUserKeys =>
        simp only [callCount, GetsThrough, htype, forall_const]
        by_cases hname : request.username = ascii "*"
        · simp [hname, Nat.one_le_iff_ne_zero]
        · simp [hname]
    | listUserModes | listChanProps =>
        cases hweb : backend.web <;> simp [callCount, GetsThrough, htype, hweb]
    | listUserModesCacheLookup =>
        simp only [callCount, GetsThrough, htype, ← scan_calls_iff]
        simp
    | _ => simp [callCount, GetsThrough, htype]

end Paths

section Refs

open PeerRefs

/-- The task of a request that has been performed has dropped the reference. -/
def Released (task : Backend × TaskRequest) : Prop :=
  task.2.type = .setUserKeys → OwnKeys task.1 task.2

/-- The reference that is left behind. -/
def lost (task : Backend × TaskRequest) : Bool :=
  (performTask task.1 task.2).count .decRef = 0 && task.2.hasPeer

theorem lost_iff (task : Backend × TaskRequest) : lost task = false ↔ Released task := by
  obtain ⟨backend, request⟩ := task
  by_cases hforgotten : Forgotten backend request
  · have hpeer : request.hasPeer = true := request.withPeer (by rw [hforgotten.1]; decide)
    refine iff_of_false ?_ fun hreleased => hforgotten.2 (hreleased hforgotten.1)
    rw [lost, task_forgotten hforgotten, hpeer]
    simp
  · refine iff_of_true ?_ fun htype => ?_
    · rw [lost, task_path hforgotten, (calls_count _).2.1]
      cases request.hasPeer <;> rfl
    · by_contra hnot
      exact hforgotten ⟨htype, hnot⟩

/-- Effects are counted. -/
theorem count_effects (effects : List Effect) (refs : Int) :
    effects.foldl count refs = refs + effects.count .incRef - effects.count .decRef := by
  induction effects generalizing refs with
  | nil => simp
  | cons effect effects ih =>
      rw [List.foldl_cons, ih]
      cases effect <;> simp [count] <;> omega

/-- A request that is performed gives its reference back, or loses it. -/
theorem perform_count (backend : Backend) (request : TaskRequest) (refs : Int) :
    (performUVWorkRequest backend request).foldl count refs =
      refs - (if request.hasPeer then 1 else 0) + if lost (backend, request) then 1 else 0 := by
  have htask : (performTask backend request).count .incRef = 0 ∧
      ((performTask backend request).count .decRef : Int) =
        (if request.hasPeer then 1 else 0) - if lost (backend, request) then 1 else 0 := by
    by_cases hforgotten : Forgotten backend request
    · have hpeer : request.hasPeer = true := request.withPeer (by rw [hforgotten.1]; decide)
      rw [lost, task_forgotten hforgotten, hpeer]
      simp
    · obtain ⟨-, hreleased, hinc⟩ := @calls_count request (callCount backend request)
      rw [lost, task_path hforgotten, hreleased]
      refine ⟨hinc, ?_⟩
      cases request.hasPeer <;> simp
  rw [performUVWorkRequest, List.foldl_append, List.foldl_append, count_effects (performTask _ _),
    htask.1, htask.2]
  cases hpeer : request.hasPeer <;> simp [TaskRequest.release, hpeer, count]
  omega

/-- The references on a peer are those of the driver, of the requests that wait and of those that
have been forgotten. A freed peer has none. -/
structure RefsRight (peer : PeerRefs) : Prop where
  alive : peer.freed = false →
    peer.refs = 1 + peer.waiting.countP (·.hasPeer) + peer.ran.countP lost
  gone : peer.freed = true → peer.waiting.countP (·.hasPeer) = 0 ∧ peer.ran.countP lost = 0

theorem refs_right_init : RefsRight init :=
  ⟨fun _ => rfl, fun h => nomatch h⟩

theorem step_tick (peer : PeerRefs) :
    peer.step .tick = if peer.freed then peer else peer.tickOrDeleteClient :=
  rfl

theorem refs_right_tick {peer : PeerRefs} (h : RefsRight peer) (halive : peer.freed = false) :
    RefsRight peer.tickOrDeleteClient := by
  have hrefs := h.alive halive
  unfold tickOrDeleteClient
  split_ifs with _ _ hone
  · exact h
  · refine ⟨(fun hfalse => nomatch hfalse), fun _ => ?_⟩
    constructor <;> simp only <;> omega
  · exact h
  · exact h

theorem refs_right_step (peer : PeerRefs) (event : RefEvent) (h : RefsRight peer) :
    RefsRight (peer.step event) := by
  cases halive : peer.freed with
  | true =>
      unfold step
      rw [if_pos halive]
      exact h
  | false =>
      have hrefs := h.alive halive
      unfold step
      rw [halive, if_neg Bool.false_ne_true]
      cases event with
      | add request =>
          refine ⟨fun _ => ?_, fun hfreed => absurd hfreed (by simp)⟩
          simp only [List.countP_append, List.countP_singleton, hrefs]
          cases request.hasPeer <;> simp
          omega
      | perform index backend =>
          simp only
          cases hget : peer.waiting[index]? with
          | none => exact h
          | some request =>
              obtain ⟨hindex, hrequest⟩ := List.getElem?_eq_some_iff.mp hget
              have hwaiting : peer.waiting.countP (·.hasPeer) =
                  (peer.waiting.eraseIdx index).countP (·.hasPeer) +
                    if request.hasPeer then 1 else 0 := by
                have hperm := List.getElem_cons_eraseIdx_perm hindex
                rw [hrequest] at hperm
                rw [← hperm.countP_eq, List.countP_cons]
              refine ⟨fun _ => ?_, fun hfreed => absurd hfreed (by simp)⟩
              simp only [perform_count, hrefs, List.countP_append, List.countP_singleton, hwaiting]
              cases request.hasPeer <;> cases lost (backend, request) <;> simp <;> omega
      | delete => exact ⟨fun _ => hrefs, fun hfreed => absurd hfreed (by simp)⟩
      | tick => exact refs_right_tick h halive

/-- The references are right in every run. -/
theorem refs_right (run : List RefEvent) : RefsRight (peerAfter run) :=
  invariant refs_right_init (fun peer event h => refs_right_step peer event h) run

/-- No peer is freed while a request for it waits. -/
theorem waiting_not_freed (run : List RefEvent) {request : TaskRequest}
    (hwaits : request ∈ (peerAfter run).waiting) (hpeer : request.hasPeer = true) :
    (peerAfter run).freed = false := by
  cases hfreed : (peerAfter run).freed with
  | false => rfl
  | true =>
      have hnone := ((refs_right run).gone hfreed).1
      exact absurd hpeer (List.countP_eq_zero.mp hnone request hwaits)

/-- A task ends its request if and only if it does not get lost on its way; and a deleted peer
whose requests have all been performed is freed by the driver if and only if no task has
forgotten its request. -/
theorem tasks_end_iff (backend : Backend) (request : TaskRequest) (run : List RefEvent) :
    (EndsRequest backend request ↔ GetsThrough backend request) ∧
      ((peerAfter run).waiting = [] → (peerAfter run).deleteFlag = true →
        ((peerAfter (run ++ [.tick])).freed = true ↔
          ∀ task ∈ (peerAfter run).ran, Released task)) := by
  refine ⟨ends_request_iff, fun hwaiting hdelete => ?_⟩
  have hright := refs_right run
  have hall : (∀ task ∈ (peerAfter run).ran, Released task) ↔
      (peerAfter run).ran.countP lost = 0 := by
    rw [List.countP_eq_zero]
    refine forall_congr' fun task => forall_congr' fun _ => ?_
    rw [← lost_iff, Bool.not_eq_true]
  have hstep : peerAfter (run ++ [.tick]) = (peerAfter run).step .tick := after_concat
  rw [hall, hstep]
  cases hfreed : (peerAfter run).freed with
  | true =>
      rw [step_tick, if_pos hfreed]
      exact iff_of_true hfreed (hright.gone hfreed).2
  | false =>
      have hrefs := hright.alive hfreed
      rw [hwaiting] at hrefs
      rw [step_tick, hfreed, if_neg Bool.false_ne_true]
      unfold tickOrDeleteClient
      rw [hdelete, if_pos rfl]
      simp only [List.countP_nil] at hrefs
      have hzero : (peerAfter run).refs ≠ 0 := by omega
      rw [if_neg hzero]
      by_cases hone : (peerAfter run).refs = 1
      · rw [if_pos hone]
        exact iff_of_true rfl (by omega)
      · rw [if_neg hone, hfreed]
        exact iff_of_false Bool.false_ne_true (by omega)

end Refs

/-- A request of a client about the keys of a user. -/
def keysRequest (peer : ChatPeer) (username : Bytes) : TaskRequest where
  type := .setUserKeys
  peer := peer
  hasPeer := true
  hasCallback := false
  username := username
  channelName := []
  modify := .empty 0
  withPeer := fun _ => rfl

/-- A database with two users, and a web service that knows nothing. -/
def quietBackend : Backend :=
  ⟨quietEnvironment, twoUsers, .error, []⟩

/-- A client who has set keys of his own is freed. -/
theorem deleted_peer_freed :
    (peerAfter ([.add (keysRequest (chatPeer 2 (ascii "bob") 0) (ascii "bob")),
      .perform 0 quietBackend, .delete] ++ [.tick])).freed = true := by
  refine ((tasks_end_iff quietBackend (keysRequest (chatPeer 2 (ascii "bob") 0) (ascii "bob"))
    [.add (keysRequest (chatPeer 2 (ascii "bob") 0) (ascii "bob")), .perform 0 quietBackend,
      .delete]).2 rfl rfl).mpr fun task htask => ?_
  rw [List.mem_singleton.mp htask]
  exact fun _ => .inl (by decide)

/-- A client who sets the keys of somebody else is never freed. -/
theorem keys_request_forgotten :
    ¬ ∀ backend request, EndsRequest backend request := by
  intro h
  have hreleased := (h quietBackend
    (keysRequest (chatPeer 2 (ascii "bob") 0) (ascii "alice"))).released
  revert hreleased
  decide

end OpenSpy.Peerchat
