import Mathlib.Data.List.Dedup
import OpenSpy.Library.Ascii
import OpenSpy.Library.Runs

/-!
# The game updates of a gamestats peer

`handle_newgame` asks the backend for a game session, and `handle_updgame` submits an update
with the identifier of its session. An update whose session key has no identifier yet waits in
`m_updgame_sesskey_wait_list`, with a reference to the peer, until `newGameCreateCallback` hands
it to `handle_updgame` again. `updateGameCreateCallback` takes the session key out of `extra`,
which `handle_updgame` leaves empty, and so erases what waits for session key 0
(`update_of_session_zero_lost`). Otherwise `game_updates_filed` holds.
-/

namespace OpenSpy.GS.GameUpdates

open Bytes Commands Runs

/-- `MAX_SESSKEY_WAIT`. -/
def maxSesskeyWait : Nat := 10

/-- An `updgame` command, with the number of requests that its peer had submitted when it was
received. -/
structure Update where
  sesskey : Int
  done : Bool
  gamedata : Bytes
  receivedAt : Nat
  deriving DecidableEq

/-- The requests to the backend. -/
inductive Request where
  | newGame (sesskey : Int)
  | updateGame (update : Update) (gameInstanceIdentifier : Bytes)
  deriving DecidableEq

/-- The members of a peer that its game sessions use, its references, and the requests that it
has passed to `AddRequest`. The vectors of `m_updgame_sesskey_wait_list` are in one list here:
that of a session key has the entries with the key. -/
structure Peer where
  sessionBackendIdentifierMap : Int → Option Bytes
  updgameSesskeyWaitList : List Update
  updgameIncrefs : Int
  refCount : Int
  deleteFlag : Bool
  requests : List Request

namespace Peer

/-- A new peer with some references. -/
def init (refCount : Int) : Peer :=
  ⟨fun _ => none, [], 0, refCount, false, []⟩

/-- `IncRef` and `AddRequest`. -/
def addRequest (peer : Peer) (request : Request) : Peer :=
  { peer with refCount := peer.refCount + 1, requests := peer.requests ++ [request] }

/-- The vector of a session key. -/
def waitListOf (peer : Peer) (sesskey : Int) : List Update :=
  peer.updgameSesskeyWaitList.filter (·.sesskey = sesskey)

/-- `m_updgame_sesskey_wait_list.size()`. -/
def waitListSize (peer : Peer) : Nat :=
  (peer.updgameSesskeyWaitList.map (·.sesskey)).dedup.length

/-- `m_updgame_sesskey_wait_list.erase(sesskey)`. -/
def erase (peer : Peer) (sesskey : Int) : Peer :=
  { peer with
    updgameSesskeyWaitList := peer.updgameSesskeyWaitList.filter (·.sesskey ≠ sesskey) }

/-- An update waits, with a reference. -/
def wait (peer : Peer) (update : Update) : Peer :=
  { peer with
    updgameSesskeyWaitList := peer.updgameSesskeyWaitList ++ [update]
    refCount := peer.refCount + 1
    updgameIncrefs := peer.updgameIncrefs + 1 }

/-- More updates or session keys wait than may. -/
def TooMany (peer : Peer) (sesskey : Int) : Prop :=
  (peer.waitListOf sesskey).length > maxSesskeyWait ∨ peer.waitListSize > maxSesskeyWait

instance (peer : Peer) (sesskey : Int) : Decidable (peer.TooMany sesskey) :=
  inferInstanceAs (Decidable (_ ∨ _))

/-- `Peer::handle_updgame`. The error of an invalid session key ends the connection. -/
def handleUpdgame (peer : Peer) (update : Update) : Peer :=
  match peer.sessionBackendIdentifierMap update.sesskey with
  | none =>
      let peer := peer.wait update
      if peer.TooMany update.sesskey then
        { peer with
          -- the references of all updates that wait, of any session key
          refCount := peer.refCount - peer.updgameIncrefs.toNat
          deleteFlag := true }
      else peer
  | some identifier => peer.addRequest (.updateGame update identifier)

/-- `Peer::handle_newgame`. -/
def handleNewgame (peer : Peer) (sesskey : Int) : Peer :=
  peer.addRequest (.newGame sesskey)

/-- `Peer::updateGameCreateCallback`. -/
def updateGameCreateCallback (peer : Peer) (extra : Int) : Peer :=
  peer.erase extra

/-- The loop body of `newGameCreateCallback` for an update that waits. -/
def replayOne (peer : Peer) (update : Update) : Peer :=
  let peer := peer.handleUpdgame update
  { peer with
    refCount := peer.refCount - 1
    updgameIncrefs := peer.updgameIncrefs - 1 }

/-- `Peer::newGameCreateCallback`. -/
def newGameCreateCallback (peer : Peer) (sesskey : Int) (gameInstanceIdentifier : Bytes) : Peer :=
  let peer :=
    { peer with
      sessionBackendIdentifierMap := fun other =>
        if other = sesskey then some gameInstanceIdentifier
        else peer.sessionBackendIdentifierMap other }
  match peer.waitListOf sesskey with
  | [] => peer
  | waiting => (waiting.foldl replayOne peer).erase sesskey

end Peer

/-- The updates among requests, with their identifiers. -/
def updatesOf (requests : List Request) : List (Update × Bytes) :=
  requests.filterMap fun
    | .updateGame update identifier => some (update, identifier)
    | .newGame _ => none

/-- The newgame request of the session of an update: the last one with its session key before it
was received, or else the first one behind that. -/
def IsSession (requests : List Request) (update : Update) (i : Nat) : Prop :=
  requests[i]? = some (.newGame update.sesskey) ∧
    ((i < update.receivedAt ∧
        ∀ j, i < j → j < update.receivedAt → requests[j]? ≠ some (.newGame update.sesskey)) ∨
      (update.receivedAt ≤ i ∧ ∀ j < i, requests[j]? ≠ some (.newGame update.sesskey)))

/-- A peer with the requests that are in flight, by their numbers, the replies that have arrived
for sessions, in order, and the updates that it has received. -/
structure System where
  peer : Peer
  inFlight : List Nat
  answers : List (Nat × Bytes)
  received : List Update

/-- A command comes, or the reply to a request with the identifier in it. -/
inductive Event where
  | newgame (sesskey : Int)
  | updgame (sesskey : Int) (done : Bool) (gamedata : Bytes)
  | reply (request : Nat) (gameInstanceIdentifier : Bytes)
  deriving DecidableEq

namespace System

/-- A new peer. -/
def init (refCount : Int) : System :=
  ⟨.init refCount, [], [], []⟩

/-- The peer goes on, and what it submits is in flight. -/
def withPeer (sys : System) (peer : Peer) : System :=
  { sys with
    peer := peer
    inFlight := sys.inFlight ++
      List.range' sys.peer.requests.length (peer.requests.length - sys.peer.requests.length) }

/-- The update that a command is. -/
def update (sys : System) (sesskey : Int) (done : Bool) (gamedata : Bytes) : Update :=
  ⟨sesskey, done, gamedata, sys.peer.requests.length⟩

/-- The callback for a reply, and the reference that the dispatcher drops behind it. The
`extra` of an update is a null pointer. -/
def callback (peer : Peer) (request : Request) (gameInstanceIdentifier : Bytes) : Peer :=
  let peer :=
    match request with
    | .newGame sesskey => peer.newGameCreateCallback sesskey gameInstanceIdentifier
    -- the session key is read out of `extra`, whatever session the update is of
    | .updateGame _ _ => peer.updateGameCreateCallback 0
  { peer with refCount := peer.refCount - 1 }

/-- One event. Only a request that is in flight is answered. -/
def step (sys : System) : Event → System
  | .newgame sesskey => sys.withPeer (sys.peer.handleNewgame sesskey)
  | .updgame sesskey done gamedata =>
      { sys.withPeer (sys.peer.handleUpdgame (sys.update sesskey done gamedata)) with
        received := sys.received ++ [sys.update sesskey done gamedata] }
  | .reply i gameInstanceIdentifier =>
      match sys.peer.requests[i]? with
      | some request =>
          if i ∈ sys.inFlight then
            let sys' := { sys with inFlight := sys.inFlight.erase i }
            let sys'' := sys'.withPeer (callback sys.peer request gameInstanceIdentifier)
            match request with
            | .newGame _ => { sys'' with answers := sys.answers ++ [(i, gameInstanceIdentifier)] }
            | .updateGame _ _ => sys''
          else sys
      | none => sys

/-- The updates that have been submitted, with the identifiers they were submitted with. -/
def submitted (sys : System) : List (Update × Bytes) :=
  updatesOf sys.peer.requests

/-- Every newgame request has been answered. -/
def NewgamesAnswered (sys : System) : Prop :=
  ∀ i sesskey, sys.peer.requests[i]? = some (.newGame sesskey) → i ∉ sys.inFlight

/-- Each update has been submitted once, those of a session key in the order received, with the
identifier of its session, and the peer has one reference for each request in flight. -/
def Filed (refCount : Int) (sys : System) : Prop :=
  (∀ sesskey, (sys.submitted.map Prod.fst).filter (·.sesskey = sesskey) =
    sys.received.filter (·.sesskey = sesskey)) ∧
  (∀ update identifier, (update, identifier) ∈ sys.submitted →
    ∃ i, IsSession sys.peer.requests update i ∧ (i, identifier) ∈ sys.answers) ∧
  sys.peer.refCount = refCount + sys.inFlight.length

/-- An update that has to wait finds room. -/
def Within (sys : System) (event : Event) : Prop :=
  ∀ sesskey done gamedata, event = .updgame sesskey done gamedata →
    sys.peer.sessionBackendIdentifierMap sesskey = none →
      ¬ (sys.peer.wait (sys.update sesskey done gamedata)).TooMany sesskey

end System

/-- The state that a run of a new peer leads to. -/
abbrev serve (refCount : Int) (run : List Event) : System :=
  after System.step (.init refCount) run

/-- Game updates are neither lost nor misfiled by a run that keeps within the limits. -/
def NeverLost (refCount : Int) (run : List Event) : Prop :=
  AtEach System.step (.init refCount) System.Within run →
    (serve refCount run).NewgamesAnswered → (serve refCount run).Filed refCount

/-- An update of session 5 is answered while one waits for session 0. -/
def zeroLost : List Event :=
  [.newgame 5, .reply 0 (ascii "a"), .newgame 0, .updgame 0 true [], .updgame 5 false [],
    .reply 2 [], .reply 1 (ascii "b")]

/-- The update of session 0 is never submitted. -/
theorem update_of_session_zero_lost : ¬ NeverLost 1 zeroLost := by
  intro h
  have hwithin : AtEach System.step (.init 1) System.Within zeroLost := by
    simp only [zeroLost, at_each_cons]
    refine ⟨?_, ?_, ?_, ?_, ?_, ?_, ?_, at_each_nil⟩
    · rintro _ _ _ ⟨⟩
    · rintro _ _ _ ⟨⟩
    · rintro _ _ _ ⟨⟩
    · rintro _ _ _ ⟨⟩ -
      decide
    · rintro _ _ _ ⟨⟩ hnone
      cases hnone
    · rintro _ _ _ ⟨⟩
    · rintro _ _ _ ⟨⟩
  have hflight : (serve 1 zeroLost).inFlight = [] := rfl
  obtain ⟨horder, -⟩ := h hwithin fun i _ _ => by simp [hflight]
  have hzero : (serve 1 zeroLost).received.filter (·.sesskey = 0) = [⟨0, true, [], 2⟩] := rfl
  have hnone : ((serve 1 zeroLost).submitted.map Prod.fst).filter (·.sesskey = 0) = [] := rfl
  have hlost := horder 0
  rw [hzero, hnone] at hlost
  cases hlost

/-- The newgame reply that has arrived last for a session key. -/
def lastAnswer (requests : List Request) (answers : List (Nat × Bytes)) (sesskey : Int) :
    Option (Nat × Bytes) :=
  (answers.filter fun answer => requests[answer.1]? = some (.newGame sesskey)).getLast?

/-- An update of a session key with an identifier comes when the reply that has arrived last for
the key is that of its session. The reply to a newgame request arrives when only updates of its
session wait for the key, and the reply to an update when none waits for session key 0. -/
structure Orderly (sys : System) (event : Event) : Prop where
  update : ∀ sesskey done gamedata, event = .updgame sesskey done gamedata →
    sys.peer.sessionBackendIdentifierMap sesskey ≠ none →
      ∃ i identifier, IsSession sys.peer.requests (sys.update sesskey done gamedata) i ∧
        lastAnswer sys.peer.requests sys.answers sesskey = some (i, identifier)
  session : ∀ i identifier sesskey, event = .reply i identifier → i ∈ sys.inFlight →
    sys.peer.requests[i]? = some (.newGame sesskey) →
      ∀ update ∈ sys.peer.waitListOf sesskey, IsSession sys.peer.requests update i
  zero : ∀ i identifier update submittedAs, event = .reply i identifier → i ∈ sys.inFlight →
    sys.peer.requests[i]? = some (.updateGame update submittedAs) → sys.peer.waitListOf 0 = []

section Sessions

variable {requests : List Request} {answers : List (Nat × Bytes)} {update : Update} {i : Nat}

/-- The session of an update stays the same. -/
theorem IsSession.append (h : IsSession requests update i)
    (hreceived : update.receivedAt ≤ requests.length) (more : List Request) :
    IsSession (requests ++ more) update i := by
  obtain ⟨hget, hwhere⟩ := h
  obtain ⟨hi, -⟩ := List.getElem?_eq_some_iff.mp hget
  refine ⟨by rwa [List.getElem?_append_left hi], ?_⟩
  rcases hwhere with ⟨hlt, hlast⟩ | ⟨hle, hfirst⟩
  · refine .inl ⟨hlt, fun j hj hjlt => ?_⟩
    rw [List.getElem?_append_left (hjlt.trans_le hreceived)]
    exact hlast j hj hjlt
  · refine .inr ⟨hle, fun j hj => ?_⟩
    rw [List.getElem?_append_left (hj.trans hi)]
    exact hfirst j hj

/-- A reply is to a request that was submitted before. -/
theorem last_answer_append (h : ∀ answer ∈ answers, answer.1 < requests.length)
    (more : List Request) (sesskey : Int) :
    lastAnswer (requests ++ more) answers sesskey = lastAnswer requests answers sesskey := by
  have hfilter : answers.filter (fun answer =>
        (requests ++ more)[answer.1]? = some (.newGame sesskey)) =
      answers.filter (fun answer => requests[answer.1]? = some (.newGame sesskey)) := by
    refine List.filter_congr fun answer hmem => ?_
    rw [List.getElem?_append_left (h answer hmem)]
  rw [lastAnswer, hfilter, lastAnswer]

/-- A reply to a newgame request is the last one for its session key. -/
theorem last_answer_concat {sesskey : Int} (h : requests[i]? = some (.newGame sesskey))
    (identifier : Bytes) :
    lastAnswer requests (answers ++ [(i, identifier)]) sesskey = some (i, identifier) := by
  simp [lastAnswer, h]

theorem last_answer_concat_other {sesskey other : Int}
    (h : requests[i]? = some (.newGame sesskey)) (hne : other ≠ sesskey) (identifier : Bytes) :
    lastAnswer requests (answers ++ [(i, identifier)]) other =
      lastAnswer requests answers other := by
  have hother : ¬ sesskey = other := Ne.symm hne
  simp [lastAnswer, h, hother]

/-- The newgame requests that are in flight and those that are answered. -/
structure Tracked (requests : List Request) (inFlight : List Nat)
    (answers : List (Nat × Bytes)) : Prop where
  answersLt : ∀ answer ∈ answers, answer.1 < requests.length
  newgames : ∀ i sesskey, requests[i]? = some (.newGame sesskey) →
    i ∈ inFlight ∨ ∃ identifier, (i, identifier) ∈ answers

/-- What is submitted is in flight. -/
theorem Tracked.append {inFlight : List Nat} (h : Tracked requests inFlight answers)
    (more : List Request) :
    Tracked (requests ++ more) (inFlight ++ List.range' requests.length more.length) answers where
  answersLt answer hmem := by
    rw [List.length_append]
    exact Nat.lt_add_right _ (h.answersLt answer hmem)
  newgames i sesskey hget := by
    by_cases hi : i < requests.length
    · rw [List.getElem?_append_left hi] at hget
      exact (h.newgames i sesskey hget).imp_left (List.mem_append_left _)
    · obtain ⟨hlt, -⟩ := List.getElem?_eq_some_iff.mp hget
      rw [List.length_append] at hlt
      exact .inl (List.mem_append_right _ (List.mem_range'_1.mpr ⟨by omega, hlt⟩))

/-- The reply to a newgame request arrives. -/
theorem Tracked.answer {inFlight : List Nat} (h : Tracked requests inFlight answers)
    (hi : i < requests.length) (identifier : Bytes) :
    Tracked requests (inFlight.erase i) (answers ++ [(i, identifier)]) where
  answersLt answer hmem := by
    rcases List.mem_append.mp hmem with hold | hnew
    · exact h.answersLt answer hold
    · rwa [List.mem_singleton.mp hnew]
  newgames j sesskey hget := by
    by_cases hj : j = i
    · exact .inr ⟨identifier, by simp [hj]⟩
    · rcases h.newgames j sesskey hget with hflight | ⟨old, hold⟩
      · exact .inl ((List.mem_erase_of_ne hj).mpr hflight)
      · exact .inr ⟨old, List.mem_append_left _ hold⟩

/-- The reply to an update arrives. -/
theorem Tracked.updated {inFlight : List Nat} (h : Tracked requests inFlight answers)
    {update : Update} {identifier : Bytes}
    (hget : requests[i]? = some (.updateGame update identifier)) :
    Tracked requests (inFlight.erase i) answers where
  answersLt := h.answersLt
  newgames j sesskey hnewgame := by
    have hj : j ≠ i := by
      rintro rfl
      rw [hget] at hnewgame
      cases hnewgame
    exact (h.newgames j sesskey hnewgame).imp_left (List.mem_erase_of_ne hj).mpr

end Sessions

/-- What the members of a peer say of its updates. -/
structure Kept (refCount : Int) (sys : System) : Prop where
  tracked : Tracked sys.peer.requests sys.inFlight sys.answers
  inOrder : ∀ sesskey, sys.received.filter (·.sesskey = sesskey) =
    (sys.submitted.map Prod.fst).filter (·.sesskey = sesskey) ++ sys.peer.waitListOf sesskey
  references : sys.peer.refCount =
    refCount + sys.inFlight.length + sys.peer.updgameSesskeyWaitList.length
  identified : ∀ sesskey, sys.peer.sessionBackendIdentifierMap sesskey =
    (lastAnswer sys.peer.requests sys.answers sesskey).map Prod.snd
  noneWaits : ∀ sesskey, sys.peer.sessionBackendIdentifierMap sesskey ≠ none →
    sys.peer.waitListOf sesskey = []
  filed : ∀ update identifier, (update, identifier) ∈ sys.submitted →
    ∃ i, IsSession sys.peer.requests update i ∧ (i, identifier) ∈ sys.answers
  receivedBefore : ∀ update ∈ sys.received, update.receivedAt ≤ sys.peer.requests.length

section Steps

variable {refCount : Int} {sys : System}

theorem updates_of_append (requests more : List Request) :
    updatesOf (requests ++ more) = updatesOf requests ++ updatesOf more :=
  List.filterMap_append

/-- An update that is found an identifier for is submitted. -/
theorem handle_updgame_some {peer : Peer} {update : Update} {identifier : Bytes}
    (h : peer.sessionBackendIdentifierMap update.sesskey = some identifier) :
    peer.handleUpdgame update = peer.addRequest (.updateGame update identifier) := by
  rw [Peer.handleUpdgame, h]

/-- An update without an identifier waits. -/
theorem handle_updgame_none {peer : Peer} {update : Update}
    (h : peer.sessionBackendIdentifierMap update.sesskey = none)
    (hroom : ¬ (peer.wait update).TooMany update.sesskey) :
    peer.handleUpdgame update = peer.wait update := by
  rw [Peer.handleUpdgame, h]
  exact if_neg hroom

/-- An update that has waited is submitted, and its reference is dropped. -/
theorem replay_one_eq {peer : Peer} {update : Update} {identifier : Bytes}
    (h : peer.sessionBackendIdentifierMap update.sesskey = some identifier) :
    peer.replayOne update =
      { peer with
        requests := peer.requests ++ [.updateGame update identifier]
        updgameIncrefs := peer.updgameIncrefs - 1 } := by
  rw [Peer.replayOne, handle_updgame_some h, Peer.addRequest]
  simp

/-- The updates that have waited for a session key are submitted in their order. -/
theorem replay_eq {peer : Peer} {sesskey : Int} {identifier : Bytes}
    (h : peer.sessionBackendIdentifierMap sesskey = some identifier) {waiting : List Update}
    (hwaiting : ∀ update ∈ waiting, update.sesskey = sesskey) :
    waiting.foldl Peer.replayOne peer =
      { peer with
        requests := peer.requests ++ waiting.map (Request.updateGame · identifier)
        updgameIncrefs := peer.updgameIncrefs - waiting.length } := by
  induction waiting generalizing peer with
  | nil => simp
  | cons update rest ih =>
      have hone : peer.replayOne update = _ :=
        replay_one_eq (by rw [hwaiting update (.head _)]; exact h)
      rw [List.foldl_cons, hone,
        ih (by exact h) fun other hother => hwaiting other (.tail _ hother)]
      simp only [List.map_cons, List.append_assoc, List.singleton_append, List.length_cons,
        Nat.cast_add, Nat.cast_one, Peer.mk.injEq, true_and, and_true]
      omega

/-- To erase a session key that nothing waits for changes nothing. -/
theorem erase_eq_self {peer : Peer} {sesskey : Int} (h : peer.waitListOf sesskey = []) :
    peer.erase sesskey = peer := by
  have hsame : peer.updgameSesskeyWaitList.filter (·.sesskey ≠ sesskey) =
      peer.updgameSesskeyWaitList := by
    refine List.filter_eq_self.mpr fun update hmem => ?_
    have hother := List.filter_eq_nil_iff.mp h update hmem
    simpa using hother
  rw [Peer.erase, hsame]

theorem wait_list_erase_same (peer : Peer) (sesskey : Int) :
    (peer.erase sesskey).waitListOf sesskey = [] := by
  rw [Peer.waitListOf, List.filter_eq_nil_iff]
  intro update hmem
  simpa using (List.mem_filter.mp hmem).2

theorem wait_list_erase_other (peer : Peer) {sesskey other : Int} (h : other ≠ sesskey) :
    (peer.erase sesskey).waitListOf other = peer.waitListOf other := by
  rw [Peer.waitListOf, Peer.erase, List.filter_filter, Peer.waitListOf]
  refine List.filter_congr fun update _ => ?_
  by_cases hkey : update.sesskey = other
  · simp [hkey, h]
  · simp [hkey]

/-- The updates that wait wait for the session key or for another. -/
theorem length_erase (peer : Peer) (sesskey : Int) :
    (peer.erase sesskey).updgameSesskeyWaitList.length + (peer.waitListOf sesskey).length =
      peer.updgameSesskeyWaitList.length := by
  have hsplit := List.length_eq_length_filter_add (l := peer.updgameSesskeyWaitList)
    (fun update => decide (update.sesskey = sesskey))
  simp only [Peer.erase, Peer.waitListOf, decide_not]
  omega

/-- What the reply to a newgame request does. -/
theorem new_game_create_callback_eq (peer : Peer) (sesskey : Int) (identifier : Bytes) :
    peer.newGameCreateCallback sesskey identifier =
      { peer.erase sesskey with
        sessionBackendIdentifierMap := fun other =>
          if other = sesskey then some identifier else peer.sessionBackendIdentifierMap other
        requests := peer.requests ++
          (peer.waitListOf sesskey).map (Request.updateGame · identifier)
        updgameIncrefs := peer.updgameIncrefs - (peer.waitListOf sesskey).length } := by
  have hkeys : ∀ update ∈ peer.waitListOf sesskey, update.sesskey = sesskey := by
    intro update hmem
    simpa using (List.mem_filter.mp hmem).2
  rw [Peer.newGameCreateCallback]
  show (match peer.waitListOf sesskey with
    | [] => _
    | waiting => _) = _
  cases hwaiting : peer.waitListOf sesskey with
  | nil =>
      rw [erase_eq_self hwaiting]
      simp
  | cons update rest =>
      rw [hwaiting] at hkeys
      dsimp only
      rw [replay_eq (by exact if_pos rfl) hkeys]
      rfl

theorem updates_of_map (waiting : List Update) (identifier : Bytes) :
    updatesOf (waiting.map (Request.updateGame · identifier)) =
      waiting.map fun update => (update, identifier) := by
  induction waiting with
  | nil => rfl
  | cons update rest ih => exact congrArg ((update, identifier) :: ·) ih

/-- The peer submits requests and goes on. -/
theorem with_peer_eq {peer : Peer} {more : List Request}
    (h : peer.requests = sys.peer.requests ++ more) :
    sys.withPeer peer =
      { sys with
        peer := peer
        inFlight := sys.inFlight ++ List.range' sys.peer.requests.length more.length } := by
  simp [System.withPeer, h]

/-- An update that was submitted has been received. -/
theorem Kept.received_of_submitted (h : Kept refCount sys) {update : Update} {identifier : Bytes}
    (hmem : (update, identifier) ∈ sys.submitted) : update ∈ sys.received := by
  have hfst : update ∈ sys.submitted.map Prod.fst := List.mem_map_of_mem hmem
  have hkey : update ∈ sys.received.filter (·.sesskey = update.sesskey) := by
    rw [h.inOrder]
    exact List.mem_append_left _ (List.mem_filter.mpr ⟨hfst, by simp⟩)
  exact (List.mem_filter.mp hkey).1

/-- An update that waits has been received. -/
theorem Kept.received_of_waiting (h : Kept refCount sys) {update : Update} {sesskey : Int}
    (hmem : update ∈ sys.peer.waitListOf sesskey) : update ∈ sys.received := by
  have hkey : update ∈ sys.received.filter (·.sesskey = sesskey) := by
    rw [h.inOrder]
    exact List.mem_append_right _ hmem
  exact (List.mem_filter.mp hkey).1

/-- What has been filed stays so when requests are submitted and answered. -/
theorem Kept.filed_append (h : Kept refCount sys) {update : Update} {identifier : Bytes}
    (hmem : (update, identifier) ∈ sys.submitted) (more : List Request)
    (answers : List (Nat × Bytes)) :
    ∃ i, IsSession (sys.peer.requests ++ more) update i ∧
      (i, identifier) ∈ sys.answers ++ answers := by
  obtain ⟨i, hsession, hanswer⟩ := h.filed update identifier hmem
  have hreceived := h.receivedBefore update (h.received_of_submitted hmem)
  exact ⟨i, hsession.append hreceived more, List.mem_append_left _ hanswer⟩

/-- A newgame command comes. -/
theorem Kept.newgame (h : Kept refCount sys) (sesskey : Int) :
    Kept refCount (sys.step (.newgame sesskey)) := by
  have hrequests : (sys.peer.handleNewgame sesskey).requests =
      sys.peer.requests ++ [.newGame sesskey] := rfl
  have hsubmitted : updatesOf (sys.peer.requests ++ [.newGame sesskey]) = sys.submitted := by
    rw [updates_of_append]
    exact List.append_nil _
  rw [System.step, with_peer_eq hrequests]
  exact {
    tracked := h.tracked.append [.newGame sesskey]
    inOrder := by
      intro other
      rw [System.submitted, hrequests, hsubmitted]
      exact h.inOrder other
    references := by
      have hrefs := h.references
      simp only [Peer.handleNewgame, Peer.addRequest, List.length_append, List.length_range',
        List.length_singleton, Nat.cast_add, Nat.cast_one]
      omega
    identified := by
      intro other
      rw [hrequests, last_answer_append h.tracked.answersLt]
      exact h.identified other
    noneWaits := h.noneWaits
    filed := by
      intro update identifier hmem
      rw [System.submitted, hrequests, hsubmitted] at hmem
      rw [hrequests]
      simpa using h.filed_append hmem [.newGame sesskey] []
    receivedBefore := by
      intro update hmem
      have hle := h.receivedBefore update hmem
      rw [hrequests, List.length_append]
      omega }

/-- An update comes that has to wait. -/
theorem Kept.updgame_waits (h : Kept refCount sys) {sesskey : Int} {done : Bool}
    {gamedata : Bytes} (hmap : sys.peer.sessionBackendIdentifierMap sesskey = none)
    (hroom : ¬ (sys.peer.wait (sys.update sesskey done gamedata)).TooMany sesskey) :
    Kept refCount (sys.step (.updgame sesskey done gamedata)) := by
  have hrequests : (sys.peer.wait (sys.update sesskey done gamedata)).requests =
      sys.peer.requests ++ [] := (List.append_nil _).symm
  rw [System.step, handle_updgame_none hmap hroom, with_peer_eq hrequests, List.length_nil,
    List.range'_zero, List.append_nil]
  exact {
    tracked := h.tracked
    inOrder := by
      intro other
      rw [List.filter_append, h.inOrder other]
      simp only [Peer.wait, Peer.waitListOf, List.filter_append, List.append_assoc]
      rfl
    references := by
      have hrefs := h.references
      simp only [Peer.wait, List.length_append, List.length_singleton, Nat.cast_add, Nat.cast_one]
      omega
    identified := h.identified
    noneWaits := by
      intro other hother
      have hne : ¬ sesskey = other := by
        rintro rfl
        exact hother hmap
      have hold := h.noneWaits other hother
      simp only [Peer.waitListOf] at hold
      simp [Peer.wait, Peer.waitListOf, List.filter_append, hold, System.update, hne]
    filed := h.filed
    receivedBefore := by
      intro update hmem
      rcases List.mem_append.mp hmem with hold | hnew
      · exact h.receivedBefore update hold
      · rw [List.mem_singleton.mp hnew]
        exact le_rfl }

/-- An update comes that is submitted at once, with the identifier of its session. -/
theorem Kept.updgame_submitted (h : Kept refCount sys) {sesskey : Int} {done : Bool}
    {gamedata identifier : Bytes}
    (hmap : sys.peer.sessionBackendIdentifierMap sesskey = some identifier) {i : Nat}
    (hsession : IsSession sys.peer.requests (sys.update sesskey done gamedata) i)
    (hanswer : (i, identifier) ∈ sys.answers) :
    Kept refCount (sys.step (.updgame sesskey done gamedata)) := by
  have hrequests : (sys.peer.addRequest
        (.updateGame (sys.update sesskey done gamedata) identifier)).requests =
      sys.peer.requests ++ [.updateGame (sys.update sesskey done gamedata) identifier] := rfl
  have hsubmitted : updatesOf (sys.peer.requests ++
        [.updateGame (sys.update sesskey done gamedata) identifier]) =
      sys.submitted ++ [(sys.update sesskey done gamedata, identifier)] :=
    updates_of_append _ _
  rw [System.step, handle_updgame_some hmap, with_peer_eq hrequests]
  exact {
    tracked := h.tracked.append [.updateGame (sys.update sesskey done gamedata) identifier]
    inOrder := by
      intro other
      have hwaits : (sys.update sesskey done gamedata).sesskey = other →
          sys.peer.waitListOf other = [] := by
        rintro rfl
        exact h.noneWaits _ (by rw [System.update, hmap]; exact Option.some_ne_none _)
      rw [System.submitted, hrequests, hsubmitted, List.map_append, List.filter_append,
        List.filter_append, h.inOrder other]
      show _ = _ ++ _ ++ sys.peer.waitListOf other
      by_cases hkey : (sys.update sesskey done gamedata).sesskey = other
      · rw [hwaits hkey]
        simp
      · simp [hkey]
    references := by
      have hrefs := h.references
      simp only [Peer.addRequest, List.length_append, List.length_range',
        List.length_singleton, Nat.cast_add, Nat.cast_one]
      omega
    identified := by
      intro other
      rw [hrequests, last_answer_append h.tracked.answersLt]
      exact h.identified other
    noneWaits := h.noneWaits
    filed := by
      intro update submittedAs hmem
      rw [System.submitted, hrequests, hsubmitted] at hmem
      rw [hrequests]
      rcases List.mem_append.mp hmem with hold | hnew
      · simpa using h.filed_append hold
          [.updateGame (sys.update sesskey done gamedata) identifier] []
      · obtain ⟨rfl, rfl⟩ := Prod.mk.inj (List.mem_singleton.mp hnew)
        exact ⟨i, hsession.append le_rfl _, hanswer⟩
    receivedBefore := by
      intro update hmem
      rw [hrequests, List.length_append]
      rcases List.mem_append.mp hmem with hold | hnew
      · have hle := h.receivedBefore update hold
        omega
      · rw [List.mem_singleton.mp hnew]
        exact Nat.le_add_right _ _ }

/-- A request that is not in flight is not answered. -/
theorem step_reply_none {i : Nat} (hflight : i ∉ sys.inFlight) (identifier : Bytes) :
    sys.step (.reply i identifier) = sys := by
  rw [System.step]
  cases sys.peer.requests[i]? with
  | none => rfl
  | some request => exact if_neg hflight

/-- The updates of a session are submitted in reply to its newgame request. -/
theorem step_reply_newgame {i : Nat} {sesskey : Int}
    (hget : sys.peer.requests[i]? = some (.newGame sesskey)) (hflight : i ∈ sys.inFlight)
    (identifier : Bytes) :
    sys.step (.reply i identifier) =
      { peer :=
          { sys.peer.erase sesskey with
            sessionBackendIdentifierMap := fun other =>
              if other = sesskey then some identifier
              else sys.peer.sessionBackendIdentifierMap other
            requests := sys.peer.requests ++
              (sys.peer.waitListOf sesskey).map (Request.updateGame · identifier)
            updgameIncrefs := sys.peer.updgameIncrefs - (sys.peer.waitListOf sesskey).length
            refCount := sys.peer.refCount - 1 }
        inFlight := sys.inFlight.erase i ++
          List.range' sys.peer.requests.length (sys.peer.waitListOf sesskey).length
        answers := sys.answers ++ [(i, identifier)]
        received := sys.received } := by
  rw [System.step, hget]
  dsimp only
  rw [if_pos hflight, System.callback, new_game_create_callback_eq]
  simp [System.withPeer, Peer.erase]

/-- The reply to an update changes nothing else if no update waits for session key 0. -/
theorem step_reply_update {i : Nat} {update : Update} {submittedAs : Bytes}
    (hget : sys.peer.requests[i]? = some (.updateGame update submittedAs))
    (hflight : i ∈ sys.inFlight) (hzero : sys.peer.waitListOf 0 = []) (identifier : Bytes) :
    sys.step (.reply i identifier) =
      { sys with
        peer := { sys.peer with refCount := sys.peer.refCount - 1 }
        inFlight := sys.inFlight.erase i } := by
  rw [System.step, hget]
  dsimp only
  rw [if_pos hflight, System.callback, Peer.updateGameCreateCallback, erase_eq_self hzero]
  simp [System.withPeer]

/-- An answer takes one request out of flight. -/
theorem length_erase_add_one {i : Nat} (hflight : i ∈ sys.inFlight) :
    (sys.inFlight.erase i).length + 1 = sys.inFlight.length := by
  have hpos := List.length_pos_of_mem hflight
  rw [List.length_erase_of_mem hflight]
  omega

/-- The reply to a newgame request comes. -/
theorem Kept.reply_newgame (h : Kept refCount sys) {i : Nat} {sesskey : Int}
    (hget : sys.peer.requests[i]? = some (.newGame sesskey)) (hflight : i ∈ sys.inFlight)
    (hsession : ∀ update ∈ sys.peer.waitListOf sesskey, IsSession sys.peer.requests update i)
    (identifier : Bytes) : Kept refCount (sys.step (.reply i identifier)) := by
  obtain ⟨hi, -⟩ := List.getElem?_eq_some_iff.mp hget
  have htracked := (h.tracked.answer hi identifier).append
    ((sys.peer.waitListOf sesskey).map (Request.updateGame · identifier))
  have hsubmitted : updatesOf (sys.peer.requests ++
        (sys.peer.waitListOf sesskey).map (Request.updateGame · identifier)) =
      sys.submitted ++ (sys.peer.waitListOf sesskey).map fun update => (update, identifier) := by
    rw [updates_of_append, updates_of_map, System.submitted]
  have hkeys : ∀ update ∈ sys.peer.waitListOf sesskey, update.sesskey = sesskey := by
    intro update hmem
    simpa using (List.mem_filter.mp hmem).2
  rw [step_reply_newgame hget hflight]
  exact {
    tracked := by simpa using htracked
    inOrder := by
      intro other
      have hfst : ((sys.peer.waitListOf sesskey).map fun update => (update, identifier)).map
          Prod.fst = sys.peer.waitListOf sesskey := by simp [Function.comp_def]
      rw [System.submitted, hsubmitted, List.map_append, List.filter_append, h.inOrder other,
        List.append_assoc, hfst]
      show _ = _ ++ (_ ++ (sys.peer.erase sesskey).waitListOf other)
      by_cases hother : other = sesskey
      · subst hother
        have hall : (sys.peer.waitListOf other).filter (·.sesskey = other) =
            sys.peer.waitListOf other :=
          List.filter_eq_self.mpr fun update hmem => by simpa using hkeys update hmem
        rw [wait_list_erase_same, hall, List.append_nil]
      · have hnone : (sys.peer.waitListOf sesskey).filter (·.sesskey = other) = [] := by
          rw [List.filter_eq_nil_iff]
          intro update hmem
          simpa [hkeys update hmem] using Ne.symm hother
        rw [wait_list_erase_other _ hother, hnone, List.nil_append]
    references := by
      have hrefs := h.references
      have hlength := length_erase_add_one hflight
      have hwaits := length_erase sys.peer sesskey
      simp only [List.length_append, List.length_range']
      omega
    identified := by
      intro other
      have hlt := (h.tracked.answer hi identifier).answersLt
      simp only
      rw [last_answer_append hlt]
      split
      · rename_i hsame
        subst hsame
        rw [last_answer_concat hget]
        rfl
      · rename_i hother
        rw [last_answer_concat_other hget hother]
        exact h.identified other
    noneWaits := by
      intro other hother
      show (sys.peer.erase sesskey).waitListOf other = []
      by_cases hsame : other = sesskey
      · rw [hsame, wait_list_erase_same]
      · rw [wait_list_erase_other _ hsame]
        apply h.noneWaits
        simpa only [if_neg hsame] using hother
    filed := by
      intro update submittedAs hmem
      simp only [System.submitted, hsubmitted] at hmem
      rcases List.mem_append.mp hmem with hold | hnew
      · exact h.filed_append hold _ _
      · obtain ⟨waiting, hwaiting, heq⟩ := List.mem_map.mp hnew
        obtain ⟨rfl, rfl⟩ := Prod.mk.inj heq
        have hreceived := h.receivedBefore waiting (h.received_of_waiting hwaiting)
        exact ⟨i, (hsession waiting hwaiting).append hreceived _, by simp⟩
    receivedBefore := by
      intro update hmem
      have hle := h.receivedBefore update hmem
      simp only [List.length_append]
      omega }

/-- The reply to an update comes. -/
theorem Kept.reply_update (h : Kept refCount sys) {i : Nat} {update : Update} {submittedAs : Bytes}
    (hget : sys.peer.requests[i]? = some (.updateGame update submittedAs))
    (hflight : i ∈ sys.inFlight) (hzero : sys.peer.waitListOf 0 = []) (identifier : Bytes) :
    Kept refCount (sys.step (.reply i identifier)) := by
  rw [step_reply_update hget hflight hzero]
  exact { h with
    tracked := h.tracked.updated hget
    references := by
      have hrefs := h.references
      have hlength := length_erase_add_one hflight
      simp only
      omega }

/-- One event that meets the condition. -/
theorem Kept.step (h : Kept refCount sys) {event : Event} (hwithin : sys.Within event)
    (horderly : Orderly sys event) : Kept refCount (sys.step event) := by
  cases event with
  | newgame sesskey => exact h.newgame sesskey
  | updgame sesskey done gamedata =>
      cases hmap : sys.peer.sessionBackendIdentifierMap sesskey with
      | none => exact h.updgame_waits hmap (hwithin sesskey done gamedata rfl hmap)
      | some identifier =>
          obtain ⟨i, answered, hsession, hlast⟩ :=
            horderly.update sesskey done gamedata rfl (by simp [hmap])
          have hidentifier := h.identified sesskey
          rw [hlast, hmap] at hidentifier
          obtain rfl : identifier = answered := by simpa using hidentifier
          have hmem := List.mem_of_getLast? hlast
          exact h.updgame_submitted hmap hsession (List.mem_filter.mp hmem).1
  | reply i identifier =>
      by_cases hflight : i ∈ sys.inFlight
      · cases hget : sys.peer.requests[i]? with
        | none =>
            have hstep : sys.step (.reply i identifier) = sys := by rw [System.step, hget]
            rw [hstep]
            exact h
        | some request =>
            cases request with
            | newGame sesskey =>
                exact h.reply_newgame hget hflight
                  (horderly.session i identifier sesskey rfl hflight hget) identifier
            | updateGame update submittedAs =>
                exact h.reply_update hget hflight
                  (horderly.zero i identifier update submittedAs rfl hflight hget) identifier
      · rw [step_reply_none hflight]
        exact h

/-- A new peer. -/
theorem Kept.init (refCount : Int) : Kept refCount (.init refCount) where
  tracked := ⟨by simp [System.init], by simp [System.init, Peer.init]⟩
  inOrder _ := rfl
  references := by simp [System.init, Peer.init]
  identified _ := rfl
  noneWaits _ _ := rfl
  filed := by simp [System.submitted, System.init, Peer.init, updatesOf]
  receivedBefore := by simp [System.init]

/-- Nothing waits for a session key whose newgame request has been answered. -/
theorem Kept.none_waits (h : Kept refCount sys) (hanswered : sys.NewgamesAnswered)
    (hknown : ∀ update ∈ sys.received, .newGame update.sesskey ∈ sys.peer.requests) :
    sys.peer.updgameSesskeyWaitList = [] := by
  rw [List.eq_nil_iff_forall_not_mem]
  intro update hmem
  have hwaits : update ∈ sys.peer.waitListOf update.sesskey :=
    List.mem_filter.mpr ⟨hmem, by simp⟩
  obtain ⟨i, hget⟩ := List.mem_iff_getElem?.mp (hknown update (h.received_of_waiting hwaits))
  obtain ⟨identifier, hanswer⟩ :=
    (h.tracked.newgames i _ hget).resolve_left (hanswered i _ hget)
  have hlast : lastAnswer sys.peer.requests sys.answers update.sesskey ≠ none := by
    rw [lastAnswer, Ne, List.getLast?_eq_none_iff, List.filter_eq_nil_iff]
    intro hnone
    exact hnone _ hanswer (by simp [hget])
  have hmap : sys.peer.sessionBackendIdentifierMap update.sesskey ≠ none := by
    rw [h.identified]
    simpa using hlast
  rw [h.noneWaits _ hmap] at hwaits
  cases hwaits

end Steps

/-- In a run that meets the condition game updates are neither lost nor misfiled, once each
session key that they use has been used by a newgame command. -/
theorem game_updates_filed (refCount : Int) (run : List Event)
    (horderly : AtEach System.step (.init refCount) Orderly run)
    (hknown : ∀ update ∈ (serve refCount run).received,
      .newGame update.sesskey ∈ (serve refCount run).peer.requests) :
    NeverLost refCount run := by
  intro hwithin hanswered
  have h : Kept refCount (serve refCount run) := by
    refine @invariant_of_at_each _ _ System.step (.init refCount) run (Kept refCount)
      (fun sys event => sys.Within event ∧ Orderly sys event) (.init refCount)
      (fun sys event hkept hmeets => hkept.step hmeets.1 hmeets.2) ?_
    exact fun before next rest heq => ⟨hwithin before next rest heq, horderly before next rest heq⟩
  have hnone := h.none_waits hanswered hknown
  refine ⟨fun sesskey => ?_, h.filed, ?_⟩
  · rw [h.inOrder, Peer.waitListOf, hnone]
    simp
  · have hrefs := h.references
    rw [hnone] at hrefs
    simpa using hrefs

/-- An update waits for the reply to its newgame request. -/
theorem game_updates_filed_waiting :
    NeverLost 1 [.newgame 5, .updgame 5 true [], .reply 0 (ascii "a")] := by
  refine game_updates_filed 1 _ ?_ ?_
  · simp only [at_each_cons]
    refine ⟨?_, ?_, ?_, at_each_nil⟩
    · exact ⟨by rintro _ _ _ ⟨⟩, by rintro _ _ _ ⟨⟩, by rintro _ _ _ _ ⟨⟩⟩
    · refine ⟨?_, by rintro _ _ _ ⟨⟩, by rintro _ _ _ _ ⟨⟩⟩
      rintro _ _ _ ⟨⟩ hmap
      exact absurd rfl hmap
    · refine ⟨by rintro _ _ _ ⟨⟩, ?_, ?_⟩
      · rintro _ _ _ ⟨⟩ - hget update hmem
        obtain rfl : 5 = _ := Request.newGame.inj (Option.some.inj hget)
        have hsame : update = ⟨5, true, [], 1⟩ := List.mem_singleton.mp hmem
        rw [hsame]
        exact ⟨rfl, .inl ⟨by decide, by intro j hj hlt; simp at hlt; omega⟩⟩
      · rintro _ _ _ _ ⟨⟩ - hget
        cases hget
  · show ∀ update ∈ [(⟨5, true, [], 1⟩ : Update)], .newGame update.sesskey ∈
      [Request.newGame 5, .updateGame ⟨5, true, [], 1⟩ (ascii "a")]
    decide

end OpenSpy.GS.GameUpdates
