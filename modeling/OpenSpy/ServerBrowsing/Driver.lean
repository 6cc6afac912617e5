import OpenSpy.Library.Rank
import OpenSpy.ServerBrowsing.GetServers

/-!
# Server events for the peers

`SB::Driver` keeps the events that are added in a queue for each kind, and hands them to its
peers once a tick, first what was deleted, then what is new, then what was updated.
`FifoDriver` is what a driver with one queue would do. `events_in_order_iff` says when a peer
cannot tell the two apart.
-/

namespace OpenSpy.ServerBrowsing

open Bytes Rank

/-- The server of an event. -/
def ServerEvent.server : ServerEvent → Server
  | .deleted server | .new server | .update server => server

/-- The place of an event among the queues of a tick. -/
def ServerEvent.rank : ServerEvent → Nat
  | .deleted _ => 0
  | .new _ => 1
  | .update _ => 2

/-- A server that was deleted. -/
def ServerEvent.deletedServer : ServerEvent → Option Server
  | .deleted server => some server
  | _ => none

/-- A server that is new. -/
def ServerEvent.newServer : ServerEvent → Option Server
  | .new server => some server
  | _ => none

/-- A server that was updated. -/
def ServerEvent.updateServer : ServerEvent → Option Server
  | .update server => some server
  | _ => none

/-- The peers that are connected, each once in the list. -/
structure PeerList (P : Type*) where
  peers : List P
  nodup : peers.Nodup

/-- A call of `AddDeleteServer`, `AddNewServer` or `AddUpdateServer`, or of `TickConnections`. -/
inductive DriverEvent (P : Type*)
  | add (event : ServerEvent)
  | tick (connected : PeerList P)

/-- The three queues of a driver. -/
structure Driver where
  deleteQueue : List Server
  newQueue : List Server
  updateQueue : List Server

/-- A driver with empty queues. -/
def Driver.start : Driver := ⟨[], [], []⟩

/-- `AddDeleteServer`, `AddNewServer` and `AddUpdateServer`. -/
def Driver.add (driver : Driver) : ServerEvent → Driver
  | .deleted server => { driver with deleteQueue := driver.deleteQueue ++ [server] }
  | .new server => { driver with newQueue := driver.newQueue ++ [server] }
  | .update server => { driver with updateQueue := driver.updateQueue ++ [server] }

section

variable {P : Type*}

/-- `SendDeleteServer`, `SendNewServer` and `SendUpdateServer`: the event is handed to every
peer. -/
def sendEvent (connected : PeerList P) (event : ServerEvent) : List (P × ServerEvent) :=
  connected.peers.map fun peer => (peer, event)

/-- The calls of `inform*` in a tick. -/
def Driver.tickCalls (driver : Driver) (connected : PeerList P) : List (P × ServerEvent) :=
  driver.deleteQueue.flatMap (sendEvent connected <| .deleted ·) ++
    driver.newQueue.flatMap (sendEvent connected <| .new ·) ++
    driver.updateQueue.flatMap (sendEvent connected <| .update ·)

/-- The calls of `inform*` in a run. -/
def Driver.run (driver : Driver) : List (DriverEvent P) → List (P × ServerEvent)
  | [] => []
  | .add event :: events => (driver.add event).run events
  | .tick connected :: events => driver.tickCalls connected ++ Driver.start.run events

/-- A driver with one queue. -/
structure FifoDriver where
  queue : List ServerEvent

/-- The calls of `inform*` in a run of a driver with one queue. -/
def FifoDriver.run (driver : FifoDriver) : List (DriverEvent P) → List (P × ServerEvent)
  | [] => []
  | .add event :: events => FifoDriver.run ⟨driver.queue ++ [event]⟩ events
  | .tick connected :: events =>
      driver.queue.flatMap (sendEvent connected) ++ FifoDriver.run ⟨[]⟩ events

variable [DecidableEq P]

/-- The calls to one peer for one server key. -/
def callsFor (peer : P) (key : Bytes) (calls : List (P × ServerEvent)) : List ServerEvent :=
  calls.filterMap fun call =>
    if call.1 = peer ∧ call.2.server.key = key then some call.2 else none

/-- The events for one server key. -/
def eventsFor (key : Bytes) (events : List ServerEvent) : List ServerEvent :=
  events.filter (·.server.key = key)

/-- At every tick at which the peer is connected, no event of the key that was added since the
tick before it has an event of an earlier queue behind it. -/
def TicksSorted (peer : P) (key : Bytes) : List ServerEvent → List (DriverEvent P) → Prop
  | _, [] => True
  | pending, .add event :: events => TicksSorted peer key (pending ++ [event]) events
  | pending, .tick connected :: events =>
      (peer ∈ connected.peers →
        (eventsFor key pending).Pairwise fun event later => event.rank ≤ later.rank) ∧
      TicksSorted peer key [] events

/-- Whether a subscriber has the server after an event. -/
def applyEvent (present : Bool) : ServerEvent → Bool
  | .deleted _ => false
  | .new _ => true
  | .update _ => present

/-- The last event that is not an update is a new one. -/
def LastIsNew (events : List ServerEvent) : Prop :=
  ∃ server, (events.filter (·.rank ≠ 2)).getLast? = some (.new server)

end

/-- The queues hold the events that were added since the last tick. -/
structure Queued (driver : Driver) (pending : List ServerEvent) : Prop where
  deleted : driver.deleteQueue = pending.filterMap ServerEvent.deletedServer
  new : driver.newQueue = pending.filterMap ServerEvent.newServer
  update : driver.updateQueue = pending.filterMap ServerEvent.updateServer

/-- Adding an event keeps this. -/
theorem Queued.add {driver : Driver} {pending : List ServerEvent} (h : Queued driver pending)
    (event : ServerEvent) : Queued (driver.add event) (pending ++ [event]) := by
  constructor <;> cases event <;>
    simp [Driver.add, h.deleted, h.new, h.update, ServerEvent.deletedServer,
      ServerEvent.newServer, ServerEvent.updateServer]

/-- The queues are served rank by rank. -/
theorem queued_events {driver : Driver} {pending : List ServerEvent} (h : Queued driver pending) :
    driver.deleteQueue.map .deleted ++ driver.newQueue.map .new ++ driver.updateQueue.map .update =
      byRank ServerEvent.rank 3 pending := by
  have hqueue (r : Nat) (server : ServerEvent → Option Server) (event : Server → ServerEvent)
      (hrank : ∀ e, (server e).map event = if e.rank = r then some e else none) :
      (pending.filterMap server).map event = pending.filter (·.rank = r) := by
    rw [List.map_filterMap, ← List.filterMap_eq_filter]
    refine List.filterMap_congr fun e _ => ?_
    rw [hrank]
    simp [Option.guard]
  rw [h.deleted, h.new, h.update,
    hqueue 0 ServerEvent.deletedServer .deleted fun e => by cases e <;> rfl,
    hqueue 1 ServerEvent.newServer .new fun e => by cases e <;> rfl,
    hqueue 2 ServerEvent.updateServer .update fun e => by cases e <;> rfl]
  simp [byRank, List.range_succ]

section

variable {P : Type*} [DecidableEq P] (peer : P) (key : Bytes)

theorem calls_for_append (calls others : List (P × ServerEvent)) :
    callsFor peer key (calls ++ others) = callsFor peer key calls ++ callsFor peer key others :=
  List.filterMap_append

/-- A peer gets an event once if it is connected. -/
theorem calls_for_event (connected : PeerList P) (event : ServerEvent) :
    callsFor peer key (sendEvent connected event) =
      if peer ∈ connected.peers ∧ event.server.key = key then [event] else [] := by
  obtain ⟨peers, hnodup⟩ := connected
  show (peers.map fun peer => (peer, event)).filterMap _ = _
  rw [List.filterMap_map]
  induction peers with
  | nil => simp
  | cons other peers ih =>
      obtain ⟨hother, hpeers⟩ := List.nodup_cons.mp hnodup
      rw [List.filterMap_cons, ih hpeers]
      by_cases hkey : event.server.key = key
      · by_cases hpeer : other = peer
        · have hnot : peer ∉ peers := hpeer ▸ hother
          simp [hpeer, hkey, hnot]
        · simp [hpeer, Ne.symm hpeer, hkey]
      · simp [hkey]

/-- A peer gets the events of a tick if it is connected. -/
theorem calls_for_tick (connected : PeerList P) (events : List ServerEvent) :
    callsFor peer key (events.flatMap (sendEvent connected)) =
      if peer ∈ connected.peers then eventsFor key events else [] := by
  induction events with
  | nil => simp [callsFor, eventsFor]
  | cons event events ih =>
      rw [List.flatMap_cons, calls_for_append, calls_for_event, ih]
      by_cases hpeer : peer ∈ connected.peers
      · by_cases hkey : event.server.key = key <;> simp [hpeer, hkey, eventsFor]
      · simp [hpeer]

/-- The events of a key keep their ranks apart. -/
theorem events_for_by_rank (n : Nat) (events : List ServerEvent) :
    eventsFor key (byRank ServerEvent.rank n events) =
      byRank ServerEvent.rank n (eventsFor key events) := by
  rw [eventsFor, byRank, List.filter_flatMap]
  refine List.flatMap_congr fun r _ => ?_
  rw [eventsFor, List.filter_filter, List.filter_filter]
  exact List.filter_congr fun event _ => Bool.and_comm _ _

/-- What a peer gets at a tick. -/
theorem calls_for_driver_tick {driver : Driver} {pending : List ServerEvent}
    (h : Queued driver pending) (connected : PeerList P) :
    callsFor peer key (driver.tickCalls connected) =
      if peer ∈ connected.peers then byRank ServerEvent.rank 3 (eventsFor key pending) else [] := by
  have hcalls : driver.tickCalls connected =
      (byRank ServerEvent.rank 3 pending).flatMap (sendEvent connected) := by
    rw [← queued_events h, List.flatMap_append, List.flatMap_append, List.flatMap_map,
      List.flatMap_map, List.flatMap_map]
    rfl
  rw [hcalls, calls_for_tick, events_for_by_rank]

/-- Only events of three kinds are added. -/
theorem rank_lt (event : ServerEvent) : event.rank < 3 := by
  cases event <;> simp [ServerEvent.rank]

/-- A run of the driver and one of a driver with one queue, from queues with the same events. -/
theorem run_calls_iff {driver : Driver} {pending : List ServerEvent} (h : Queued driver pending)
    (events : List (DriverEvent P)) :
    callsFor peer key (driver.run events) = callsFor peer key (FifoDriver.run ⟨pending⟩ events) ↔
      TicksSorted peer key pending events := by
  induction events generalizing driver pending with
  | nil => exact iff_of_true rfl trivial
  | cons event events ih =>
      cases event with
      | add event => exact ih (h.add event)
      | tick connected =>
          have hrest : callsFor peer key (Driver.start.run events) =
              callsFor peer key (FifoDriver.run ⟨[]⟩ events) ↔ TicksSorted peer key [] events :=
            ih ⟨rfl, rfl, rfl⟩
          have hranks : ∀ event ∈ eventsFor key pending, event.rank < 3 :=
            fun event _ => rank_lt event
          show callsFor peer key (driver.tickCalls connected ++ Driver.start.run events) =
            callsFor peer key (pending.flatMap (sendEvent connected) ++
              FifoDriver.run ⟨[]⟩ events) ↔ _
          rw [calls_for_append, calls_for_append, calls_for_driver_tick peer key h,
            calls_for_tick, TicksSorted, ← hrest, ← by_rank_eq_iff hranks]
          by_cases hpeer : peer ∈ connected.peers
          · -- The calls of the tick are as many for both drivers, so they can be told apart from
            -- those of the ticks behind it.
            rw [if_pos hpeer, if_pos hpeer]
            constructor
            · intro heq
              obtain ⟨htick, hbehind⟩ := List.append_inj heq (length_by_rank hranks)
              exact ⟨fun _ => htick, hbehind⟩
            · intro hboth
              rw [hboth.1 hpeer, hboth.2]
          · simp [hpeer]

/-- A subscriber that applies events has the server exactly if the last one that is not an update
is a new one. -/
theorem foldl_apply_event (events : List ServerEvent) :
    events.foldl applyEvent false = true ↔ LastIsNew events := by
  induction events using List.reverseRecOn with
  | nil => simp [LastIsNew]
  | append_singleton events event ih =>
      rw [List.foldl_append]
      cases event with
      | deleted server => simp [LastIsNew, applyEvent, ServerEvent.rank]
      | new server => simp [LastIsNew, applyEvent, ServerEvent.rank]
      | update server => simpa [LastIsNew, applyEvent, ServerEvent.rank] using ih

/-- In a run of additions and ticks in any order, for every peer and server key: exactly when the
calls for the key are the events in the order in which they were added, each once, and a
subscriber that applies them has the server if the last event that is not an update is a new
one. -/
theorem events_in_order_iff (events : List (DriverEvent P)) :
    (callsFor peer key (Driver.start.run events) =
          callsFor peer key (FifoDriver.run ⟨[]⟩ events) ∧
        ((callsFor peer key (Driver.start.run events)).foldl applyEvent false = true ↔
          LastIsNew (callsFor peer key (FifoDriver.run ⟨[]⟩ events)))) ↔
      TicksSorted peer key [] events := by
  have hstart : Queued Driver.start [] := ⟨rfl, rfl, rfl⟩
  rw [← run_calls_iff peer key hstart events]
  constructor
  · exact And.left
  · intro heq
    exact ⟨heq, heq ▸ foldl_apply_event _⟩

end

/-- A server that is new and deleted before the next tick. -/
def newThenDeleted : List (DriverEvent Nat) :=
  [.add (.new .empty), .add (.deleted .empty), .tick ⟨[0], List.nodup_singleton 0⟩]

/-- A subscriber has it after the tick, although the last event is that it was deleted. -/
theorem deleted_server_stays :
    callsFor 0 [] (Driver.start.run newThenDeleted) ≠
        callsFor 0 [] (FifoDriver.run ⟨[]⟩ newThenDeleted) ∧
      (callsFor 0 [] (Driver.start.run newThenDeleted)).foldl applyEvent false = true ∧
      ¬LastIsNew (callsFor 0 [] (FifoDriver.run ⟨[]⟩ newThenDeleted)) := by
  refine ⟨?_, by decide, ?_⟩
  · intro heq
    have hranks := congrArg (List.map ServerEvent.rank) heq
    exact absurd hranks (by decide)
  · rw [← foldl_apply_event]
    decide

end OpenSpy.ServerBrowsing
