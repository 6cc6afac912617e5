import OpenSpy.Library.Runs
import OpenSpy.UTMaster.Heartbeat

/-!
# Server events of the Unreal master

A heartbeat of an unknown server announces it with `new`, others are an `update`, and the end of a
connection a `del`. `isServerDeleted` waits for an integer, but redis answers `HGET` with a string,
so that a server that has been deleted is found as if it were there. `events_follow_iff` says that
the events of an address are in order as long as no task of it comes behind a deletion.
-/

namespace OpenSpy.UTMaster

open Bytes Runs
open QR (Event EventKind Alternate UpdatesInLife Announced Told)

/-- A task that sends events. -/
inductive Task where
  | heartbeat (request : HeartbeatRequest)
  | deleteServer (address : Address)

/-- The address that a task is about. -/
def Task.address : Task → Address
  | heartbeat request => request.record.address
  | deleteServer address => address

namespace Store

variable (s : Store)

/-- A task is run to its end. -/
def runTask : Task → Store
  | .heartbeat request => s.performHeartbeat request
  | .deleteServer address => s.performDeleteServer address

/-- The kinds of the events sent. -/
def kinds : List EventKind :=
  s.events.map (·.kind)

/-- The field `deleted` of the record that an address leads to. -/
def deletedField (address : Address) : Option Bytes :=
  (s.ipMap address).bind fun serverKey => s.servers serverKey (ascii "deleted")

/-- The record of an address is marked as deleted. -/
def MarkedDeleted (address : Address) : Prop :=
  s.deletedField address = some (ascii "1")

instance (address : Address) : Decidable (s.MarkedDeleted address) :=
  inferInstanceAs (Decidable (_ = _))

/-- The events are in order, and the last one announces the server just if the address has a record
that is not marked as deleted. -/
def EventsFollow (address : Address) : Prop :=
  Alternate s.kinds ∧ UpdatesInLife s.kinds ∧
    (Announced s.kinds ↔ (s.ipMap address).isSome ∧ ¬ s.MarkedDeleted address)

/-- The events tell the life of the record of an address. -/
def TellsLife (address : Address) (alive : Bool) : Prop :=
  Told s.kinds alive ∧ s.ipMap address ≠ some [] ∧
    (alive ↔ (s.ipMap address).isSome ∧ ¬ s.MarkedDeleted address)

end Store

/-- `HGET` of a hash has no integer for its reply, so that no server counts as deleted. -/
theorem is_server_deleted_eq_false (s : Store) (serverKey : Bytes) :
    s.isServerDeleted serverKey = false := by
  unfold Store.isServerDeleted hget
  cases s.servers serverKey (ascii "deleted") <;> rfl

theorem get_server_key_from_ip_map_eq (s : Store) (address : Address) :
    s.getServerKeyFromIpMap address = (s.ipMap address).getD [] := by
  unfold Store.getServerKeyFromIpMap
  cases s.ipMap address with
  | none => rfl
  | some serverKey => simp [is_server_deleted_eq_false]

/-- What `WriteServerData` leaves of a deletion. -/
theorem deleted_of_basic_keys (hash : Redis.Hash) (serverKey : Bytes) (now : Nat)
    (record : ServerRecord) :
    Redis.hmset hash (cStrings (basicKeys serverKey now record)) (ascii "deleted") =
      some (ascii "0") :=
  rfl

/-- A heartbeat sends `update` if its address leads to a record, and otherwise `new`, and leaves a
record that is not deleted. -/
theorem perform_heartbeat_spec (s : Store) (request : HeartbeatRequest)
    (hmap : s.ipMap request.record.address ≠ some []) :
    (s.performHeartbeat request).kinds =
        s.kinds ++ [if (s.ipMap request.record.address).isSome then .update else .new] ∧
      (∃ serverKey ≠ [],
        (s.performHeartbeat request).ipMap request.record.address = some serverKey) ∧
      (s.performHeartbeat request).deletedField request.record.address = some (ascii "0") := by
  have hwritten : ∀ (next : Store) serverKey, serverKey ≠ [] → ∀ kind,
      let written := (next.writeServerData request serverKey).sendEvent kind serverKey
      written.kinds = next.kinds ++ [kind] ∧
        (∃ serverKey ≠ [], written.ipMap request.record.address = some serverKey) ∧
        written.deletedField request.record.address = some (ascii "0") := by
    intro next serverKey hkey kind written
    refine ⟨?_, ⟨serverKey, hkey, ?_⟩, ?_⟩
    · simp [written, Store.kinds, Store.sendEvent, Store.writeServerData]
    · simp [written, Store.sendEvent, Store.writeServerData]
    · simp [written, Store.deletedField, Store.sendEvent, Store.writeServerData,
        deleted_of_basic_keys]
  unfold Store.performHeartbeat Store.getServerKeyFromRequest
  rw [get_server_key_from_ip_map_eq]
  cases hserver : s.ipMap request.record.address with
  | none => exact hwritten _ _ (by simp) .new
  | some serverKey =>
      have hkey : serverKey ≠ [] := fun heq => hmap (heq ▸ hserver)
      have hlength : serverKey.length > 0 := List.length_pos_iff.mpr hkey
      simp only [Option.getD_some, hlength, if_true]
      exact hwritten s serverKey hkey .update

/-- A deletion sends `del` and marks the record that its address leads to, or does nothing. -/
theorem perform_delete_server_spec (s : Store) (address : Address)
    (hmap : s.ipMap address ≠ some []) :
    if (s.ipMap address).isSome then
      (s.performDeleteServer address).kinds = s.kinds ++ [.del] ∧
        (s.performDeleteServer address).ipMap = s.ipMap ∧
        (s.performDeleteServer address).MarkedDeleted address
    else s.performDeleteServer address = s := by
  unfold Store.performDeleteServer
  rw [get_server_key_from_ip_map_eq]
  cases hserver : s.ipMap address with
  | none => simp
  | some serverKey =>
      have hkey : serverKey ≠ [] := fun heq => hmap (heq ▸ hserver)
      have hlength : serverKey.length > 0 := List.length_pos_iff.mpr hkey
      simp only [Option.isSome_some, if_true, Option.getD_some, hlength]
      refine ⟨?_, rfl, ?_⟩
      · simp [Store.kinds, Store.sendEvent]
      · simp [Store.MarkedDeleted, Store.deletedField, Store.sendEvent, hserver]

namespace Store

variable {s : Store} {address : Address} {alive : Bool}

/-- What the events tell is what the store says. -/
theorem TellsLife.events_follow (h : s.TellsLife address alive) : s.EventsFollow address :=
  ⟨h.1.alternate, h.1.updates_in_life, h.1.announced_iff.trans h.2.2⟩

/-- A task that finds no deleted record keeps the events in order. -/
theorem TellsLife.run_task (h : s.TellsLife address alive) {task : Task}
    (haddress : task.address = address) (hlive : ¬ s.MarkedDeleted address) :
    ∃ alive, (s.runTask task).TellsLife address alive := by
  obtain ⟨htold, hmap, halive⟩ := h
  have hfound : alive = (s.ipMap address).isSome := by
    rw [Bool.eq_iff_iff, halive, and_iff_left hlive]
  cases task with
  | heartbeat request =>
      obtain rfl : request.record.address = address := haddress
      obtain ⟨hkinds, ⟨serverKey, hkey, hserver⟩, hdeleted⟩ :=
        perform_heartbeat_spec s request hmap
      refine ⟨true, ?_, ?_, ?_⟩
      · rw [runTask, hkinds]
        cases hsome : (s.ipMap request.record.address).isSome with
        | true => exact .update (by rwa [hfound, hsome] at htold)
        | false => exact .new (by rwa [hfound, hsome] at htold)
      · rw [runTask, hserver]
        exact fun heq => hkey (Option.some.inj heq)
      · rw [runTask, hserver, MarkedDeleted, hdeleted]
        exact iff_of_true rfl ⟨rfl, by decide⟩
  | deleteServer deleted =>
      obtain rfl : deleted = address := haddress
      have hspec := perform_delete_server_spec s deleted hmap
      rw [← hfound] at hspec
      cases alive with
      | false =>
          refine ⟨false, ?_⟩
          rw [runTask, hspec]
          exact ⟨htold, hmap, halive⟩
      | true =>
          obtain ⟨hkinds, hsame, hmarked⟩ := hspec
          refine ⟨false, ?_, ?_, ?_⟩
          · rw [runTask, hkinds]
            exact .del htold
          · rwa [runTask, hsame]
          · simp [runTask, hmarked]

/-- A task that finds a deleted record puts the events out of order. -/
theorem TellsLife.live_of_follow (h : s.TellsLife address alive) {task : Task}
    (haddress : task.address = address) (hfollow : (s.runTask task).EventsFollow address) :
    ¬ s.MarkedDeleted address := by
  intro hmarked
  obtain ⟨htold, hmap, halive⟩ := h
  obtain rfl : alive = false := by
    rw [Bool.eq_false_iff]
    exact fun hlive => (halive.mp hlive).2 hmarked
  have hsome : (s.ipMap address).isSome := by
    unfold MarkedDeleted deletedField at hmarked
    cases hserver : s.ipMap address with
    | none => simp [hserver] at hmarked
    | some serverKey => rfl
  cases task with
  | heartbeat request =>
      obtain rfl : request.record.address = address := haddress
      obtain ⟨hkinds, -, -⟩ := perform_heartbeat_spec s request hmap
      have hupdates := hfollow.2.1
      rw [runTask, hkinds, if_pos hsome] at hupdates
      exact htold.not_updates_update hupdates
  | deleteServer deleted =>
      obtain rfl : deleted = address := haddress
      have hspec := perform_delete_server_spec s deleted hmap
      rw [if_pos hsome] at hspec
      have halternate := hfollow.1
      rw [runTask, hspec.1] at halternate
      exact htold.not_alternate_del halternate

end Store

/-- The events of an address follow the life of its record all along a run of its tasks just if no
task finds a record that is marked as deleted. -/
theorem events_follow_iff (address : Address) (s : Store) (hnew : s.ipMap address = none)
    (hsilent : s.events = []) (run : List Task) (hrun : ∀ task ∈ run, task.address = address) :
    (∀ before, before <+: run → (after Store.runTask s before).EventsFollow address) ↔
      AtEach Store.runTask s (fun s _ => ¬ s.MarkedDeleted address) run := by
  have hstart : ∃ alive, s.TellsLife address alive := by
    refine ⟨false, ?_, ?_, ?_⟩
    · simpa [Store.kinds, hsilent] using Told.nil
    · simp [hnew]
    · simp [hnew]
  refine @shown_throughout_iff _ _ Store.runTask _ _ (fun s => ∃ alive, s.TellsLife address alive)
    _ (fun s => s.EventsFollow address) hstart ?_ ?_ ?_
  · rintro s ⟨alive, hlife⟩
    exact hlife.events_follow
  · rintro s task htask ⟨alive, hlife⟩ hlive
    exact hlife.run_task (hrun task htask) hlive
  · rintro s task htask ⟨alive, hlife⟩ hfollow
    exact hlife.live_of_follow (hrun task htask) hfollow

/-- The address of a server. -/
def hostAddress : Address :=
  ⟨⟨10, 0, 0, 1⟩, 7777⟩

/-- The record of a server that reports nothing but its name. -/
def hostRecord : ServerRecord :=
  { id := 0
    address := hostAddress
    gameid := 0
    hostname := ascii "host"
    level := ascii "DM-Rankin"
    gameGroup := ascii "xDeathMatch"
    botLevel := []
    numPlayers := 0
    maxPlayers := 16
    rules := []
    mutators := [] }

/-- A heartbeat of the server. -/
def hostHeartbeat : Task :=
  .heartbeat ⟨0, ascii "ut2004", hostRecord⟩

/-- A server sends two heartbeats and ends its connection. -/
theorem host_events_follow :
    AtEach Store.runTask .empty (fun s _ => ¬ s.MarkedDeleted hostAddress)
        [hostHeartbeat, hostHeartbeat, .deleteServer hostAddress] ∧
      ∀ before, before <+: [hostHeartbeat, hostHeartbeat, .deleteServer hostAddress] →
        (after Store.runTask .empty before).EventsFollow hostAddress := by
  have hunmarked : AtEach Store.runTask .empty (fun s _ => ¬ s.MarkedDeleted hostAddress)
      [hostHeartbeat, hostHeartbeat, .deleteServer hostAddress] := by
    decide
  exact ⟨hunmarked, (events_follow_iff hostAddress .empty rfl rfl
    [hostHeartbeat, hostHeartbeat, .deleteServer hostAddress] (by decide)).mpr hunmarked⟩

/-- The connection ends twice. -/
theorem deleted_twice :
    ¬ ∀ address (s : Store) run, s.ipMap address = none → s.events = [] →
      (∀ task ∈ run, task.address = address) →
      ∀ before, before <+: run → (after Store.runTask s before).EventsFollow address := by
  intro h
  have hfollow := h hostAddress .empty
    [hostHeartbeat, .deleteServer hostAddress, .deleteServer hostAddress] rfl rfl (by decide) _
    (List.prefix_refl _)
  have hlast := hfollow.1 2 .del (by decide)
  exact absurd hlast (by decide)

end OpenSpy.UTMaster
