import Mathlib.Logic.Function.Basic
import OpenSpy.Core.Address
import OpenSpy.Library.Commands
import OpenSpy.Library.MachineInt

/-!
# The store of the QR tasks

What the heartbeat and validation tasks keep in redis: the maps from addresses to server keys,
the counter for new server ids, and for each server key a record, of which the fields are here
that the tasks read. `Cmd` has the commands they issue, and the sending of a server event, which
goes to the message broker.

The key space is split by the prefixes of its keys. No key expires.
-/

namespace OpenSpy.QR

open Commands

/-- `OS::Address`. -/
structure Address where
  ip : IPv4
  port : Nat
  deriving DecidableEq, Repr

/-- A key that maps an address to a server key: `IPINSTMAP_`, `IPMAP_` or `QR1MAP_`. -/
inductive MapKey where
  | ipInst (instanceKey : Nat) (address : Address)
  | ip (address : Address)
  | qr1 (address : Address)
  deriving DecidableEq, Repr

/-- A field of a server's record. -/
inductive Field where
  | deleted
  | numUpdates
  | challenge
  | id
  | instanceKey
  | wanIp
  | wanPort
  deriving DecidableEq, Repr

/-- What the text of a field stands for. -/
abbrev Field.Value : Field → Type
  | deleted => Bool
  | numUpdates => Int
  | challenge => Bytes
  | id => Int
  | instanceKey => Nat
  | wanIp => Bytes
  | wanPort => Nat

/-- A server's record. It is there if it has a field. -/
abbrev Record := (field : Field) → Option field.Value

/-- The record of a server key that is not there. -/
def Record.empty : Record := fun _ => none

/-- A record is there. -/
def Record.Present (record : Record) : Prop :=
  ∃ field, (record field).isSome

/-- The kinds of server events. -/
inductive EventKind where
  | new
  | update
  | del
  deriving DecidableEq, Repr

/-- A message on the server event channel. -/
structure Event where
  kind : EventKind
  serverKey : Bytes
  deriving DecidableEq, Repr

/-- A redis command, or the sending of a server event. -/
inductive Cmd where
  | get (key : MapKey)
  | exist (key : MapKey)
  | set (key : MapKey) (value : Bytes)
  | incrPk
  | hget (key : Bytes) (field : Field)
  | hexists (key : Bytes) (field : Field)
  | hset (key : Bytes) (field : Field) (value : field.Value)
  | hdel (key : Bytes) (field : Field)
  | hincrby (key : Bytes)
  | hmset (key : Bytes) (pairs : List ((field : Field) × field.Value))
  | send (event : Event)

/-- The reply of a command. -/
abbrev Cmd.Reply : Cmd → Type
  | get _ => Option Bytes
  | exist _ => Bool
  | incrPk => Int
  | hget _ field => Option field.Value
  | hexists _ _ => Bool
  | hincrby _ => Int
  | set _ _ | hset _ _ _ | hdel _ _ | hmset _ _ | send _ => Unit

/-- The keys in redis, and the events sent. -/
structure Store where
  maps : MapKey → Option Bytes
  pk : Int
  records : Bytes → Record
  events : List Event

/-- A store without keys. -/
def Store.empty : Store :=
  ⟨fun _ => none, 0, fun _ => .empty, []⟩

/-- The store with a field of a record set or removed. -/
def Store.setField (s : Store) (key : Bytes) (field : Field) (value : Option field.Value) :
    Store :=
  { s with
    records := Function.update s.records key (Function.update (s.records key) field value) }

/-- A command's reply, and the store behind it. `HINCRBY`, which is only used for
`num_updates`, has an error for its reply if the count would overflow, which `hiredis` reads as
0. -/
def exec : (cmd : Cmd) → Store → cmd.Reply × Store
  | .get key, s => (s.maps key, s)
  | .exist key, s => ((s.maps key).isSome, s)
  | .set key value, s => ((), { s with maps := Function.update s.maps key (some value) })
  | .incrPk, s => (s.pk + 1, { s with pk := s.pk + 1 })
  | .hget key field, s => (s.records key field, s)
  | .hexists key field, s => ((s.records key field).isSome, s)
  | .hset key field value, s => ((), s.setField key field (some value))
  | .hdel key field, s => ((), s.setField key field none)
  | .hincrby key, s =>
      let count := (s.records key .numUpdates).getD 0 + 1
      if count < 2 ^ 63 then (count, s.setField key .numUpdates (some count)) else (0, s)
  | .hmset key pairs, s =>
      ((), pairs.foldl (fun s pair => s.setField key pair.1 (some pair.2)) s)
  | .send event, s => ((), { s with events := s.events ++ [event] })

/-- A program of the QR tasks. -/
abbrev QRProg (α : Type) := Prog Cmd.Reply α

/-- The program that issues one command. -/
abbrev redis (cmd : Cmd) : QRProg cmd.Reply :=
  Prog.issue cmd

@[simp] theorem set_field_same (s : Store) (key : Bytes) (field : Field)
    (value : Option field.Value) : (s.setField key field value).records key field = value := by
  simp [Store.setField]

theorem set_field_field {field other : Field} (h : other ≠ field) (s : Store) (key : Bytes)
    (value : Option field.Value) :
    (s.setField key field value).records key other = s.records key other := by
  simp [Store.setField, h]

theorem set_field_key {key other : Bytes} (h : other ≠ key) (s : Store) (field : Field)
    (value : Option field.Value) :
    (s.setField key field value).records other = s.records other := by
  simp [Store.setField, h]

/-- Setting a field leaves the others alone. -/
theorem set_field_other {key other : Bytes} {field written : Field}
    (h : ¬ (key = other ∧ field = written)) (s : Store) (value : Option written.Value) :
    (s.setField other written value).records key field = s.records key field := by
  by_cases hkey : key = other
  · subst hkey
    exact set_field_field (fun hfield => h ⟨rfl, hfield⟩) s key value
  · rw [set_field_key hkey]

@[simp] theorem set_field_events (s : Store) (key : Bytes) (field : Field)
    (value : Option field.Value) : (s.setField key field value).events = s.events :=
  rfl

end OpenSpy.QR
