import OpenSpy.Core.Strings
import OpenSpy.Library.Redis
import OpenSpy.QR.ServerEvents

/-!
# Heartbeats of Unreal servers

A game server reports itself in heartbeats, which `PerformHeartbeat` stores under a server key, and
`PerformDeleteServer` marks the record as deleted when the connection of the server ends. Both find
the key of a server by its address, and both send an event about it.

The key space is split by the prefixes of its keys, and no key expires. The names of games and the
server keys are C strings.
-/

namespace OpenSpy.UTMaster

open Bytes MachineInt Redis
open QR (Event EventKind)

/-- An `OS::Address`, with the port that `GetPort` answers. -/
structure Address where
  ip : IPv4
  port : UInt16
  deriving DecidableEq, Repr

/-- A `MM::ServerRecord` without its players, which no task reads. `m_rules` is a map, with its
entries in order. -/
structure ServerRecord where
  id : Int32
  address : Address
  gameid : Int32
  hostname : Bytes
  level : Bytes
  gameGroup : Bytes
  botLevel : Bytes
  numPlayers : Int32
  maxPlayers : Int32
  rules : List (Bytes × Bytes)
  mutators : List Bytes
  deriving DecidableEq, Repr

/-- `m_rules[field] = property`. -/
def setRule (field property : Bytes) : List (Bytes × Bytes) → List (Bytes × Bytes)
  | [] => [(field, property)]
  | rule :: rules =>
      if field = rule.1 then (field, property) :: rules
      else if field < rule.1 then (field, property) :: rule :: rules
      else rule :: setRule field property rules

/-- `ServerRecord::isStandardServer`, whose test of the mutators is left out of the build. -/
def isStandardServer (_ : ServerRecord) : Bool :=
  true

/-- What `handle_heartbeat` reads from the message of a server, without the addresses and the
players, and with `bot_level` only from clients of version 3000 and later. -/
structure HeartbeatMessage where
  port : UInt32
  hostname : Bytes
  level : Bytes
  gameGroup : Bytes
  numPlayers : Int32
  maxPlayers : Int32
  botLevel : Bytes
  fields : List (Bytes × Bytes)
  deriving DecidableEq, Repr

/-- One turn of the loop over the fields of a heartbeat. -/
def addField (record : ServerRecord) (field : Bytes × Bytes) : ServerRecord :=
  if field.1 = ascii "mutator" then { record with mutators := record.mutators ++ [field.2] }
  else { record with rules := setRule field.1 field.2 record.rules }

/-- `Peer::handle_heartbeat` up to the request. The id of the record is not set. -/
def handleHeartbeat (clientVersion : UInt32) (gameid : Int32) (ip : IPv4) (undef : Int32)
    (message : HeartbeatMessage) : ServerRecord :=
  let record : ServerRecord :=
    { id := undef
      address := ⟨ip, message.port.toUInt16⟩
      gameid := gameid
      hostname := message.hostname
      level := message.level
      gameGroup := message.gameGroup
      botLevel := if clientVersion ≥ 3000 then message.botLevel else []
      numPlayers := message.numPlayers
      maxPlayers := message.maxPlayers
      rules := []
      mutators := [] }
  let record := message.fields.foldl addField record
  { record with
    rules := setRule (ascii "ServerVersion") (printNat clientVersion.toNat) record.rules }

/-- The keys in redis, and the events sent. A server has a hash under its key and another one under
its key with `custkeys` behind it. -/
structure Store where
  ipMap : Address → Option Bytes
  pk : Int
  servers : Bytes → Hash
  custKeys : Bytes → Hash
  games : Bytes → List Bytes
  events : List Event

/-- A database without servers. -/
def Store.empty : Store :=
  ⟨fun _ => none, 0, fun _ _ => none, fun _ _ => none, fun _ => [], []⟩

/-- A reply of redis, for the types that are told apart. -/
inductive Reply where
  | nil
  | integer (value : Int)
  | string (text : Bytes)

/-- The reply of `HGET`. -/
def hget (hash : Hash) (field : Bytes) : Reply :=
  match hash field with
  | none => .nil
  | some text => .string text

/-- A request that a task is run for, with the time and the game of the peer. -/
structure HeartbeatRequest where
  now : Nat
  gamename : Bytes
  record : ServerRecord

/-- `GetMutatorsString`. -/
def getMutatorsString (mutators : List Bytes) : Bytes :=
  mutators.flatMap fun mutator => char '\\' :: mutator

/-- A truth value as `injectFilterVariables` writes it. -/
def boolText (value : Bool) : Bytes :=
  if value then ascii "true" else ascii "false"

/-- The keys that are written for the filters of browsers. -/
def filterVariables (record : ServerRecord) : List (Bytes × Bytes) :=
  let nobots :=
    match record.rules.lookup (ascii "MinPlayers") with
    | none => true
    | some minPlayers => atoi minPlayers == 0
  let ruleOr := fun name => (record.rules.lookup (ascii name)).getD (ascii "False")
  [(ascii "currentplayers", printInt record.numPlayers.toInt),
    (ascii "category", record.botLevel),
    (ascii "freespace", if record.numPlayers < record.maxPlayers then ascii "1" else ascii "0"),
    (ascii "nomutators", boolText (record.mutators.length == 0)),
    (ascii "standard", boolText (isStandardServer record)),
    (ascii "nobots", boolText nobots),
    (ascii "transloc", ruleOr "Translocator"),
    (ascii "weaponstay", ruleOr "WeaponStay"),
    (ascii "stats", ruleOr "GameStats"),
    (ascii "password", ruleOr "GamePassword")]

/-- The first keys that are written under `custkeys`. -/
def fixedKeys (gamename : Bytes) (record : ServerRecord) : List (Bytes × Bytes) :=
  [(ascii "gamename", gamename),
    (ascii "hostname", record.hostname),
    (ascii "mapname", record.level),
    (ascii "gametype", record.gameGroup),
    (ascii "botlevel", record.botLevel),
    (ascii "numplayers", printInt record.numPlayers.toInt),
    (ascii "maxplayers", printInt record.maxPlayers.toInt)]

/-- The keys that are written to the record itself. -/
def basicKeys (serverKey : Bytes) (now : Nat) (record : ServerRecord) : List (Bytes × Bytes) :=
  [(ascii "wan_port", printNat record.address.port.toNat),
    (ascii "wan_ip", inetNtop record.address.ip),
    (ascii "gameid", printInt record.gameid.toInt),
    (ascii "id", serverKey),
    (ascii "deleted", ascii "0"),
    (ascii "mutators", getMutatorsString record.mutators),
    (ascii "last_heartbeat", printNat now)]

/-- The arguments of an `HMSET`, which are C strings. -/
def cStrings (pairs : List (Bytes × Bytes)) : List (Bytes × Bytes) :=
  pairs.map fun pair => (cString pair.1, cString pair.2)

/-- What is written under `custkeys`, in the order of the commands. -/
def custKeysPairs (gamename : Bytes) (record : ServerRecord) : List (Bytes × Bytes) :=
  cStrings (fixedKeys gamename record ++ record.rules ++ filterVariables record)

namespace Store

variable (s : Store)

/-- `isServerDeleted`, which looks for an integer. -/
def isServerDeleted (serverKey : Bytes) : Bool :=
  let ret :=
    match hget (s.servers serverKey) (ascii "deleted") with
    | .integer value => int32 value
    | .string _ | .nil => -1
  ret == 1

/-- `GetServerKey_FromIPMap`, which answers an empty key for a server that is not found. -/
def getServerKeyFromIpMap (address : Address) : Bytes :=
  match s.ipMap address with
  | none => []
  | some serverKey => if s.isServerDeleted serverKey then [] else serverKey

/-- `GetServerKey_FromRequest`: the key and the id of the server, and whether it is new. -/
def getServerKeyFromRequest (gamename : Bytes) (address : Address) : Bytes × Int × Bool × Store :=
  let serverKey := s.getServerKeyFromIpMap address
  if serverKey.length > 0 then (serverKey, 0, false, s)
  else
    let id := int32 (s.pk + 1)
    (gamename ++ char ':' :: printInt id ++ [char ':'], id, true, { s with pk := s.pk + 1 })

/-- `WriteServerData`. -/
def writeServerData (request : HeartbeatRequest) (serverKey : Bytes) : Store :=
  { s with
    servers := Function.update s.servers serverKey
      (hmset (s.servers serverKey) (cStrings (basicKeys serverKey request.now request.record)))
    custKeys := Function.update s.custKeys serverKey
      (hmset (s.custKeys serverKey) (custKeysPairs request.gamename request.record))
    ipMap := Function.update s.ipMap request.record.address (some serverKey)
    games := Function.update s.games request.gamename
      (zadd (s.games request.gamename) serverKey) }

/-- `sendAMQPMessage` on the channel of server events. -/
def sendEvent (kind : EventKind) (serverKey : Bytes) : Store :=
  { s with events := s.events ++ [⟨kind, serverKey⟩] }

/-- `PerformHeartbeat`. -/
def performHeartbeat (request : HeartbeatRequest) : Store :=
  let (serverKey, _, isNewServer, next) :=
    s.getServerKeyFromRequest request.gamename request.record.address
  (next.writeServerData request serverKey).sendEvent (if isNewServer then .new else .update)
    serverKey

/-- `PerformDeleteServer`. -/
def performDeleteServer (address : Address) : Store :=
  let serverKey := s.getServerKeyFromIpMap address
  if serverKey.length > 0 then
    ({ s with
        servers := Function.update s.servers serverKey
          (Function.update (s.servers serverKey) (ascii "deleted") (some (ascii "1"))) } : Store
      ).sendEvent .del serverKey
  else s

end Store

end OpenSpy.UTMaster
