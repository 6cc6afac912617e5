import OpenSpy.UTMaster.HeartbeatReader
import OpenSpy.UTMaster.ListServers

/-!
# Connections of the Unreal master

A connection is challenged, answers with the name of its client, and is from then on the connection
of a game server or of a game client, as the configuration of that name says. `handle_packet` takes
one message of a read, and `Delete` marks the peer, which the loop of the driver removes later, so
that more may be read in between.

The handlers use the configuration of a peer without asking for it; a null pointer that is used is
`none` here. What an answer to a challenge leaves unset is given by parameters.
-/

namespace OpenSpy.UTMaster

open Bytes MachineInt

/-- `UTMASTER_PING_TIME`. -/
def utmasterPingTime : Int := 120

/-- `EConnectionState`. -/
inductive ConnectionState where
  | waitChallengeResponse
  | waitApprovedResponse
  | waitRequest
  deriving DecidableEq, Repr

/-- `UT::PackageItem`. -/
structure PackageItem where
  guid : Bytes
  hash : Bytes
  version : Int32
  deriving DecidableEq, Repr

/-- `UT::MapItem`. -/
structure MapItem where
  version : Int32
  name : Bytes
  description : Bytes
  url : Bytes
  deriving DecidableEq, Repr

/-- `UT::Config`, with the name of the game for its data. -/
structure Config where
  clientName : Bytes
  gameid : Int32
  gamename : Bytes
  motd : Bytes
  isServer : Bool
  latestClientVersion : Int32
  packages : List PackageItem
  communityMotd : Bytes
  maps : List MapItem
  deriving DecidableEq, Repr

/-- A `MM::UTMasterRequest` with what its type uses. -/
inductive Request where
  | listServers (filters : List FilterProperties)
  | heartbeat (record : ServerRecord)
  | deleteServer (address : Address)
  deriving DecidableEq, Repr

/-- `UT::Peer`. `sent` is what `append_send_buffer` was given, `requests` are those that were
queued, and `answered` is the number of them that `on_get_server_list` was called for. -/
structure Peer where
  address : IPv4
  lastRecv : Int
  state : ConnectionState
  config : Option Config
  serverAddress : Address
  clientVersion : UInt32
  gamestatsId : UInt32
  deleteFlag : Bool
  timeoutFlag : Bool
  sent : List Bytes
  requests : List Request
  answered : Nat
  deriving DecidableEq, Repr

/-- `Driver::FindConfigByClientName`. -/
def findConfigByClientName (configs : List Config) (clientName : Bytes) : Option Config :=
  configs.find? fun config => config.clientName == clientName

/-- `Buffer::WriteInt`. -/
def writeInt (value : UInt32) : Bytes :=
  LittleEndian.toBytes 4 value.toNat

/-- What `send_packet` makes of a buffer. -/
def packet (buffer : Bytes) : Bytes :=
  writeInt (.ofNat buffer.length) ++ buffer

/-- The buffer of `send_challenge_response`. -/
def challengeResponse (config : Option Config) (clientVersion : UInt32) (response : Bytes) :
    Bytes :=
  let send := writeFString response
  match config with
  | some config =>
      if !config.isServer && clientVersion ≥ 3000 then send ++ writeInt 3 else send
  | none => send

/-- The buffer of `send_detected_ports`. -/
def detectedPorts (clientVersion : UInt32) : Bytes :=
  if clientVersion ≥ 3000 then
    1 :: (writeInt 120 ++ writeInt 7778 ++ writeInt 7777 ++ writeInt 7787)
  else 1 :: 0 :: writeInt 7777

/-- The buffer of `send_server_gamestatsid`. -/
def serverGamestatsid (id : UInt32) : Bytes :=
  3 :: writeInt id

/-- The packages that `send_packages_data` sends. An `int` is compared with an `uint32_t`. -/
def newerPackages (config : Config) (version : UInt32) : List PackageItem :=
  config.packages.filter fun item => item.version.toUInt32 > version

/-- The buffer of `send_packages_data`. -/
def packagesData (packages : List PackageItem) : Bytes :=
  4 :: (writeCompactInt (int32 packages.length) ++ packages.flatMap fun item =>
    writeFString item.guid ++ writeFString item.hash ++ writeInt item.version.toUInt32)

/-- The buffer of `send_motd`. -/
def motdData (config : Config) (clientVersion : UInt32) : Bytes :=
  writeFString config.motd ++ if clientVersion ≥ 3000 then writeInt 0 else []

/-- The buffer of `send_community_map`. -/
def communityMap (data : MapItem) : Bytes :=
  let part := fun (number : UInt32) text =>
    1 :: (writeInt number ++ writeInt data.version.toUInt32 ++ writeFString text)
  part 0 data.name ++ part 1 data.description ++ part 2 data.url

/-- The buffers that `handle_community_data` sends. -/
def communityData (config : Config) (version : Int32) : List Bytes :=
  (0 :: writeFString config.communityMotd) ::
    ((config.maps.filter fun item => item.version > version).map communityMap ++ [[2]])

/-- A rule of a record is there and has a text. -/
def ruleIs (record : ServerRecord) (name text : String) : Bool :=
  record.rules.lookup (ascii name) == some (ascii text)

/-- A flag at a bit. -/
def flagAt (bit : Nat) (set : Bool) : UInt32 :=
  if set then .ofNat (2 ^ bit) else 0

/-- The buffer of a server in `on_get_server_list`, with the flags as they are. The port of a record
is written as it lies in memory, which is the other way around from what `GetPort` answers. -/
def serverRow (clientVersion flags : UInt32) (server : ServerRecord) : Bytes :=
  let port := htons server.address.port
  let ip := server.address.ip
  [ip.a, ip.b, ip.c, ip.d] ++ LittleEndian.toBytes 2 port.toNat ++
    LittleEndian.toBytes 2 (port.toNat + 1) ++ writeFString server.hostname ++
    writeFString server.level ++ writeFString server.gameGroup ++
    [.ofInt server.numPlayers.toInt, .ofInt server.maxPlayers.toInt] ++
    if clientVersion = 2226 then []
    else if clientVersion ≥ 3000 then writeInt flags ++ writeFString server.botLevel
    else [flags.toUInt8]

/-- The type of a filter. A byte that no type belongs to is one that nothing is compared by. -/
def EQueryType.ofByte (queryType : UInt8) : EQueryType :=
  match queryType.toNat with
  | 0 => equals
  | 1 => notEquals
  | 2 => lessThan
  | 3 => lessThanEquals
  | 4 => greaterThan
  | 5 => greaterThanEquals
  | _ => disabled

/-- A filter of `handle_request_server_list`. -/
def readFilter (buffer : Buffer) : FilterProperties × Buffer :=
  let field := readFString false buffer
  let property := readFString false field.2
  let queryType := property.2.readByte
  (⟨field.1, property.1, .ofByte queryType.1⟩, queryType.2)

/-- The filters that `handle_request_server_list` reads. Their number is a `char`. -/
def readFilters (buffer : Buffer) : List FilterProperties :=
  let (numFilterFields, buffer) := buffer.readByte
  (readEntries readFilter numFilterFields.toBitVec.toInt.toNat buffer).1

namespace Peer

variable (peer : Peer)

/-- `Peer::send_packet`. -/
def sendPacket (buffer : Bytes) : Peer :=
  if peer.deleteFlag then peer else { peer with sent := peer.sent ++ [packet buffer] }

/-- `Peer::AddRequest`. -/
def addRequest (request : Request) : Peer :=
  { peer with requests := peer.requests ++ [request] }

/-- `Peer::delete_server`. -/
def deleteServer : Peer :=
  match peer.config with
  | some config =>
      if config.isServer then peer.addRequest (.deleteServer peer.serverAddress) else peer
  | none => peer

/-- `Peer::Delete`. -/
def delete (timeout : Bool) : Peer :=
  { peer.deleteServer with
    timeoutFlag := timeout
    deleteFlag := true }

/-- `Peer::send_challenge_response`. -/
def sendChallengeResponse (response : String) : Peer :=
  peer.sendPacket (challengeResponse peer.config peer.clientVersion (ascii response))

/-- `Peer::send_challenge_authorization`. -/
def sendChallengeAuthorization (config : Config) : Peer :=
  let state :=
    if peer.clientVersion ≥ 3000 || config.isServer then ConnectionState.waitApprovedResponse
    else .waitRequest
  { peer with state := state }.sendChallengeResponse "APPROVED"

/-- `Peer::handle_challenge_response`. What is only logged at its end is not read. -/
def handleChallengeResponse (configs : List Config) (buffer : Buffer) : Peer :=
  let (_, buffer) := readFString false buffer -- the hash of the key
  let (_, buffer) := readFString false buffer -- the response of the key
  let (client, buffer) := readFString false buffer
  match findConfigByClientName configs client with
  | none => ({ peer with config := none }.sendChallengeResponse "DENIED").delete false
  | some config =>
      let (runningVersion, buffer) := readUInt buffer
      let buffer :=
        if runningVersion ≥ 3000 || !config.isServer then buffer.readByte.2
        else (readUInt buffer).2.readByte.2
      let (_, buffer) := readFString false buffer -- the language
      let (gpuDeviceId, _) := readUInt buffer
      let gamestatsId :=
        if runningVersion ≥ 3000 && config.isServer && gpuDeviceId > 0 then gpuDeviceId else 1234
      { peer with
        config := some config
        clientVersion := runningVersion
        gamestatsId := gamestatsId }.sendChallengeAuthorization config

/-- `Peer::handle_uplink_info`, which sends before it reads what is only logged. -/
def handleUplinkInfo : Peer :=
  peer.sendPacket (detectedPorts peer.clientVersion)

/-- `Peer::handle_packages_version`. -/
def handlePackagesVersion (config : Config) (buffer : Buffer) : Peer :=
  let (version, _) := readUInt buffer
  let peer :=
    if peer.gamestatsId ≠ 0xffffffff then peer.sendPacket (serverGamestatsid peer.gamestatsId)
    else peer
  let packages := newerPackages config version
  if packages = [] then peer else peer.sendPacket (packagesData packages)

/-- `Peer::handle_heartbeat`. -/
def handleHeartbeatPacket (undef : Int32) (config : Config) (buffer : Buffer) : Peer :=
  let record := handleHeartbeat peer.clientVersion config.gameid peer.address undef
    (readHeartbeat peer.clientVersion buffer).message
  { peer with serverAddress := record.address }.addRequest (.heartbeat record)

/-- `Peer::handle_server_command`. A stats update is only logged. -/
def handleServerCommand (undef : Int32) (config : Config) (msgid : UInt8) (buffer : Buffer) :
    Option Peer :=
  match msgid.toNat with
  | 1 => some (peer.handleHeartbeatPacket undef config buffer)
  | 2 => some peer
  | 4 => some (peer.handlePackagesVersion config buffer)
  | _ => none

/-- `Peer::send_motd`. -/
def sendMotd (config : Config) : Peer :=
  if config.isServer then peer
  else (peer.sendPacket (motdData config peer.clientVersion)).delete false

/-- `Peer::handle_community_data`. -/
def handleCommunityData (config : Config) (buffer : Buffer) : Peer :=
  if config.isServer then peer
  else
    let (version, _) := readUInt buffer
    ((communityData config version.toInt32).foldl sendPacket peer).delete false

/-- `Peer::handle_request_server_list`. -/
def handleRequestServerList (buffer : Buffer) : Peer :=
  peer.addRequest (.listServers (readFilters buffer))

/-- `Peer::handle_client_command`. -/
def handleClientCommand (config : Config) (msgid : UInt8) (buffer : Buffer) : Option Peer :=
  match msgid.toNat with
  | 0 => some (peer.handleRequestServerList buffer)
  | 1 => some (peer.sendMotd config)
  | 3 => some (peer.handleCommunityData config buffer)
  | _ => none

/-- The flag of the latest version, for which `get_server_flags` uses the configuration if the
record has a version. -/
def latestVersion (record : ServerRecord) : Option Bool :=
  match record.rules.lookup (ascii "ServerVersion") with
  | none => some false
  | some version =>
      peer.config.map fun config => atoi version == config.latestClientVersion.toInt

/-- `Peer::get_server_flags_ut2003`. -/
def getServerFlagsUt2003 (record : ServerRecord) : Option UInt32 :=
  (peer.latestVersion record).map fun latest =>
    flagAt 6 (ruleIs record "GamePassword" "True") |||
      flagAt 5 (ruleIs record "GameStats" "True") ||| flagAt 4 latest |||
      flagAt 3 (ruleIs record "ServerMode" "non-dedicated") |||
      flagAt 2 (record.mutators.contains (ascii "MutInstaGib"))

/-- `Peer::get_server_flags`. -/
def getServerFlags (record : ServerRecord) : Option UInt32 :=
  if peer.clientVersion ≤ 3000 then peer.getServerFlagsUt2003 record
  else
    (peer.latestVersion record).map fun latest =>
      flagAt 0 (ruleIs record "GamePassword" "True") |||
        flagAt 1 (ruleIs record "GameStats" "True") ||| flagAt 2 latest |||
        flagAt 3 (ruleIs record "ServerMode" "non-dedicated") |||
        flagAt 5 (isStandardServer record) |||
        flagAt 6 (record.mutators.contains (ascii "MutUTClassic")) |||
        flagAt 4 (record.mutators.contains (ascii "MutInstaGib"))

/-- The loop of `on_get_server_list`. The flags are not asked for in version 2226. -/
def sendServerRows : Peer → List ServerRecord → Option Peer
  | peer, [] => some peer
  | peer, server :: records =>
      let flags := if peer.clientVersion = 2226 then some 0 else peer.getServerFlags server
      flags.bind fun flags =>
        sendServerRows (peer.sendPacket (serverRow peer.clientVersion flags server)) records

/-- `Peer::on_get_server_list`. -/
def onGetServerList (records : List ServerRecord) : Option Peer :=
  let peer := peer.sendPacket (writeInt (.ofNat records.length) ++ [1])
  (peer.sendServerRows records).map (·.delete false)

/-- `Peer::handle_packet` on the message of a read. -/
def handleMessage (configs : List Config) (undef : Int32) (buffer : Buffer) : Option Peer :=
  match peer.state with
  | .waitChallengeResponse => some (peer.handleChallengeResponse configs buffer)
  | .waitApprovedResponse =>
      match peer.config with
      | none => some (peer.delete false)
      | some config =>
          let peer := { peer with state := .waitRequest }
          some (if config.isServer then peer.handleUplinkInfo
            else peer.sendPacket (writeFString (ascii "VERIFIED")))
  | .waitRequest =>
      let (reqType, buffer) := buffer.readByte
      peer.config.map fun config =>
        let handled :=
          if config.isServer then peer.handleServerCommand undef config reqType buffer
          else peer.handleClientCommand config reqType buffer
        handled.getD (peer.delete false)

end Peer

/-- The message that `handle_packet` takes out of a read: the bytes behind a length, if all of them
are there. What is behind them is not read. -/
def messageOf (chunk : Bytes) : Option Buffer :=
  let (len, buffer) := readUInt ⟨[], chunk⟩
  if len = 0 ∨ len.toNat > buffer.readRemaining then none
  else some ⟨[], buffer.unread.take len.toNat⟩

/-- What happens to a peer, with the time: bytes that are read, the end of its stream, a turn of the
loop of the driver, and the answer to a list of servers that it asked for. -/
inductive SessionEvent where
  | read (now : Int) (chunk : Bytes)
  | closed
  | think (now : Int)
  | listed (records : List ServerRecord)

/-- `Peer::Peer`. What it leaves unset is given. -/
def connected (address : IPv4) (now : Int) (clientVersion gamestatsId : UInt32) : Peer :=
  { address := address
    lastRecv := now
    state := .waitChallengeResponse
    config := none
    serverAddress := ⟨⟨0, 0, 0, 0⟩, 0⟩
    clientVersion := clientVersion
    gamestatsId := gamestatsId
    deleteFlag := false
    timeoutFlag := false
    sent := [packet (writeFString (ascii "111111111"))]
    requests := []
    answered := 0 }

/-- A request for a list of servers. -/
def Request.isList : Request → Bool
  | listServers _ => true
  | heartbeat _ | deleteServer _ => false

/-- An event of a peer. There is no answer to more lists than the peer has asked for. -/
def Peer.step (configs : List Config) (undef : Int32) (peer : Peer) : SessionEvent → Option Peer
  | .read now chunk =>
      let peer := { peer with lastRecv := now }
      match messageOf chunk with
      | none => some peer
      | some buffer => peer.handleMessage configs undef buffer
  | .closed => some (peer.delete false)
  | .think now =>
      some (if peer.deleteFlag then peer
        else if now - peer.lastRecv > utmasterPingTime then peer.delete true
        else peer)
  | .listed records =>
      if peer.answered < peer.requests.countP Request.isList then
        { peer with answered := peer.answered + 1 }.onGetServerList records
      else some peer

/-- A run of events. -/
def Peer.run (configs : List Config) (undef : Int32) (peer : Peer) (events : List SessionEvent) :
    Option Peer :=
  events.foldlM (Peer.step configs undef) peer

end OpenSpy.UTMaster
