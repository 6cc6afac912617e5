import OpenSpy.ServerBrowsing.Scan

/-!
# The list that a V2 client gets

`SendListQueryResp` writes a header with the fields and the popular values, a row for each
server and a terminator. The rows of the first batch go into the packet of the header, and
those of a later batch into packets of their own. A server at 255.255.255.255 gets no row,
since its row could pass for the terminator.

Encryption is not modelled, and neither are the rows with the full rules, which no list request
of this protocol asks for.
-/

namespace OpenSpy.ServerBrowsing

open Bytes

/-- What the V2 peer uses of a game. -/
structure Game extends GameData where
  queryport : Int
  secretkey : Bytes
  popularValues : List Bytes
  deriving DecidableEq, Repr

/-- A game before anything is known of it. -/
def Game.empty : Game := ⟨⟨0, []⟩, 0, [], []⟩

/-- What is used of a list request that `ParseListRequest` read. It leaves `all_keys` and
`include_deleted` off. -/
structure ListRequest where
  filter : Bytes
  fieldList : List Bytes
  sourceIp : IPv4
  maxResults : Nat
  sendGroups : Bool
  pushUpdates : Bool
  noServerList : Bool
  sendFieldsForAll : Bool
  forGamename : Bytes
  fromGamename : Bytes
  forGame : Game
  fromGame : Game
  deriving DecidableEq, Repr

/-- The part of a request that the tasks use. -/
def ListRequest.toReq (req : ListRequest) : ServerListReq :=
  ⟨req.filter, req.fieldList, req.maxResults, req.pushUpdates, req.forGame.toGameData, false,
    false⟩

/-- The type of a field: `KEYTYPE_STRING`, `KEYTYPE_BYTE` or `KEYTYPE_SHORT`. -/
inductive KeyType
  | string
  | byte
  | short
  deriving DecidableEq, Repr

/-- The code of a type. -/
def KeyType.code : KeyType → UInt8
  | .string => 0
  | .byte => 1
  | .short => 2

/-- The flags of a row, from `UNSOLICITED_UDP_FLAG` to `HAS_FULL_RULES_FLAG`. -/
structure RowFlags where
  unsolicitedUdp : Bool
  privateIp : Bool
  connectNegotiate : Bool
  icmpIp : Bool
  nonstandardPort : Bool
  nonstandardPrivatePort : Bool
  hasKeys : Bool
  hasFullRules : Bool
  deriving DecidableEq, Repr

/-- The byte of the flags. -/
def RowFlags.toByte (flags : RowFlags) : UInt8 :=
  flags.unsolicitedUdp.toUInt8 + 2 * flags.privateIp.toUInt8 + 4 * flags.connectNegotiate.toUInt8 +
    8 * flags.icmpIp.toUInt8 + 16 * flags.nonstandardPort.toUInt8 +
    32 * flags.nonstandardPrivatePort.toUInt8 + 64 * flags.hasKeys.toUInt8 +
    128 * flags.hasFullRules.toUInt8

/-- `Buffer::WriteInt` of an address, in network order. -/
def ipBytes (ip : IPv4) : Bytes :=
  [ip.a, ip.b, ip.c, ip.d]

/-- `WriteShort(htons(value))`. -/
def shortBytes (value : UInt16) : Bytes :=
  [(value >>> 8).toUInt8, value.toUInt8]

/-- `Buffer::WriteNTS`. -/
def writeNTS (str : Bytes) : Bytes :=
  str ++ [0]

/-- The flags of a row, its addresses and its ports. What no flag announces is not written. -/
structure RowHeader where
  flags : RowFlags
  wanIp : IPv4
  wanPort : UInt16
  privateIp : IPv4
  privatePort : UInt16
  icmpIp : IPv4
  deriving DecidableEq, Repr

/-- The bytes before the keys of a row. -/
def RowHeader.bytes (header : RowHeader) : Bytes :=
  header.flags.toByte :: ipBytes header.wanIp ++
    (if header.flags.nonstandardPort then shortBytes header.wanPort else []) ++
    (if header.flags.privateIp then ipBytes header.privateIp else []) ++
    (if header.flags.nonstandardPrivatePort then shortBytes header.privatePort else []) ++
    (if header.flags.icmpIp then ipBytes header.icmpIp else [])

/-- The first part of `sendServerData`. -/
def rowHeader (lastListReq : ListRequest) (game : Game) (push : Bool) (server : Server) :
    RowHeader :=
  let natnegVal := (server.kvFields (ascii "natneg")).elim 0 atoi
  let noKeys := server.allowUnsolicitedUdp && !lastListReq.sendFieldsForAll &&
    !lastListReq.sendGroups && !push
  let localport := (server.kvFields (ascii "localport")).map atoi
  let nonstandardPrivatePort := localport.any (game.queryport ≠ ·)
  { flags :=
      { unsolicitedUdp := server.allowUnsolicitedUdp
        privateIp := (server.kvFields (ascii "localip0")).isSome
        connectNegotiate := natnegVal = 1 && !server.allowUnsolicitedUdp
        icmpIp := server.icmpIp ≠ noAddress
        nonstandardPort := (server.wanPort.toNat : Int) ≠ game.queryport
        nonstandardPrivatePort := nonstandardPrivatePort
        hasKeys := !noKeys
        hasFullRules := false }
    wanIp := server.wanIp
    wanPort := server.wanPort
    privateIp := (server.kvFields (ascii "localip0")).elim noAddress inetAddr
    privatePort := if nonstandardPrivatePort then .ofInt (localport.getD 0) else 0
    icmpIp := server.icmpIp }

/-- The value of a field in a row: the index of a popular value, or else the value itself. A
text of a list has the index 0xFF before it. -/
def writeCell (game : Game) (push : Bool) (type : KeyType) (field : Option Bytes) : Bytes :=
  let value := (field.map cString).getD []
  match field.bind fun _ => game.popularValues.findIdx? (· = value) with
  | some index => [.ofNat index]
  | none =>
      (if type = .string && !push then [0xFF] else []) ++
        if value.length > 0 then
          match type with
          | .byte => [.ofInt (atoi value)]
          | .short => shortBytes (.ofInt (atoi value))
          | .string => writeNTS value
        else [0]

/-- `sendServerData` without the byte that goes before a push: what it writes for a server,
unless the server is skipped. -/
def sendServerData (lastListReq : ListRequest) (game : Game) (push : Bool)
    (optimizedFields : Bytes → Option KeyType) (server : Server) : Option Bytes :=
  let header := rowHeader lastListReq game push server
  if server.wanIp = inaddrNone then none
  else
    some (header.bytes ++
      if header.flags.hasKeys then
        lastListReq.fieldList.flatMap fun name =>
          writeCell game push ((optimizedFields name).getD .string) (server.kvFields name)
      else [])

/-- A field that is written and its type, `WriteOptimizedField`. The servers have the field
afterwards. `strtol` never leaves `pEnd` null, so `is_digit` is never set. -/
def writeOptimizedField (lastListReq : ListRequest) (servers : List Server) (fieldName : Bytes) :
    Bytes × KeyType × List Server :=
  let servers := servers.map fun server =>
    { server with kvFields := server.kvFields.touch fieldName }
  let highestValue := servers.foldl
    (fun highest server => max highest (atoi (server.kvFields.read fieldName)).natAbs) 0
  let isDigit := false
  let var : KeyType :=
    if isDigit && !lastListReq.forGame.popularValues.contains (printNat highestValue) then
      if highestValue ≤ 127 then .byte
      else if highestValue ≤ 32767 then .short
      else .string
    else .string
  (var.code :: writeNTS fieldName, var, servers)

/-- The loop over the fields. -/
def writeOptimizedFields (lastListReq : ListRequest) (servers : List Server)
    (fieldList : List Bytes) : Bytes × (Bytes → Option KeyType) × List Server :=
  fieldList.foldl
    (fun (buffer, fieldTypes, servers) name =>
      let (bytes, var, servers) := writeOptimizedField lastListReq servers name
      (buffer ++ bytes, Function.update fieldTypes name (some var), servers))
    ([], fun _ => none, servers)

/-- The game of a row. `AppendServerEntries` gives a server the queried game, and a group has
none. -/
def rowGame (listReq : ListRequest) : Game :=
  if listReq.sendGroups then .empty else listReq.forGame

/-- The byte 0 and the address 255.255.255.255. -/
def terminator : Bytes :=
  0 :: ipBytes inaddrNone

/-- `SendListQueryResp`: the packets. `peerIp` is the address of the client. -/
def sendListQueryResp (peerIp : IPv4) (lastListReq : ListRequest) (servers : RetrievedCall)
    (listReq : ListRequest) : List Bytes :=
  let address :=
    ipBytes (if listReq.sourceIp ≠ noAddress then listReq.sourceIp else peerIp) ++
      shortBytes (.ofInt listReq.forGame.queryport)
  if listReq.noServerList then [address]
  else
    let (fields, fieldTypes, list) :=
      writeOptimizedFields lastListReq servers.list listReq.fieldList
    let header := address ++ .ofNat listReq.fieldList.length :: fields ++
      .ofNat listReq.forGame.popularValues.length ::
        listReq.forGame.popularValues.flatMap writeNTS
    let rows := list.filterMap (sendServerData lastListReq (rowGame listReq) false fieldTypes)
    let ending := if servers.list.isEmpty || servers.lastSet then terminator else []
    if servers.firstSet then [header ++ rows.flatten ++ ending]
    else rows ++ if ending.isEmpty then [] else [ending]

end OpenSpy.ServerBrowsing
