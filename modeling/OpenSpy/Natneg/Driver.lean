import OpenSpy.Core.Json
import OpenSpy.Core.Strings
import OpenSpy.Natneg.Packet

/-!
# The natneg driver

`Driver::on_udp_read` reads a datagram into a `NatNegPacket` and answers it or submits a JSON text
to the backend; `Handle_HandleRecvMessage` fills a packet from a message of the backend and sends
it. In both the packet is a local variable that starts with whatever the memory held, which is a
parameter here, and so is the memory behind the bytes of a datagram. What only the log reads is
left out, and so is `SetReadCursor`, behind which nothing is read.
-/

namespace OpenSpy.NN

open Bytes

/-- A driver: its address, the name of the host, and the texts that `json_string` takes. -/
structure Driver where
  address : Address
  hostName : Bytes
  takesString : Bytes → Bool

/-- What is sent to a client or submitted to the backend. -/
inductive Sent where
  | udp (receiver : Address) (bytes : Bytes)
  | json (text : Json)

/-- `json_string`. -/
def Driver.jsonString (driver : Driver) (text : Bytes) : Option Json :=
  if driver.takesString text then some (.string text) else none

/-- `json_integer`. -/
def jsonInteger (value : Int) : Option Json :=
  some (.integer value)

section Handlers

variable (driver : Driver) (sender : Address) (packet : NatNegPacket)

/-- The keys with which the four objects start. -/
def addressFields : List (Bytes × Option Json) :=
  [(ascii "address", driver.jsonString sender.toText),
    (ascii "driver_address", driver.jsonString driver.address.toText),
    (ascii "hostname", driver.jsonString driver.hostName)]

/-- `Packet.Init.localip` and `localport` as an address. -/
def privateAddress : Address :=
  ⟨packet.localip, packet.localport⟩

/-- `get_init_object`. -/
def getInitObject (gamename : Bytes) : Json :=
  .ofFields (addressFields driver sender ++
    [(ascii "gamename", driver.jsonString gamename),
      (ascii "version", jsonInteger packet.version.toNat),
      (ascii "type", driver.jsonString (ascii "init")),
      (ascii "cookie", jsonInteger packet.cookieValue),
      (ascii "data", some (.ofFields
        [(ascii "porttype", jsonInteger (packet.body 0).toNat),
          (ascii "clientindex", jsonInteger (packet.body 1).toNat),
          (ascii "use_gameport", jsonInteger (packet.body 2).toNat),
          (ascii "private_address", driver.jsonString (privateAddress packet).toText)]))])

/-- `Driver::handle_init_packet`. -/
def handleInitPacket (gamename : Bytes) : List Sent :=
  [.json (getInitObject driver sender packet gamename)]

/-- `get_connect_ack_object`. -/
def getConnectAckObject : Json :=
  .ofFields (addressFields driver sender ++
    [(ascii "version", jsonInteger packet.version.toNat),
      (ascii "type", driver.jsonString (ascii "connect_ack")),
      (ascii "cookie", jsonInteger packet.cookieValue),
      (ascii "clientindex", jsonInteger (packet.body 1).toNat)])

/-- `Driver::handle_connect_ack_packet`. -/
def handleConnectAckPacket : List Sent :=
  [.json (getConnectAckObject driver sender packet)]

/-- `Driver::handle_address_check_packet`. -/
def handleAddressCheckPacket : List Sent :=
  let packet :=
    { packet with
      packettype := nnAddressReply
      body := packet.body.write 3 [sender.ip.a, sender.ip.b, sender.ip.c, sender.ip.d,
        .ofNat (sender.port.toNat / 256), .ofNat sender.port.toNat] }
  [.udp sender packet.sendBytes]

/-- `Driver::handle_report_packet`. -/
def handleReportPacket : List Sent :=
  [.udp sender { packet with packettype := nnReportAck }.sendBytes]

/-- `get_natify_object`. -/
def getNatifyObject : Json :=
  .ofFields (addressFields driver sender ++
    [(ascii "version", jsonInteger packet.version.toNat),
      (ascii "type", driver.jsonString (ascii "natify")),
      (ascii "cookie", jsonInteger packet.cookieValue),
      (ascii "data", some (.ofFields
        [(ascii "porttype", jsonInteger (packet.body 0).toNat),
          (ascii "private_address", driver.jsonString (privateAddress packet).toText)]))])

/-- `Driver::handle_natify_packet`. -/
def handleNatifyPacket : List Sent :=
  [.json (getNatifyObject driver sender packet)]

/-- `get_ert_ack_object`. -/
def getErtAckObject : Json :=
  .ofFields (addressFields driver sender ++
    [(ascii "cookie", jsonInteger packet.cookieValue),
      (ascii "type", driver.jsonString (ascii "ert_ack"))])

/-- `Driver::handle_ert_ack_packet`. -/
def handleErtAckPacket : List Sent :=
  [.json (getErtAckObject driver sender packet)]

end Handlers

/-- `buffer.ReadBuffer` into the body, for a `size` that becomes a `size_t`. -/
def readBody (buffer : Buffer) (packet : NatNegPacket) (size : Int) : NatNegPacket × Buffer :=
  match buffer.readBuffer (MachineInt.sizeT size) with
  | (some bytes, buffer) => ({ packet with body := packet.body.write 0 bytes }, buffer)
  | (none, buffer) => (packet, buffer)

/-- `ReadBuffer` of the magic bytes. -/
def readMagic (buffer : Buffer) (packet : NatNegPacket) : NatNegPacket × Buffer :=
  match buffer.readBuffer 6 with
  | (some bytes, buffer) => ({ packet with magic := packet.magic.write 0 bytes }, buffer)
  | (none, buffer) => (packet, buffer)

/-- The `memset` of the body of an `InitPacket`, and the rest of the header. -/
def readHeader (buffer : Buffer) (packet : NatNegPacket) : NatNegPacket × Buffer :=
  let body := packet.body.write 0 (List.replicate 9 0)
  let (version, buffer) := buffer.readByte
  let (packettype, buffer) := buffer.readByte
  let (cookie, buffer) := buffer.readInt
  ({ packet with
      version := version
      packettype := packettype
      cookie := packet.cookie.write 0 cookie
      body := body }, buffer)

/-- The switch of `on_udp_read`. -/
def handlePacket (driver : Driver) (sender : Address) (behind : Bytes) (buffer : Buffer)
    (packet : NatNegPacket) : List Sent :=
  let size := packetSizeFromType packet.packettype packet.version
  let (read, buffer) := readBody buffer packet size
  if packet.packettype = nnInit then
    let gamename := if packet.version > 1 then (buffer.readNTS behind).1 else []
    handleInitPacket driver sender read gamename
  else if packet.packettype = nnConnectAck then handleConnectAckPacket driver sender read
  else if packet.packettype = nnAddressCheck then handleAddressCheckPacket sender read
  else if packet.packettype = nnReport then handleReportPacket sender read
  else if packet.packettype = nnNatifyRequest then handleNatifyPacket driver sender read
  else if packet.packettype = nnErtack then handleErtAckPacket driver sender read
  else []

/-- `Driver::on_udp_read`: what a datagram leads to. `packet` is the variable as it is found. -/
def onUdpRead (driver : Driver) (sender : Address) (behind datagram : Bytes)
    (packet : NatNegPacket) : List Sent :=
  if datagram.length > 0 then
    let (packet, buffer) := readMagic (Buffer.empty.writeBuffer datagram) packet
    if packet.magic = nnMagicData then
      let (packet, buffer) := readHeader buffer packet
      handlePacket driver sender behind buffer packet
    else []
  else []

/-- `read_amqp_message`. -/
def readAmqpMessage (root : Option Json) (packet : NatNegPacket) : NatNegPacket :=
  let value (key : String) : Int := Json.integerValue (Json.objectGet root (ascii key))
  let byte (value : Int) (shift : Nat) : UInt8 := .ofInt (value / 2 ^ shift)
  if packet.packettype = nnErttest ∨ packet.packettype = nnInitack then
    let usegameport :=
      if Json.isTrue (Json.objectGet root (ascii "use_gameport")) ∨ value "use_gameport" ≠ 0 then 1
      else 0
    let localip := value "localip"
    let localport := value "localport"
    { packet with
      body := packet.body.write 0
        [byte (value "porttype") 0, byte (value "client_index") 0, usegameport,
          byte localip 0, byte localip 8, byte localip 16, byte localip 24,
          byte localport 0, byte localport 8] }
  else if packet.packettype = nnConnect then
    let remoteIp := value "remote_ip"
    let remotePort := value "remote_port"
    { packet with
      body := packet.body.write 0
        [byte remoteIp 0, byte remoteIp 8, byte remoteIp 16, byte remoteIp 24,
          byte remotePort 8, byte remotePort 0,
          byte (value "got_your_data") 0, byte (value "finished") 0] }
  else packet

/-- The packet type of a `type` text: `NN_INITACK` unless it is one of the others. -/
def packetTypeOf (typeStr : Bytes) : UInt8 :=
  if sameText typeStr (ascii "connect") then nnConnect
  else if sameText typeStr (ascii "ert") then nnErttest
  else if sameText typeStr (ascii "preinit_ack") then nnPreinitAck
  else if sameText typeStr (ascii "init_ack") then nnInitack
  else if sameText typeStr (ascii "report_ack") then nnReportAck
  else nnInitack

/-- What a message of the backend says about the packet that it asks for. -/
structure RecvMessage where
  receiver : Address
  packetType : UInt8
  version : Int
  cookie : Int
  data : Option Json

/-- `Handle_HandleRecvMessage` up to the packet, for the addresses of the drivers and what
`json_loads` answers. `none` is what C++ leaves undefined: a string is made of `NULL`. The inner
`none` is the end without a packet. `unset` is the port of an address without one. -/
def readMessage (drivers : List Address) (unset : UInt16) (message : Option Json) :
    Option (Option RecvMessage) :=
  match message with
  | none => some none
  | some root =>
      match Json.objectGet root (ascii "type") with
      | none => some none
      | some type =>
          let gamename := Json.objectGet root (ascii "gamename")
          if gamename.isSome ∧ (Json.stringValue gamename).isNone then none
          else
            match Json.objectGet root (ascii "version") with
            | none => some none
            | some version => do
                let driverAddress ←
                  Json.stringValue (Json.objectGet root (ascii "driver_address"))
                let address ← Json.stringValue (Json.objectGet root (ascii "address"))
                if addressOfText unset driverAddress ∈ drivers then do
                  let typeStr ← Json.stringValue type
                  some (some
                    { receiver := addressOfText unset address
                      packetType := packetTypeOf typeStr
                      version := Json.integerValue version
                      cookie := Json.integerValue (Json.objectGet root (ascii "cookie"))
                      data := Json.objectGet root (ascii "data") })
                else some none

/-- The rest of `Handle_HandleRecvMessage`: the packet is filled and sent. Each `send_` function
only sends it. -/
def sendMessage (message : RecvMessage) (packet : NatNegPacket) : Sent :=
  let byte (shift : Nat) : UInt8 := .ofInt (message.cookie / 2 ^ shift)
  let packet :=
    { packet with
      packettype := message.packetType
      version := .ofInt message.version
      cookie := packet.cookie.write 0 [byte 24, byte 16, byte 8, byte 0] }
  .udp message.receiver (readAmqpMessage message.data packet).sendBytes

/-- `Handle_HandleRecvMessage`. -/
def handleRecvMessage (drivers : List Address) (unset : UInt16) (message : Option Json)
    (packet : NatNegPacket) : Option (List Sent) :=
  (readMessage drivers unset message).map fun
    | none => []
    | some message => [sendMessage message packet]

end OpenSpy.NN
