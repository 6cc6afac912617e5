import OpenSpy.Core.Address
import OpenSpy.Core.Buffer

/-!
# Natneg packets

A `NatNegPacket` is a packed structure whose last member is a union of the bodies of the packet
types. The union is kept as its bytes, so a body is as long as its type says and the bytes behind
it are still what they were. `bytes` is the memory of a packet, as `SendPacket` copies it.
-/

namespace OpenSpy.NN

open Bytes

/-- An `OS::Address`, with the port that `GetPort` answers. -/
structure Address where
  ip : IPv4
  port : UInt16
  deriving DecidableEq, Repr

/-- `Address::ToString()`. -/
def Address.toText (address : Address) : Bytes :=
  inetNtop address.ip ++ char ':' :: printNat address.port.toNat

/-- `Address::Address(std::string)`. Without a colon the port is left unset. -/
def addressOfText (unset : UInt16) (input : Bytes) : Address where
  ip := addressOfString input
  port :=
    if char ':' ∈ input then .ofInt (atoi ((input.dropWhile (· ≠ char ':')).tail)) else unset

/-- The bytes of a variable. -/
abbrev Memory (n : Nat) := Fin n → UInt8

/-- `memcpy` to an offset. -/
def Memory.write {n : Nat} (memory : Memory n) (offset : Nat) (bytes : Bytes) : Memory n :=
  fun i =>
    if offset ≤ i.val ∧ i.val < offset + bytes.length then bytes.getD (i.val - offset) 0
    else memory i

/-- The bytes of `body` are named by their offsets. -/
instance neZeroBody : NeZero 61 := ⟨by decide⟩

/-- `NatNegPacket`. -/
structure NatNegPacket where
  magic : Memory 6
  version : UInt8
  packettype : UInt8
  cookie : Memory 4
  body : Memory 61

/-- `NN_INIT`. -/
def nnInit : UInt8 := 0

/-- `NN_INITACK`. -/
def nnInitack : UInt8 := 1

/-- `NN_ERTTEST`. -/
def nnErttest : UInt8 := 2

/-- `NN_ERTACK`. -/
def nnErtack : UInt8 := 3

/-- `NN_CONNECT`. -/
def nnConnect : UInt8 := 5

/-- `NN_CONNECT_ACK`. -/
def nnConnectAck : UInt8 := 6

/-- `NN_CONNECT_PING`. -/
def nnConnectPing : UInt8 := 7

/-- `NN_ADDRESS_CHECK`. -/
def nnAddressCheck : UInt8 := 10

/-- `NN_ADDRESS_REPLY`. -/
def nnAddressReply : UInt8 := 11

/-- `NN_NATIFY_REQUEST`. -/
def nnNatifyRequest : UInt8 := 12

/-- `NN_REPORT`. -/
def nnReport : UInt8 := 13

/-- `NN_REPORT_ACK`. -/
def nnReportAck : UInt8 := 14

/-- `NN_PREINIT`. -/
def nnPreinit : UInt8 := 15

/-- `NN_PREINIT_ACK`. -/
def nnPreinitAck : UInt8 := 16

/-- `BASEPACKET_SIZE`. -/
def basepacketSize : Int := 12

/-- `NNMagicData`. -/
def nnMagicData : Memory 6 :=
  fun i => ([0xFD, 0xFC, 0x1E, 0x66, 0x6A, 0xB2] : Bytes).getD i 0

/-- `Driver::packetSizeFromType`: the size of the body, negative for the types it does not
know. -/
def packetSizeFromType (type version : UInt8) : Int :=
  let size : Int :=
    if type = nnPreinit ∨ type = nnPreinitAck then basepacketSize + 6
    else if type = nnAddressReply ∨ type = nnNatifyRequest ∨ type = nnErttest ∨ type = nnInit ∨
        type = nnInitack ∨ type = nnConnectAck then
      if version = 1 then basepacketSize + 9 - 6 else basepacketSize + 9
    else if type = nnConnectPing ∨ type = nnConnect then basepacketSize + 8
    else if type = nnReport ∨ type = nnReportAck then basepacketSize + 61
    else 0
  size - basepacketSize

namespace NatNegPacket

variable (packet : NatNegPacket)

/-- The memory of a packet. -/
def bytes : Bytes :=
  List.ofFn packet.magic ++ [packet.version, packet.packettype] ++ List.ofFn packet.cookie ++
    List.ofFn packet.body

/-- `packet->Packet.Init.localip`. -/
def localip : IPv4 :=
  ⟨packet.body 3, packet.body 4, packet.body 5, packet.body 6⟩

/-- `ntohs(packet->Packet.Init.localport)`. -/
def localport : UInt16 :=
  .ofNat ((packet.body 7).toNat * 256 + (packet.body 8).toNat)

/-- `ntohl(packet->cookie)`, as the `int` that the JSON texts have. -/
def cookieValue : Int :=
  MachineInt.int32
    ((packet.cookie 0).toNat * 2 ^ 24 + (packet.cookie 1).toNat * 2 ^ 16 +
      (packet.cookie 2).toNat * 2 ^ 8 + (packet.cookie 3).toNat : Nat)

/-- What `Driver::SendPacket` sends. -/
def sendBytes : Bytes :=
  { packet with magic := nnMagicData }.bytes.take
    (packetSizeFromType packet.packettype packet.version + basepacketSize).toNat

end NatNegPacket

end OpenSpy.NN
