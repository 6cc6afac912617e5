import OpenSpy.Core.Gsmsalg
import OpenSpy.Core.KVReader
import OpenSpy.Library.Runs
import OpenSpy.ServerBrowsing.CryptEngine
import OpenSpy.ServerBrowsing.Enctype1
import OpenSpy.ServerBrowsing.ListRow
import OpenSpy.ServerBrowsing.ServerInfo
import OpenSpy.ServerBrowsing.V1Stream

/-!
# The session of a V1 client

A V1 client names its game and answers the challenge, and then asks for a list. The game is looked
up by a task, and so is the list: packets that arrive while a task is awaited wait in a queue, which
`think` empties with `flushWaitingPackets` once the game is known.

The tasks answer from their own threads, also while that loop goes round, so each of its rounds is
an event of its own. What a task answers is a parameter of its event. The threads do not share a
step: each event happens as a whole.
-/

namespace OpenSpy.ServerBrowsing

open Bytes Delimited

/-- `enctype1_data` of `gsseckey`. -/
def enctype1Data : Bytes :=
  [1, 186, 250, 178, 81, 0, 84, 128, 117, 22, 142, 142, 2, 8, 54, 165, 45, 5, 13, 22, 82, 7, 180,
    34, 140, 233, 9, 214, 185, 38, 0, 4, 6, 5, 0, 19, 24, 196, 30, 91, 29, 118, 116, 252, 80, 81,
    6, 22, 0, 81, 40, 0, 4, 10, 41, 120, 81, 0, 1, 17, 82, 22, 6, 74, 32, 132, 1, 162, 30, 22,
    71, 22, 50, 81, 154, 196, 3, 42, 115, 225, 45, 79, 24, 75, 147, 76, 15, 57, 10, 0, 4, 192,
    18, 12, 154, 94, 2, 179, 24, 184, 7, 12, 205, 33, 5, 192, 169, 65, 67, 4, 60, 82, 117, 236,
    152, 128, 29, 8, 2, 29, 88, 132, 1, 78, 59, 106, 83, 122, 85, 86, 87, 30, 127, 236, 184, 173,
    0, 112, 31, 130, 216, 252, 151, 139, 240, 131, 254, 14, 118, 3, 190, 57, 41, 119, 48, 224,
    43, 255, 183, 158, 1, 4, 248, 1, 14, 232, 83, 255, 148, 12, 178, 69, 158, 10, 199, 6, 24, 1,
    100, 176, 3, 152, 1, 235, 2, 176, 1, 180, 18, 73, 7, 31, 95, 94, 93, 160, 79, 91, 160, 90,
    89, 88, 207, 82, 84, 208, 184, 52, 2, 252, 14, 66, 41, 184, 218, 0, 186, 177, 240, 18, 253,
    35, 174, 182, 69, 169, 187, 6, 184, 136, 20, 36, 169, 0, 20, 203, 36, 18, 174, 204, 87, 86,
    238, 253, 8, 48, 217, 253, 139, 62, 10, 132, 70, 250, 119, 184]

/-- `gsseckey(dst, src, key, enctype)`. -/
def gsseckeyOf (src key : Bytes) (enctype : UInt8) : Bytes :=
  if src.length < 1 ∨ 65 < src.length then []
  else
    let enctmp := (List.range 256).foldl (seckeySwap key) (.ofFn (·), 0)
    let tmp := seckeyPad (StreamCipher.run seckeyByte (enctmp.1, 0, 0) src).1
    let tmp :=
      if enctype = 1 then tmp.map fun byte => enctype1Data.getD byte.toNat 0
      else if enctype = 2 then tmp.mapIdx fun i byte => byte ^^^ key.getD (i % key.length) 0
      else tmp
    seckeyChars tmp

/-- `sizeof(cryptkey)` of `send_crypt_header`. -/
def cryptkeySize : Nat := 13

/-- `SB_PING_TIME`. -/
def sbPingTime : Int := 15

/-- What is random or uninitialised in a peer: `m_challenge`, the bytes that `send_crypt_header`
draws, what `m_crypt_key_enctype2` is before, and what `create_enctype1_buffer` uses. -/
structure V1Random where
  challenge : Bytes
  cryptkey : Vector UInt8 cryptkeySize
  memory : CryptEngine
  rand : Enctype1Rand
  stack : Enc1Key

/-- What `handle_list` fills in of a list request. `m_for_game.gamename` is `m_for_gamename`. -/
structure V1ListReq where
  forGamename : Bytes
  fromGame : Game
  filter : Bytes
  allKeys : Bool
  sendGroups : Bool
  sendCompressed : Bool
  deriving DecidableEq

/-- The requests of a V1 peer, by their types. -/
inductive V1Request where
  | getGameInfoByGameName (gamename : Bytes)
  | getServers (req : V1ListReq)
  | getGroups (req : V1ListReq)
  deriving DecidableEq

/-- An argument of `handle_packet`, with its number. -/
structure V1Packet where
  number : Nat
  data : Bytes
  deriving DecidableEq

/-- The members of `V1Peer` that decide what it does, with a record: `arrived` counts the calls of
`handle_packet` for arguments that were read, `handled` are the packets that it did not put off, and
`requests` and `unanswered` are the requests that were made and those for games that were not
answered. `flushing` tells that the loop of `flushWaitingPackets` goes round. -/
structure V1Control where
  enctype : UInt8
  validation : Bytes
  game : Game
  validated : Bool
  waitingGamedata : Nat
  waitingPackets : List V1Packet
  lastListReq : V1ListReq
  flushing : Bool
  arrived : Nat
  handled : List V1Packet
  requests : List V1Request
  unanswered : List Bytes

/-- The members of `V1Peer` that what it sends goes through. It is `none` if it is undefined. -/
structure V1Wire where
  sentCryptKey : Bool
  cryptKeyEnctype2 : CryptEngine
  enctype1Accumulator : Bytes
  sendBuffer : List (Option Bytes)
  closeWhenSendbufferEmpty : Bool
  socketDeleted : Bool
  deleteFlag : Bool

/-- The members of `V1Peer`. -/
structure V1Session extends V1Control, V1Wire where
  kvAccumulator : Bytes
  lastRecv : Int

/-- What `handle_packet` makes of its argument before it is read. -/
def packetText (validated : Bool) (data : Bytes) : Bytes :=
  let data := skipQueryid data
  if !validated && (cString data).take 7 == ascii "\\basic\\" then data.drop 6 else data

/-- The first key of a packet, if it has one. -/
def packetCommand (validated : Bool) (data : Bytes) : Option Bytes :=
  ((kvReader (packetText validated data)).map (·.1)).head?.map cString

/-- The request of `V1Peer::handle_list`. -/
def V1Control.listRequest (control : V1Control) (data : Bytes) : V1ListReq :=
  let fields := kvReader data
  let mode := getValue fields (ascii "list")
  let gamename :=
    if hasKey fields (ascii "gamename") then getValue fields (ascii "gamename")
    else control.game.gamename
  { forGamename := gamename
    fromGame := control.game
    filter := if hasKey fields (ascii "where") then getValue fields (ascii "where") else []
    allKeys := mode = ascii "info2" || mode = ascii "groups"
    sendGroups := mode = ascii "groups"
    sendCompressed := mode = ascii "cmp" || mode = ascii "info2" || mode = ascii "groups" }

/-- A key under the secret key of a game. -/
def maskKey (secretkey key : Bytes) : Bytes :=
  key.mapIdx fun i byte => byte ^^^ secretkey.getD i 0

namespace V1Session

section Sending

variable (random : V1Random) (session : V1Session)

/-- `INetPeer::append_send_buffer`. -/
def appendSendBuffer (buffer : Option Bytes) (closeAfter : Bool) : V1Session :=
  if session.deleteFlag || session.socketDeleted then session
  else
    { session with
      sendBuffer := session.sendBuffer ++ [buffer]
      closeWhenSendbufferEmpty := session.closeWhenSendbufferEmpty || closeAfter }

/-- The buffer of `send_crypt_header`. -/
def cryptHeader (secretkey : Bytes) : Bytes :=
  (UInt8.ofNat cryptkeySize ^^^ 0xEC) :: maskKey secretkey random.cryptkey.toList

/-- `V1Peer::send_crypt_header`: the header. A key with more bytes than `cryptkey` has is written
behind its end. -/
def sendCryptHeader : Option Bytes × V1Session :=
  if session.sentCryptKey then (some [], session)
  else
    let session := { session with sentCryptKey := true }
    match initCryptKey random.cryptkey.toList session.cryptKeyEnctype2 with
    | none => (none, session)
    | some cryptKey =>
        let secretkey := session.game.secretkey
        (if secretkey.length ≤ cryptkeySize then some (cryptHeader random secretkey) else none,
          { session with cryptKeyEnctype2 := cryptKey })

/-- `V1Peer::SendPacket` behind the header. Nobody asks to skip the encryption. -/
def sendText (header : Option Bytes) (text : Bytes) (attachFinal : Bool) : V1Session :=
  let skipEncryption := session.game.secretkey.length == 0
  if !skipEncryption && session.enctype == 1 then
    { session with enctype1Accumulator := session.enctype1Accumulator ++ text }
  else if !skipEncryption && session.enctype == 2 then
    match session.cryptKeyEnctype2.cryptDocrypt text with
    | none => session.appendSendBuffer none attachFinal
    | some (cipher, cryptKey) =>
        { session with cryptKeyEnctype2 := cryptKey }.appendSendBuffer (header.map (· ++ cipher))
          attachFinal
  else session.appendSendBuffer (header.map (· ++ text)) attachFinal

/-- `V1Peer::SendPacket`. -/
def sendPacket (buff : Bytes) (attachFinal : Bool) : V1Session :=
  if session.deleteFlag then session
  else
    let text := buff ++ if attachFinal then finalMarker else []
    if session.validated && session.enctype == 2 then
      (session.sendCryptHeader random).2.sendText (session.sendCryptHeader random).1 text
        attachFinal
    else session.sendText (some []) text attachFinal

/-- `V1Peer::Delete`, with `Enctype1_FlushPackets`. -/
def delete : V1Session :=
  if session.deleteFlag then session
  else
    let session :=
      if session.enctype = 1 then
        session.appendSendBuffer
          (createEnctype1Buffer random.challenge random.stack random.rand
            session.enctype1Accumulator) true
      else session
    { session with deleteFlag := true }

/-- `V1Peer::send_error`. -/
def sendError (disconnect : Bool) (text : Bytes) : V1Session :=
  session.appendSendBuffer
    (some ((if disconnect then ascii "\\fatal\\1" else []) ++ ascii "\\error\\" ++ text)) disconnect

/-- `Peer::AddRequest`. -/
def addRequest (request : V1Request) : V1Session :=
  { session with requests := session.requests ++ [request] }

end Sending

section Packets

variable (random : V1Random) (session : V1Session)

/-- `V1Peer::handle_gamename`. -/
def handleGamename (data : Bytes) : V1Session :=
  let fields := kvReader data
  let gamename := getValue fields (ascii "gamename")
  { session with
    validation := getValue fields (ascii "validate")
    waitingGamedata := 1
    enctype := UInt8.ofInt (getValueInt fields (ascii "enctype"))
    unanswered := session.unanswered ++ [gamename] }.addRequest (.getGameInfoByGameName gamename)

/-- `V1Peer::handle_list`. It sets the peer to wait for a game that it does not ask for. -/
def handleList (data : Bytes) : V1Session :=
  if cString session.game.secretkey = [] then
    session.sendError true (ascii "No source gamename registered")
  else
    let req := session.listRequest data
    { session with waitingGamedata := 1, lastListReq := req }.addRequest
      (if req.sendGroups then .getGroups req else .getServers req)

/-- `V1Peer::handle_packet` of a peer that does not wait. -/
def handleNow (now : Int) (packet : V1Packet) : V1Session :=
  let session := { session with handled := session.handled ++ [packet] }
  let data := packetText session.validated packet.data
  match packetCommand session.validated packet.data with
  | none => session.delete random
  | some command =>
      let session := { session with lastRecv := now }
      if command = ascii "gamename" ∧ session.validated = false then session.handleGamename data
      else if command = ascii "list" then session.handleList data
      else session

/-- `V1Peer::handle_packet`. -/
def handlePacket (now : Int) (packet : V1Packet) : V1Session :=
  if session.waitingGamedata = 1 then
    { session with waitingPackets := session.waitingPackets ++ [packet] }
  else session.handleNow random now packet

/-- `V1Peer::handle_packet` of an argument that was read. -/
def arrive (now : Int) (data : Bytes) : V1Session :=
  { session with arrived := session.arrived + 1 }.handlePacket random now ⟨session.arrived, data⟩

/-- `V1Peer::on_stream_read`. -/
def onStreamRead (now : Int) (chunk : Bytes) : V1Session :=
  let recvBuf := session.kvAccumulator ++ chunk
  let cut := splitCommands recvBuf (recvBuf.length + 1) 0
  let session := cut.1.foldl (fun session data => session.arrive random now data) session
  let kvAccumulator := if cut.2 < chunk.length then recvBuf.drop cut.2 else []
  let session := { session with kvAccumulator := kvAccumulator }
  if kvAccumulator.length > maxUnprocessedData then session.delete random else session

end Packets

section Answers

variable (random : V1Random) (session : V1Session)

/-- `V1Peer::OnRecievedGameInfo`. -/
def onRecievedGameInfo (gameData : Game) : V1Session :=
  let session := { session with waitingGamedata := 2 }
  if cString gameData.secretkey = [] then
    session.sendError true (ascii "Invalid source gamename")
  else
    let session := { session with game := gameData }
    let realvalidate := gsseckeyOf (cString random.challenge) (cString gameData.secretkey)
      session.enctype
    if session.validated then session
    else if cString realvalidate = cString session.validation then
      { session with validated := true }
    else session.sendError true (ascii "Validation error")

/-- The buffer of `V1Peer::SendServers`. -/
def serversText (results : RetrievedCall) : Bytes :=
  results.list.flatMap fun serv =>
    if session.lastListReq.sendCompressed then ipBytes serv.wanIp ++ shortBytes serv.wanPort
    else ascii "\\ip\\" ++ inetNtop serv.wanIp ++ char ':' :: printNat serv.wanPort.toNat

/-- `V1Peer::SendServers`. -/
def sendServers (results : RetrievedCall) : V1Session :=
  session.sendPacket random (session.serversText results) results.lastSet

/-- Packets in a row, the last of them with the terminator if the list ends. -/
def sendPackets (packets : List Bytes) (lastSet : Bool) : V1Session :=
  let session := packets.dropLast.foldl
    (fun session packet => session.sendPacket random packet false) session
  session.sendPacket random (packets.getLastD []) lastSet

/-- `V1Peer::OnRetrievedServers`. -/
def onRetrievedServers (req : V1ListReq) (results : InfoBatch) : V1Session :=
  let session :=
    if req.allKeys then session.sendPackets random (sendServerInfo results) results.lastSet
    else session.sendServers random results.toRetrievedCall
  if results.lastSet then session.delete random else session

/-- `V1Peer::OnRetrievedGroups`, for the packets of `SendGroups`. -/
def onRetrievedGroups (packets : List Bytes) (lastSet : Bool) : V1Session :=
  let session := session.sendPackets random packets lastSet
  if lastSet then session.delete random else session

end Answers

/-- The timeout of `V1Peer::think`. -/
def checkTimeout (random : V1Random) (session : V1Session) (now : Int) : V1Session :=
  if now - session.lastRecv > sbPingTime * 2 then session.delete random else session

/-- `V1Peer::think` up to the loop of `flushWaitingPackets`, or without it. -/
def think (random : V1Random) (session : V1Session) (now : Int) : V1Session :=
  if session.deleteFlag then session
  else if session.waitingGamedata = 2 then
    { session with waitingGamedata := 0, flushing := true }
  else session.checkTimeout random now

/-- A round of the loop of `flushWaitingPackets`, or the rest of `think` behind it. -/
def flushRound (random : V1Random) (session : V1Session) (now : Int) : V1Session :=
  match session.waitingPackets with
  | [] => { session with flushing := false }.checkTimeout random now
  | cmd :: rest => { session with waitingPackets := rest }.handlePacket random now cmd

end V1Session

/-- What happens to a V1 peer. -/
inductive V1Event where
  | read (now : Int) (chunk : Bytes)
  | think (now : Int)
  | flushRound (now : Int)
  | gameInfo (gameData : Game)
  | servers (req : V1ListReq) (results : InfoBatch)
  | groups (packets : List Bytes) (lastSet : Bool)
  | socketClosed

namespace V1Session

/-- The peer behind the constructor, which sends the challenge. -/
def start (random : V1Random) (connected : Int) : V1Session :=
  { kvAccumulator := []
    enctype := 0
    validation := []
    game := .empty
    validated := false
    waitingGamedata := 0
    waitingPackets := []
    lastListReq := ⟨[], .empty, [], false, false, false⟩
    sentCryptKey := false
    cryptKeyEnctype2 := random.memory
    enctype1Accumulator := []
    lastRecv := connected
    sendBuffer := [some (ascii "\\basic\\\\secure\\" ++ random.challenge)]
    closeWhenSendbufferEmpty := false
    socketDeleted := false
    deleteFlag := false
    flushing := false
    arrived := 0
    handled := []
    requests := []
    unanswered := [] }

/-- An event of a peer. The loop that empties the queue keeps its thread from reading and from other
turns; the tasks answer from other threads. -/
def step (random : V1Random) (session : V1Session) : V1Event → V1Session
  | .read now chunk =>
      if session.flushing || session.socketDeleted then session
      else session.onStreamRead random now chunk
  | .think now => if session.flushing then session else session.think random now
  | .flushRound now => if session.flushing then session.flushRound random now else session
  | .gameInfo gameData =>
      match session.unanswered with
      | [] => session
      | _ :: unanswered =>
          { session with unanswered := unanswered }.onRecievedGameInfo random gameData
  | .servers req results => session.onRetrievedServers random req results
  | .groups packets lastSet => session.onRetrievedGroups random packets lastSet
  | .socketClosed =>
      if session.flushing then session else { session with socketDeleted := true }.delete random

end V1Session

namespace V1Control

/-- The packet asks for the game of a client that is not validated. -/
def AsksForGame (control : V1Control) (packet : V1Packet) : Prop :=
  packetCommand control.validated packet.data = some (ascii "gamename") ∧
    control.validated = false

/-- The packet asks for a list, and the peer knows its game. -/
def AsksForList (control : V1Control) (packet : V1Packet) : Prop :=
  packetCommand control.validated packet.data = some (ascii "list") ∧
    cString control.game.secretkey ≠ []

instance (control : V1Control) (packet : V1Packet) : Decidable (control.AsksForGame packet) :=
  inferInstanceAs (Decidable (_ ∧ _))

instance (control : V1Control) (packet : V1Packet) : Decidable (control.AsksForList packet) :=
  inferInstanceAs (Decidable (_ ∧ _))

/-- What a peer that does not wait makes of a packet, but for what it sends. -/
inductive Handles (control : V1Control) (packet : V1Packet) : V1Control → Prop where
  | passed (hgame : ¬ control.AsksForGame packet) (hlist : ¬ control.AsksForList packet) :
      Handles control packet { control with handled := control.handled ++ [packet] }
  | game (h : control.AsksForGame packet) :
      Handles control packet { control with
        handled := control.handled ++ [packet]
        validation := getValue (kvReader (packetText control.validated packet.data))
          (ascii "validate")
        waitingGamedata := 1
        enctype := UInt8.ofInt (getValueInt (kvReader (packetText control.validated packet.data))
          (ascii "enctype"))
        unanswered := control.unanswered ++
          [getValue (kvReader (packetText control.validated packet.data)) (ascii "gamename")]
        requests := control.requests ++ [.getGameInfoByGameName
          (getValue (kvReader (packetText control.validated packet.data)) (ascii "gamename"))] }
  | list (h : control.AsksForList packet) (req : V1ListReq) :
      Handles control packet { control with
        handled := control.handled ++ [packet]
        waitingGamedata := 1
        lastListReq := req
        requests := control.requests ++
          [if req.sendGroups then .getGroups req else .getServers req] }

end V1Control

namespace V1Session

variable {random : V1Random} {session : V1Session}

section Frame

@[simp] theorem append_send_buffer_control (buffer : Option Bytes) (closeAfter : Bool) :
    (session.appendSendBuffer buffer closeAfter).toV1Control = session.toV1Control := by
  unfold appendSendBuffer
  split <;> rfl

@[simp] theorem send_error_control (disconnect : Bool) (text : Bytes) :
    (session.sendError disconnect text).toV1Control = session.toV1Control :=
  append_send_buffer_control _ _

@[simp] theorem send_crypt_header_control :
    (session.sendCryptHeader random).2.toV1Control = session.toV1Control := by
  unfold sendCryptHeader
  split
  · rfl
  · dsimp only
    split <;> rfl

@[simp] theorem send_text_control (header : Option Bytes) (text : Bytes) (attachFinal : Bool) :
    (session.sendText header text attachFinal).toV1Control = session.toV1Control := by
  unfold sendText
  dsimp only
  split
  · rfl
  · split
    · split
      · exact append_send_buffer_control _ _
      · exact append_send_buffer_control _ _
    · exact append_send_buffer_control _ _

/-- Sending decides nothing. -/
@[simp] theorem send_packet_control (buff : Bytes) (attachFinal : Bool) :
    (session.sendPacket random buff attachFinal).toV1Control = session.toV1Control := by
  unfold sendPacket
  split
  · rfl
  · dsimp only
    split
    · rw [send_text_control, send_crypt_header_control]
    · exact send_text_control _ _ _

@[simp] theorem delete_control : (session.delete random).toV1Control = session.toV1Control := by
  unfold delete
  split
  · rfl
  · dsimp only
    split
    · exact append_send_buffer_control _ _
    · rfl

theorem delete_flag : (session.delete random).deleteFlag = true := by
  unfold delete
  split
  case isTrue hdelete => exact hdelete
  case isFalse => rfl

@[simp] theorem send_packets_control (packets : List Bytes) (lastSet : Bool) :
    (session.sendPackets random packets lastSet).toV1Control = session.toV1Control := by
  have hall : ∀ (packets : List Bytes) (session : V1Session), (packets.foldl
      (fun session packet => session.sendPacket random packet false) session).toV1Control =
      session.toV1Control := by
    intro packets
    induction packets with
    | nil => exact fun session => rfl
    | cons packet rest ih =>
        intro session
        rw [List.foldl_cons, ih, send_packet_control]
  rw [sendPackets, send_packet_control, hall]

/-- The answer for a list decides nothing. -/
@[simp] theorem on_retrieved_servers_control (req : V1ListReq) (results : InfoBatch) :
    (session.onRetrievedServers random req results).toV1Control = session.toV1Control := by
  unfold onRetrievedServers sendServers
  dsimp only
  split <;> split <;> simp

@[simp] theorem on_retrieved_groups_control (packets : List Bytes) (lastSet : Bool) :
    (session.onRetrievedGroups random packets lastSet).toV1Control = session.toV1Control := by
  unfold onRetrievedGroups
  dsimp only
  split <;> simp

@[simp] theorem check_timeout_control (now : Int) :
    (session.checkTimeout random now).toV1Control = session.toV1Control := by
  unfold checkTimeout
  split <;> simp

end Frame

/-- What holds of every end of `handle_packet` holds of what a peer that does not wait makes of a
packet. -/
theorem handle_now_ends {motive : V1Session → Prop} (now : Int) (packet : V1Packet)
    (unread : ¬ session.AsksForGame packet → ¬ session.AsksForList packet →
      motive ({ session with handled := session.handled ++ [packet] }.delete random))
    (game : session.AsksForGame packet →
      motive ({ session with handled := session.handled ++ [packet], lastRecv := now }.handleGamename
        (packetText session.validated packet.data)))
    (refused : ¬ session.AsksForGame packet → cString session.game.secretkey = [] →
      motive ({ session with handled := session.handled ++ [packet], lastRecv := now }.sendError true
        (ascii "No source gamename registered")))
    (list : session.AsksForList packet → ∀ req, motive ({ session with
      handled := session.handled ++ [packet]
      lastRecv := now
      waitingGamedata := 1
      lastListReq := req }.addRequest (if req.sendGroups then .getGroups req else .getServers req)))
    (passed : ¬ session.AsksForGame packet → ¬ session.AsksForList packet →
      motive { session with handled := session.handled ++ [packet], lastRecv := now }) :
    motive (session.handleNow random now packet) := by
  unfold handleNow
  dsimp only
  split
  case h_1 hcommand =>
    exact unread (fun h => Option.some_ne_none _ (h.1.symm.trans hcommand))
      fun h => Option.some_ne_none _ (h.1.symm.trans hcommand)
  case h_2 command hcommand =>
    split
    case isTrue hgame => exact game ⟨by rw [hcommand, hgame.1], hgame.2⟩
    case isFalse hgame =>
      have hno : ¬ session.AsksForGame packet := fun h =>
        hgame ⟨Option.some.inj (hcommand.symm.trans h.1), h.2⟩
      split
      case isTrue hlist =>
        unfold handleList
        split
        case isTrue hsecret => exact refused hno hsecret
        case isFalse hsecret => exact list ⟨by rw [hcommand, hlist], hsecret⟩ _
      case isFalse hlist =>
        exact passed hno fun h => hlist (Option.some.inj (hcommand.symm.trans h.1))

/-- The three things that a packet can do. -/
theorem handle_now_handles (now : Int) (packet : V1Packet) :
    session.toV1Control.Handles packet (session.handleNow random now packet).toV1Control := by
  apply handle_now_ends (motive := fun next =>
    session.toV1Control.Handles packet next.toV1Control) now packet
  case unread =>
    intro hgame hlist
    rw [delete_control]
    exact .passed hgame hlist
  case game => exact fun hgame => .game hgame
  case refused =>
    intro hgame hsecret
    rw [send_error_control]
    exact .passed hgame fun hlist => hlist.2 hsecret
  case list => exact fun hlist req => .list hlist req
  case passed => exact fun hgame hlist => .passed hgame hlist

/-- What holds of every end of `OnRecievedGameInfo` holds of what the answer for a game makes of a
peer. -/
theorem on_recieved_game_info_ends {motive : V1Session → Prop} (gameData : Game)
    (unknown : motive ({ session with waitingGamedata := 2 }.sendError true
      (ascii "Invalid source gamename")))
    (again : cString gameData.secretkey ≠ [] → session.validated = true →
      motive { session with waitingGamedata := 2, game := gameData })
    (right : cString gameData.secretkey ≠ [] → session.validated = false →
      cString (gsseckeyOf (cString random.challenge) (cString gameData.secretkey) session.enctype) =
        cString session.validation →
      motive { session with waitingGamedata := 2, game := gameData, validated := true })
    (wrong : cString gameData.secretkey ≠ [] → session.validated = false →
      cString (gsseckeyOf (cString random.challenge) (cString gameData.secretkey) session.enctype) ≠
        cString session.validation →
      motive ({ session with waitingGamedata := 2, game := gameData }.sendError true
        (ascii "Validation error"))) :
    motive (session.onRecievedGameInfo random gameData) := by
  unfold onRecievedGameInfo
  dsimp only
  split
  case isTrue => exact unknown
  case isFalse hsecret =>
    split
    case isTrue hvalidated => exact again hsecret hvalidated
    case isFalse hvalidated =>
      split
      case isTrue hright => exact right hsecret (Bool.eq_false_iff.mpr hvalidated) hright
      case isFalse hwrong => exact wrong hsecret (Bool.eq_false_iff.mpr hvalidated) hwrong

/-- A condition that is kept where packets wait, where the loop begins and ends, where the rest of a
read is stored, where the peer is deleted, and where a packet is handled. -/
structure KeptByTurns (random : V1Random) (holds : V1Session → Prop) : Prop where
  queue : ∀ session arrived packets, holds session →
    holds { session with arrived := arrived, waitingPackets := packets }
  loop : ∀ session waiting flushing, holds session →
    holds { session with waitingGamedata := waiting, flushing := flushing }
  store : ∀ session rest, holds session → holds { session with kvAccumulator := rest }
  delete : ∀ session, holds session → holds (session.delete random)
  handle : ∀ session now packet, holds session → holds (session.handleNow random now packet)

namespace KeptByTurns

variable {holds : V1Session → Prop}

theorem handle_packet (h : KeptByTurns random holds) (now : Int) (packet : V1Packet)
    (hsession : holds session) : holds (session.handlePacket random now packet) := by
  unfold handlePacket
  split
  · exact h.queue _ _ _ hsession
  · exact h.handle _ _ _ hsession

theorem read (h : KeptByTurns random holds) (now : Int) (chunk : Bytes) (hsession : holds session) :
    holds (session.step random (.read now chunk)) := by
  have harrive : ∀ (packets : List Bytes) (session : V1Session), holds session →
      holds (packets.foldl (fun session data => session.arrive random now data) session) := by
    intro packets
    induction packets with
    | nil => exact fun _ h => h
    | cons data rest ih =>
        intro session hsession
        exact ih _ (h.handle_packet now _ (h.queue _ _ session.waitingPackets hsession))
  have hstore : ∀ (session : V1Session) (rest : Bytes), holds session →
      holds (if rest.length > maxUnprocessedData then
        { session with kvAccumulator := rest }.delete random
      else { session with kvAccumulator := rest }) := by
    intro session rest hsession
    split
    · exact h.delete _ (h.store _ _ hsession)
    · exact h.store _ _ hsession
  show holds (if session.flushing || session.socketDeleted then session
    else session.onStreamRead random now chunk)
  split
  · exact hsession
  · exact hstore _ _ (harrive _ _ hsession)

theorem check_timeout (h : KeptByTurns random holds) (now : Int) (hsession : holds session) :
    holds (session.checkTimeout random now) := by
  unfold checkTimeout
  split
  · exact h.delete _ hsession
  · exact hsession

theorem think (h : KeptByTurns random holds) (now : Int) (hsession : holds session) :
    holds (session.step random (.think now)) := by
  show holds (if session.flushing then session else session.think random now)
  unfold V1Session.think
  split
  · exact hsession
  · split
    · exact hsession
    · split
      · exact h.loop _ _ _ hsession
      · exact h.check_timeout now hsession

theorem flush_round (h : KeptByTurns random holds) (now : Int) (hsession : holds session) :
    holds (session.step random (.flushRound now)) := by
  show holds (if session.flushing then session.flushRound random now else session)
  split
  · unfold flushRound
    split
    · exact h.check_timeout now (h.loop _ session.waitingGamedata false hsession)
    case h_2 cmd rest _ => exact h.handle_packet now cmd (h.queue _ session.arrived rest hsession)
  · exact hsession

end KeptByTurns

end V1Session

end OpenSpy.ServerBrowsing
