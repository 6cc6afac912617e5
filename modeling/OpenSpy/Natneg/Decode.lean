import OpenSpy.Natneg.Leaks

/-!
# What clients pack and natneg decodes

`on_udp_read` reads the body of a packet with the size that `packetSizeFromType` has for its type.
The table knows neither `NN_ADDRESS_CHECK` nor `NN_ERTACK`, so their bodies are not read, and the
`NN_ADDRESS_REPLY` to a version 1 client is cut off before its address. `decoded_exactly_iff`
says which packets arrive as they were packed.
-/

namespace OpenSpy.NN

open Bytes MachineInt

/-- The packet types that have a handler. -/
inductive ClientType where
  | init | connectAck | addressCheck | report | natifyRequest | ertAck
  deriving DecidableEq

/-- The type byte. -/
def ClientType.code : ClientType → UInt8
  | .init => nnInit
  | .connectAck => nnConnectAck
  | .addressCheck => nnAddressCheck
  | .report => nnReport
  | .natifyRequest => nnNatifyRequest
  | .ertAck => nnErtack

/-- A call of the handler of a type. Only `handle_init_packet` has a game name. -/
structure HandlerCall where
  handler : ClientType
  packet : NatNegPacket
  gamename : Bytes

/-- What a handler sends. -/
def HandlerCall.perform (driver : Driver) (sender : Address) (call : HandlerCall) : List Sent :=
  match call.handler with
  | .init => handleInitPacket driver sender call.packet call.gamename
  | .connectAck => handleConnectAckPacket driver sender call.packet
  | .addressCheck => handleAddressCheckPacket sender call.packet
  | .report => handleReportPacket sender call.packet
  | .natifyRequest => handleNatifyPacket driver sender call.packet
  | .ertAck => handleErtAckPacket driver sender call.packet

/-- The switch of `on_udp_read` up to the handler. -/
def handlerCalls (behind : Bytes) (buffer : Buffer) (packet : NatNegPacket) : List HandlerCall :=
  let (read, buffer) := readBody buffer packet (packetSizeFromType packet.packettype packet.version)
  if packet.packettype = nnInit then
    [⟨.init, read, if packet.version > 1 then (buffer.readNTS behind).1 else []⟩]
  else if packet.packettype = nnConnectAck then [⟨.connectAck, read, []⟩]
  else if packet.packettype = nnAddressCheck then [⟨.addressCheck, read, []⟩]
  else if packet.packettype = nnReport then [⟨.report, read, []⟩]
  else if packet.packettype = nnNatifyRequest then [⟨.natifyRequest, read, []⟩]
  else if packet.packettype = nnErtack then [⟨.ertAck, read, []⟩]
  else []

/-- The handlers that `on_udp_read` calls. -/
def readCalls (behind datagram : Bytes) (packet : NatNegPacket) : List HandlerCall :=
  if datagram.length > 0 then
    let (packet, buffer) := readMagic (Buffer.empty.writeBuffer datagram) packet
    if packet.magic = nnMagicData then
      let (packet, buffer) := readHeader buffer packet
      handlerCalls behind buffer packet
    else []
  else []

/-- `on_udp_read` does what the handlers do that it calls. -/
theorem on_udp_read_eq (driver : Driver) (sender : Address) (behind datagram : Bytes)
    (packet : NatNegPacket) :
    onUdpRead driver sender behind datagram packet =
      (readCalls behind datagram packet).flatMap (HandlerCall.perform driver sender) := by
  have hswitch : ∀ buffer packet, handlePacket driver sender behind buffer packet =
      (handlerCalls behind buffer packet).flatMap (HandlerCall.perform driver sender) := by
    intro buffer packet
    unfold handlePacket handlerCalls
    simp only
    split_ifs <;> simp [HandlerCall.perform]
  unfold onUdpRead readCalls
  simp only
  split_ifs
  · exact hswitch _ _
  · rfl
  · rfl

/-- The size of the body that a client packs: that of the type, without the local address for
version 1. -/
def bodySize (type : ClientType) (version : UInt8) : Nat :=
  match type with
  | .report => 61
  | _ => if version = 1 then 3 else 9

/-- A packet as a client packs it. -/
structure ClientPacket where
  type : ClientType
  version : UInt8
  cookie : Memory 4
  body : Bytes
  gamename : Bytes
  bodyLength : body.length = bodySize type version
  gamenameNul : 0 ∉ gamename

namespace ClientPacket

variable (packet : ClientPacket)

/-- What follows the body: the game name of `NN_INIT`, from version 2 on. -/
def trailer : Bytes :=
  if packet.type = .init ∧ packet.version > 1 then packet.gamename ++ [0] else []

/-- The game name that is packed. -/
def packedName : Bytes :=
  if packet.type = .init ∧ packet.version > 1 then packet.gamename else []

/-- The datagram. -/
def encode : Bytes :=
  List.ofFn nnMagicData ++ [packet.version, packet.type.code] ++ List.ofFn packet.cookie ++
    packet.body ++ packet.trailer

/-- The bytes of the body as the handler should find them, with no local address if none was
packed. -/
def fields : Bytes :=
  match packet.type with
  | .report => packet.body
  | _ => packet.body ++ List.replicate (9 - packet.body.length) 0

/-- A call of the handler with what was packed. -/
structure Carried (call : HandlerCall) : Prop where
  handler : call.handler = packet.type
  version : call.packet.version = packet.version
  packettype : call.packet.packettype = packet.type.code
  cookie : call.packet.cookie = packet.cookie
  fields : (List.ofFn call.packet.body).take packet.fields.length = packet.fields
  gamename : call.gamename = packet.packedName

/-- The address of a sender as it stands in a packet. -/
def addressBytes (sender : Address) : Bytes :=
  [sender.ip.a, sender.ip.b, sender.ip.c, sender.ip.d,
    .ofNat (sender.port.toNat / 256), .ofNat sender.port.toNat]

/-- The packet arrives as it was packed: its handler is called once with its fields, and a check is
answered with its cookie, port type and client index and the address of its sender. -/
structure DecodedExactly : Prop where
  called : ∀ behind memory, ∃ call, readCalls behind packet.encode memory = [call] ∧
    packet.Carried call
  replied : packet.type = .addressCheck → ∀ driver sender behind memory, ∃ usegameport,
    onUdpRead driver sender behind packet.encode memory =
      [.udp sender (List.ofFn nnMagicData ++ [packet.version, nnAddressReply] ++
        List.ofFn packet.cookie ++ [packet.body.getD 0 0, packet.body.getD 1 0, usegameport] ++
          addressBytes sender)]

/-- `packetSizeFromType` has a size for the type. -/
def InTable : Prop :=
  packet.type ≠ .addressCheck ∧ packet.type ≠ .ertAck

instance : Decidable packet.InTable :=
  inferInstanceAs (Decidable (_ ∧ _))

end ClientPacket

section Memory

variable {n : Nat}

/-- The bytes of a memory, written to another. -/
theorem write_of_fn (memory other : Memory n) : memory.write 0 (List.ofFn other) = other := by
  funext i
  rw [Memory.write, if_pos (by simp)]
  simp

/-- Bytes that are written are there. -/
theorem take_of_fn_write (memory : Memory n) {bytes : Bytes} (h : bytes.length ≤ n) :
    (List.ofFn (memory.write 0 bytes)).take bytes.length = bytes := by
  refine List.ext_getElem (by simpa using h) fun i hi hlt => ?_
  rw [List.getElem_take, List.getElem_ofFn, Memory.write, if_pos (by simp only; omega)]
  exact List.getElem_eq_getD 0 |>.symm

/-- Bytes that are written over zeros. -/
theorem write_over_zeros (memory : Memory n) {bytes : Bytes} {k : Nat} (h : bytes.length ≤ k) :
    (memory.write 0 (List.replicate k 0)).write 0 bytes =
      memory.write 0 (bytes ++ List.replicate (k - bytes.length) 0) := by
  funext i
  unfold Memory.write
  simp only [Nat.zero_le, Nat.zero_add, true_and, Nat.sub_zero, List.length_append,
    List.length_replicate]
  by_cases hin : i.val < bytes.length
  · rw [if_pos hin, if_pos (by omega), List.getD_eq_getElem?_getD, List.getD_eq_getElem?_getD,
      List.getElem?_append_left hin]
  · rw [if_neg hin]
    by_cases hzero : i.val < k
    · rw [if_pos hzero, if_pos (by omega), List.getD_eq_getElem?_getD,
        List.getD_eq_getElem?_getD, List.getElem?_append_right (by omega)]
      simp only [List.getElem?_replicate]
      split <;> split <;> rfl
    · rw [if_neg hzero, if_neg (by omega)]

/-- The end of what was written is overwritten. -/
theorem write_over_end (memory : Memory n) {bytes more : Bytes} {k : Nat}
    (h : k + more.length = bytes.length) :
    (memory.write 0 bytes).write k more = memory.write 0 (bytes.take k ++ more) := by
  have hlen : (bytes.take k).length = k := by
    rw [List.length_take]
    omega
  funext i
  unfold Memory.write
  simp only [Nat.zero_le, Nat.zero_add, true_and, Nat.sub_zero, List.length_append, hlen]
  by_cases hhigh : k ≤ i.val
  · by_cases hin : i.val < k + more.length
    · rw [if_pos ⟨hhigh, hin⟩, if_pos hin, List.getD_eq_getElem?_getD,
        List.getD_eq_getElem?_getD, List.getElem?_append_right (by omega), hlen]
    · rw [if_neg fun h => hin h.2, if_neg hin, if_neg (by omega)]
  · rw [if_neg fun h => hhigh h.1, if_pos (by omega), if_pos (by omega),
      List.getD_eq_getElem?_getD, List.getD_eq_getElem?_getD,
      List.getElem?_append_left (by omega), List.getElem?_take, if_pos (by omega)]

end Memory

/-- Bytes that are next are read. -/
theorem read_buffer_next {buffer : Buffer} {bytes rest : Bytes}
    (hnext : buffer.unread = bytes ++ rest) :
    buffer.readBuffer bytes.length = (some bytes, ⟨buffer.read ++ bytes, rest⟩) := by
  have hlen : ¬ buffer.readRemaining < bytes.length := by
    simp [Buffer.readRemaining, hnext]
  rw [Buffer.readBuffer, if_neg hlen, Buffer.skipRead, hnext, List.take_left' rfl,
    List.drop_left' rfl]

section Decode

variable (packet : ClientPacket) (behind : Bytes) (memory : NatNegPacket)

/-- The packet variable when the body is read. -/
def openedPacket : NatNegPacket :=
  { magic := nnMagicData
    version := packet.version
    packettype := packet.type.code
    cookie := packet.cookie
    body := memory.body.write 0 (List.replicate 9 0) }

/-- The buffer when the body is read. -/
def bodyBuffer : Buffer :=
  ⟨List.ofFn nnMagicData ++ [packet.version, packet.type.code] ++ List.ofFn packet.cookie,
    packet.body ++ packet.trailer⟩

/-- The magic bytes and the header of a packet are read. -/
theorem read_calls_encode :
    readCalls behind packet.encode memory =
      handlerCalls behind (bodyBuffer packet) (openedPacket packet memory) := by
  have hmagic : readMagic (Buffer.empty.writeBuffer packet.encode) memory =
      ({ memory with magic := nnMagicData },
        ⟨List.ofFn nnMagicData, [packet.version, packet.type.code] ++ List.ofFn packet.cookie ++
          (packet.body ++ packet.trailer)⟩) := by
    have hnext : (Buffer.empty.writeBuffer packet.encode).unread =
        List.ofFn nnMagicData ++ ([packet.version, packet.type.code] ++ List.ofFn packet.cookie ++
          (packet.body ++ packet.trailer)) := by
      simp [Buffer.empty, Buffer.writeBuffer, ClientPacket.encode]
    have hread := read_buffer_next hnext
    rw [List.length_ofFn] at hread
    rw [readMagic, hread]
    simp only [write_of_fn]
    rfl
  have hheader : readHeader
      ⟨List.ofFn nnMagicData, [packet.version, packet.type.code] ++ List.ofFn packet.cookie ++
          (packet.body ++ packet.trailer)⟩ { memory with magic := nnMagicData } =
      (openedPacket packet memory, bodyBuffer packet) := by
    have hcookie : ¬ (Buffer.mk (List.ofFn nnMagicData ++ [packet.version] ++ [packet.type.code])
        (List.ofFn packet.cookie ++ (packet.body ++ packet.trailer))).readRemaining < 4 := by
      simp [Buffer.readRemaining]
    simp only [readHeader, Buffer.readByte, Buffer.skipRead, Buffer.readInt, List.cons_append,
      List.nil_append, List.take_succ_cons, List.take_zero, List.drop_succ_cons, List.drop_zero,
      if_neg hcookie, List.take_left' (List.length_ofFn), List.drop_left' (List.length_ofFn),
      write_of_fn]
    simp [openedPacket, bodyBuffer]
  have hpos : packet.encode.length > 0 := by simp [ClientPacket.encode]
  rw [readCalls, if_pos hpos, hmagic]
  simp only [if_true, hheader]

theorem not_in_table_iff :
    ¬ packet.InTable ↔ packet.type = .addressCheck ∨ packet.type = .ertAck := by
  rw [ClientPacket.InTable, not_and_or, not_not, not_not]

theorem body_length_le : packet.body.length ≤ 61 := by
  rw [packet.bodyLength]
  unfold bodySize
  split
  · exact le_rfl
  · split <;> omega

/-- The size in the table is that of the body. -/
theorem packet_size_in_table (h : packet.InTable) :
    packetSizeFromType packet.type.code packet.version = packet.body.length := by
  rw [packet.bodyLength]
  obtain ⟨type, version, _, _, _, _, _⟩ := packet
  obtain ⟨hcheck, hack⟩ := h
  by_cases hversion : version = 1
  · subst hversion
    cases type <;> first | rfl | exact absurd rfl hcheck | exact absurd rfl hack
  · cases type <;> first
      | (simp +decide [packetSizeFromType, bodySize, hversion, ClientType.code]; done)
      | exact absurd rfl hcheck
      | exact absurd rfl hack

/-- The body of a type that the table does not know is not read. -/
theorem packet_size_not_in_table (h : ¬ packet.InTable) :
    packetSizeFromType packet.type.code packet.version = -12 := by
  rcases (not_in_table_iff packet).mp h with htype | htype <;> rw [htype] <;> rfl

/-- What the handler is called with, where the table knows the type. -/
theorem read_body_in_table (h : packet.InTable) :
    readBody (bodyBuffer packet) (openedPacket packet memory)
        (packetSizeFromType packet.type.code packet.version) =
      ({ openedPacket packet memory with
          body := (openedPacket packet memory).body.write 0 packet.body },
        ⟨(bodyBuffer packet).read ++ packet.body, packet.trailer⟩) := by
  have hsize : sizeT packet.body.length = packet.body.length := by
    have hle := body_length_le packet
    have hself := @size_t_eq_self packet.body.length (by omega) (by omega)
    exact_mod_cast hself
  rw [packet_size_in_table packet h, readBody, hsize, read_buffer_next rfl]

/-- What the handler is called with, where it does not. -/
theorem read_body_not_in_table (h : ¬ packet.InTable) :
    readBody (bodyBuffer packet) (openedPacket packet memory)
        (packetSizeFromType packet.type.code packet.version) =
      (openedPacket packet memory, bodyBuffer packet) := by
  have hshort : (bodyBuffer packet).readRemaining < sizeT (-12) := by
    have hle := body_length_le packet
    have htrailer : packet.trailer = [] := by
      rw [ClientPacket.trailer, if_neg]
      rintro ⟨hinit, -⟩
      rcases (not_in_table_iff packet).mp h with htype | htype <;> simp [hinit] at htype
    have hsize : sizeT (-12) = 2 ^ 64 - 12 := by decide
    rw [hsize, Buffer.readRemaining, bodyBuffer, htrailer, List.append_nil]
    show packet.body.length < _
    omega
  rw [packet_size_not_in_table packet h, readBody, Buffer.readBuffer, if_pos hshort]

/-- The handler of the type is called, once. -/
theorem handler_calls_eq :
    handlerCalls behind (bodyBuffer packet) (openedPacket packet memory) =
      [⟨packet.type,
        (readBody (bodyBuffer packet) (openedPacket packet memory)
          (packetSizeFromType packet.type.code packet.version)).1,
        if packet.type = .init ∧ packet.version > 1 then
          ((readBody (bodyBuffer packet) (openedPacket packet memory)
            (packetSizeFromType packet.type.code packet.version)).2.readNTS behind).1
        else []⟩] := by
  unfold handlerCalls
  simp only [show (openedPacket packet memory).packettype = packet.type.code from rfl,
    show (openedPacket packet memory).version = packet.version from rfl]
  cases htype : packet.type <;> simp +decide [ClientType.code]

/-- A game name goes to its NUL. -/
theorem read_nts_name {name : Bytes} (h : 0 ∉ name) (read : Bytes) :
    ((Buffer.mk read (name ++ [0])).readNTS behind).1 = name := by
  have hlen : ¬ (Buffer.mk read (name ++ [0])).readRemaining < 1 := by
    simp [Buffer.readRemaining]
  have htake : (name ++ 0 :: behind).takeWhile (· ≠ 0) = name := c_string_terminated h behind
  rw [Buffer.readNTS, if_neg hlen]
  simpa using htake

/-- The fields of a type without a report: nine bytes. -/
theorem fields_of_not_report (h : packet.type ≠ .report) :
    packet.body.length ≤ 9 ∧
      packet.fields = packet.body ++ List.replicate (9 - packet.body.length) 0 := by
  constructor
  · rw [packet.bodyLength]
    unfold bodySize
    split
    · contradiction
    · split <;> omega
  · rw [ClientPacket.fields]
    split
    · contradiction
    · rfl

/-- The body that is read over the zeros is that of the fields. -/
theorem body_carried :
    (List.ofFn ((openedPacket packet memory).body.write 0 packet.body)).take packet.fields.length =
      packet.fields := by
  by_cases hreport : packet.type = .report
  · have hfields : packet.fields = packet.body := by
      rw [ClientPacket.fields, hreport]
    rw [hfields]
    exact take_of_fn_write _ (body_length_le packet)
  · obtain ⟨hle, hfields⟩ := fields_of_not_report packet hreport
    rw [openedPacket, write_over_zeros _ hle, ← hfields]
    refine take_of_fn_write _ ?_
    rw [hfields, List.length_append, List.length_replicate]
    omega

/-- A packet whose type is in the table arrives as it was packed. -/
theorem carried_in_table (h : packet.InTable) :
    ∃ call, readCalls behind packet.encode memory = [call] ∧ packet.Carried call := by
  rw [read_calls_encode, handler_calls_eq, read_body_in_table packet memory h]
  refine ⟨_, rfl, rfl, rfl, rfl, rfl, body_carried packet memory, ?_⟩
  · rw [ClientPacket.packedName]
    split
    · next hname =>
        rw [ClientPacket.trailer, if_pos hname]
        exact read_nts_name behind packet.gamenameNul _
    · rfl

/-- The fields of the others arrive as zeros. -/
theorem carried_not_in_table (h : ¬ packet.InTable) :
    (∃ call, readCalls behind packet.encode memory = [call] ∧ packet.Carried call) ↔
      packet.body = List.replicate packet.body.length 0 := by
  have htype := (not_in_table_iff packet).mp h
  have hreport : packet.type ≠ .report := by
    rcases htype with heq | heq <;> simp [heq]
  have hinit : packet.type ≠ .init := by
    rcases htype with heq | heq <;> simp [heq]
  obtain ⟨hle, hfields⟩ := fields_of_not_report packet hreport
  have hlen : packet.fields.length = 9 := by
    rw [hfields, List.length_append, List.length_replicate]
    omega
  have hzeros : (List.ofFn (openedPacket packet memory).body).take 9 = List.replicate 9 0 :=
    @take_of_fn_write 61 memory.body (List.replicate 9 0) (by decide)
  have hiff : List.replicate 9 0 = packet.fields ↔
      packet.body = List.replicate packet.body.length 0 := by
    have hsplit : List.replicate 9 (0 : UInt8) =
        List.replicate packet.body.length 0 ++ List.replicate (9 - packet.body.length) 0 := by
      rw [List.replicate_append_replicate]
      congr 1
      omega
    rw [hfields, hsplit, List.append_cancel_right_eq]
    exact eq_comm
  rw [read_calls_encode, handler_calls_eq, read_body_not_in_table packet memory h, ← hiff]
  constructor
  · rintro ⟨call, hcall, hcarried⟩
    obtain rfl := List.singleton_inj.mp hcall
    have hbody := hcarried.fields
    rw [hlen, hzeros] at hbody
    exact hbody
  · intro hbody
    refine ⟨_, rfl, rfl, rfl, rfl, rfl, ?_, ?_⟩
    · rw [hlen, hzeros]
      exact hbody
    · rw [ClientPacket.packedName, if_neg fun hname => hinit hname.1,
        if_neg fun hname => hinit hname.1]

/-- The reply to a check: zeros and the address of the sender, as far as the size of the reply
goes. -/
theorem check_reply (h : packet.type = .addressCheck) (driver : Driver) (sender : Address) :
    onUdpRead driver sender behind packet.encode memory =
      [.udp sender (List.ofFn nnMagicData ++ [packet.version, nnAddressReply] ++
        List.ofFn packet.cookie ++
          ([0, 0, 0] ++ ClientPacket.addressBytes sender).take
            (if packet.version = 1 then 3 else 9))] := by
  have htable : ¬ packet.InTable := fun hin => hin.1 h
  have hbody : (openedPacket packet memory).body.write 3 (ClientPacket.addressBytes sender) =
      memory.body.write 0 ([0, 0, 0] ++ ClientPacket.addressBytes sender) :=
    write_over_end memory.body rfl
  have hlen : ([0, 0, 0] ++ ClientPacket.addressBytes sender).length = 9 := rfl
  have htake : (List.ofFn (memory.body.write 0
      ([0, 0, 0] ++ ClientPacket.addressBytes sender))).take 9 =
        [0, 0, 0] ++ ClientPacket.addressBytes sender := by
    rw [← hlen]
    exact take_of_fn_write memory.body (by rw [hlen]; decide)
  have hsize : packetSizeFromType nnAddressReply packet.version =
      ((if packet.version = 1 then 3 else 9 : Nat) : Int) := by
    by_cases hversion : packet.version = 1
    · rw [hversion]
      rfl
    · simp +decide [packetSizeFromType, hversion]
  have hsent := send_bytes_eq
    { openedPacket packet memory with
      packettype := nnAddressReply
      body := memory.body.write 0 ([0, 0, 0] ++ ClientPacket.addressBytes sender) } _ hsize
  have hmin : min (if packet.version = 1 then 3 else 9) 9 =
      if packet.version = 1 then 3 else 9 := by
    split <;> rfl
  rw [on_udp_read_eq, read_calls_encode, handler_calls_eq,
    read_body_not_in_table packet memory htable, List.flatMap_singleton, HandlerCall.perform, h]
  show [Sent.udp sender (NatNegPacket.sendBytes { openedPacket packet memory with
    packettype := nnAddressReply
    body := (openedPacket packet memory).body.write 3 (ClientPacket.addressBytes sender) })] = _
  rw [hbody, hsent, ← htake, List.take_take, hmin]
  rfl

end Decode

/-- The packet arrives as it was packed if and only if the table knows its type, or its fields are
all zero and it is not a check of version 1. -/
theorem decoded_exactly_iff (packet : ClientPacket) :
    packet.DecodedExactly ↔ packet.InTable ∨
      (packet.body = List.replicate packet.body.length 0 ∧
        (packet.type = .addressCheck → packet.version ≠ 1)) := by
  by_cases htable : packet.InTable
  · refine iff_of_true ⟨fun behind memory => carried_in_table packet behind memory htable, ?_⟩
      (.inl htable)
    exact fun hcheck => absurd hcheck htable.1
  · rw [or_iff_right htable]
    constructor
    · intro h
      refine ⟨(carried_not_in_table packet [] (filledWith 0) htable).mp (h.called _ _), ?_⟩
      intro hcheck hversion
      obtain ⟨usegameport, hreply⟩ := h.replied hcheck
        ⟨⟨⟨0, 0, 0, 0⟩, 0⟩, [], fun _ => true⟩ ⟨⟨0, 0, 0, 0⟩, 0⟩ [] (filledWith 0)
      rw [check_reply packet [] (filledWith 0) hcheck, hversion] at hreply
      have hlen := congrArg List.length (Sent.udp.inj (List.singleton_inj.mp hreply)).2
      simp [ClientPacket.addressBytes] at hlen
    · rintro ⟨hzero, hversion⟩
      refine ⟨fun behind memory => (carried_not_in_table packet behind memory htable).mpr hzero,
        fun hcheck driver sender behind memory => ⟨0, ?_⟩⟩
      have hbyte : ∀ i, packet.body.getD i 0 = 0 := by
        intro i
        rw [hzero, List.getD_eq_getElem?_getD, List.getElem?_replicate]
        split <;> rfl
      rw [check_reply packet behind memory hcheck, if_neg (hversion hcheck), hbyte, hbyte]
      rfl

/-- The port type of a check is lost. -/
theorem check_fields_lost :
    ¬ ∀ packet : ClientPacket, packet.DecodedExactly := by
  intro h
  have hzero := (carried_not_in_table
    ⟨.addressCheck, 2, fun _ => 7, [1, 0, 0, 0, 0, 0, 0, 0, 0], [], rfl, by decide⟩ []
    (filledWith 0) (by decide)).mp ((h _).called _ _)
  exact absurd hzero (by decide)

end OpenSpy.NN
