import OpenSpy.Natneg.Driver

/-!
# What natneg responses are made of

A packet variable starts with what the memory held. `responses_independent_iff` says for which
inputs what is sent does not depend on it. A datagram that is shorter than the magic bytes is
compared with what was there, a report that ends before its body does is acknowledged with the
rest of a body that was there, and `preinit_ack` and `report_ack` messages fill no body at all.
-/

namespace OpenSpy.NN

open Bytes

/-- What responses depend on besides the input and the packet variable. -/
structure Setting where
  driver : Driver
  drivers : List Address
  behind : Bytes
  unset : UInt16

/-- A datagram with its sender, or what `json_loads` makes of a message. -/
inductive Input where
  | datagram (sender : Address) (bytes : Bytes)
  | message (root : Option Json)

/-- The response to an input, for a packet variable as it is found. -/
def respond (setting : Setting) (input : Input) (packet : NatNegPacket) : Option (List Sent) :=
  match input with
  | .datagram sender bytes =>
      some (onUdpRead setting.driver sender setting.behind bytes packet)
  | .message root => handleRecvMessage setting.drivers setting.unset root packet

/-- The response is the same whatever the packet variable held. -/
def Independent (setting : Setting) (input : Input) : Prop :=
  ∀ packet packet', respond setting input packet = respond setting input packet'

/-- `on_udp_read` has a handler for the type. -/
def HasHandler (type : UInt8) : Prop :=
  type = nnInit ∨ type = nnConnectAck ∨ type = nnAddressCheck ∨ type = nnReport ∨
    type = nnNatifyRequest ∨ type = nnErtack

/-- A datagram that is too short for the magic bytes has no type with a handler, where a byte
that is not there counts as zero; a report is complete. -/
structure DatagramDetermined (bytes : Bytes) : Prop where
  short : bytes ≠ [] → bytes.length < 6 → ¬ HasHandler (bytes.getD 1 0)
  report : List.ofFn nnMagicData <+: bytes → bytes.getD 7 0 = nnReport → 73 ≤ bytes.length

/-- The message asks for no packet of a type whose body is not filled. -/
def MessageDetermined (setting : Setting) (root : Option Json) : Prop :=
  ∀ message, readMessage setting.drivers setting.unset root = some (some message) →
    message.packetType ≠ nnPreinitAck ∧ message.packetType ≠ nnReportAck

/-- The input determines the response. -/
def Determined (setting : Setting) : Input → Prop
  | .datagram _ bytes => DatagramDetermined bytes
  | .message root => MessageDetermined setting root

section Memory

variable {n : Nat} {memory memory' : Memory n} {bytes : Bytes}

/-- Where memories were the same, and where they are written, they are the same. -/
theorem write_eq {i : Fin n} (h : bytes.length ≤ i.val → memory i = memory' i) :
    memory.write 0 bytes i = memory'.write 0 bytes i := by
  unfold Memory.write
  split
  · rfl
  · next hlt => exact h (by omega)

theorem write_congr {i : Fin n} {offset : Nat} (h : memory i = memory' i) :
    memory.write offset bytes i = memory'.write offset bytes i := by
  rw [Memory.write, Memory.write, h]

/-- Memory that is written as a whole. -/
theorem write_all (h : bytes.length = n) : memory.write 0 bytes = memory'.write 0 bytes :=
  funext fun i => write_eq fun hle => absurd i.isLt (by omega)

/-- Memory that is written as a whole is what is written. -/
theorem of_fn_write (h : bytes.length = n) : List.ofFn (memory.write 0 bytes) = bytes := by
  subst h
  refine List.ext_getElem (by simp) fun i hi hlt => ?_
  rw [List.getElem_ofFn, Memory.write, if_pos (by simp only; omega)]
  exact List.getElem_eq_getD 0 |>.symm

theorem write_nil (memory : Memory n) : memory.write 0 [] = memory :=
  funext fun i => by simp [Memory.write]

theorem take_of_fn_eq {k : Nat} (h : ∀ i : Fin n, i.val < k → memory i = memory' i) :
    (List.ofFn memory).take k = (List.ofFn memory').take k := by
  refine List.ext_getElem (by simp) fun i hi _ => ?_
  rw [List.length_take, List.length_ofFn] at hi
  rw [List.getElem_take, List.getElem_take, List.getElem_ofFn, List.getElem_ofFn]
  exact h ⟨i, by omega⟩ (by simp only; omega)

theorem eq_of_take_of_fn {k : Nat} (h : (List.ofFn memory).take k = (List.ofFn memory').take k)
    {i : Fin n} (hi : i.val < k) : memory i = memory' i := by
  have hget := congrArg (fun bytes => bytes[i.val]?) h
  simpa [List.getElem?_take, hi, List.getElem?_ofFn] using hget

end Memory

/-- A packet whose bytes are all the same. -/
def filledWith (byte : UInt8) : NatNegPacket :=
  ⟨fun _ => byte, byte, byte, fun _ => byte, fun _ => byte⟩

/-- Two packets have the same header and the same first bytes of the body. -/
structure AgreeTo (n : Nat) (packet packet' : NatNegPacket) : Prop where
  version : packet.version = packet'.version
  packettype : packet.packettype = packet'.packettype
  cookie : packet.cookie = packet'.cookie
  body : ∀ i : Fin 61, i.val < n → packet.body i = packet'.body i

section Send

variable {n : Nat} {packet packet' : NatNegPacket}

theorem AgreeTo.mono {k : Nat} (h : AgreeTo n packet packet') (hle : k ≤ n) :
    AgreeTo k packet packet' :=
  ⟨h.version, h.packettype, h.cookie, fun i hi => h.body i (hi.trans_le hle)⟩

/-- The bytes that are sent: the header, and the body of the type. -/
theorem send_bytes_eq (packet : NatNegPacket) (n : Nat)
    (hsize : packetSizeFromType packet.packettype packet.version = n) :
    packet.sendBytes = List.ofFn nnMagicData ++ [packet.version, packet.packettype] ++
      List.ofFn packet.cookie ++ (List.ofFn packet.body).take n := by
  have hnat : (packetSizeFromType packet.packettype packet.version + basepacketSize).toNat =
      12 + n := by
    rw [hsize, basepacketSize]
    omega
  have hheader : (List.ofFn nnMagicData ++ [packet.version, packet.packettype] ++
      List.ofFn packet.cookie).length = 12 := by
    simp only [List.length_append, List.length_ofFn, List.length_cons, List.length_nil]
  simp only [NatNegPacket.sendBytes, NatNegPacket.bytes, hnat]
  rw [List.take_append, List.take_of_length_le (by omega), hheader, Nat.add_sub_cancel_left]

/-- Packets that agree on what is sent are sent alike. -/
theorem send_bytes_congr (h : AgreeTo n packet packet')
    (hsize : packetSizeFromType packet.packettype packet.version = n) :
    packet.sendBytes = packet'.sendBytes := by
  have hsize' : packetSizeFromType packet'.packettype packet'.version = n := by
    rw [← h.packettype, ← h.version, hsize]
  rw [send_bytes_eq packet n hsize, send_bytes_eq packet' n hsize', h.version, h.packettype,
    h.cookie, take_of_fn_eq h.body]

/-- An `InitPacket` is at most nine bytes. -/
theorem init_size_le {type : UInt8} (version : UInt8)
    (htype : type = nnAddressReply ∨ type = nnErttest ∨ type = nnInitack) :
    ∃ n : Nat, packetSizeFromType type version = n ∧ n ≤ 9 := by
  by_cases hversion : version = 1
  · refine ⟨3, ?_, by decide⟩
    rcases htype with rfl | rfl | rfl <;> subst hversion <;> decide
  · refine ⟨9, ?_, by decide⟩
    rcases htype with rfl | rfl | rfl <;> simp +decide [packetSizeFromType, hversion]

/-- What is sent shows the body of the type. -/
theorem body_eq_of_send (packet packet' : NatNegPacket)
    (hversion : packet.version = packet'.version)
    (htype : packet.packettype = packet'.packettype) (hcookie : packet.cookie = packet'.cookie)
    (hsize : packetSizeFromType packet.packettype packet.version = n)
    (h : packet.sendBytes = packet'.sendBytes) {i : Fin 61} (hi : i.val < n) :
    packet.body i = packet'.body i := by
  have hsize' : packetSizeFromType packet'.packettype packet'.version = n := by
    rw [← htype, ← hversion, hsize]
  rw [send_bytes_eq packet n hsize, send_bytes_eq packet' n hsize', hversion, htype, hcookie] at h
  exact eq_of_take_of_fn (List.append_cancel_left h) hi

end Send

section Message

variable {setting : Setting} {root : Option Json} {message : RecvMessage}

theorem packet_type_of_cases (typeStr : Bytes) :
    packetTypeOf typeStr = nnConnect ∨ packetTypeOf typeStr = nnErttest ∨
      packetTypeOf typeStr = nnInitack ∨ packetTypeOf typeStr = nnPreinitAck ∨
      packetTypeOf typeStr = nnReportAck := by
  unfold packetTypeOf
  split_ifs <;> simp

/-- The type of a packet that a message asks for comes from its text. -/
theorem read_message_type
    (h : readMessage setting.drivers setting.unset root = some (some message)) :
    ∃ typeStr, message.packetType = packetTypeOf typeStr := by
  unfold readMessage at h
  split at h
  · cases h
  · split at h
    · cases h
    · extract_lets gamename at h
      split at h
      · cases h
      · split at h
        · cases h
        · simp only [Option.bind_eq_bind, Option.bind_eq_some_iff] at h
          obtain ⟨driverAddress, -, address, -, h⟩ := h
          split at h
          · obtain ⟨typeStr, -, h⟩ := Option.bind_eq_some_iff.mp h
            cases h
            exact ⟨typeStr, rfl⟩
          · cases h

/-- What `read_amqp_message` writes depends on the message and the type alone. -/
theorem read_amqp_message_spec (data : Option Json) (type : UInt8) :
    ∃ bytes : Bytes, bytes.length =
        (if type = nnErttest ∨ type = nnInitack then 9 else if type = nnConnect then 8 else 0) ∧
      ∀ packet : NatNegPacket, packet.packettype = type →
        readAmqpMessage data packet = { packet with body := packet.body.write 0 bytes } := by
  by_cases hinit : type = nnErttest ∨ type = nnInitack
  · rw [if_pos hinit]
    refine ⟨?_, ?_, fun packet htype => ?_⟩
    rotate_left 2
    · simp only [readAmqpMessage, htype, if_pos hinit]
      rfl
    · rfl
  · rw [if_neg hinit]
    by_cases hconnect : type = nnConnect
    · rw [if_pos hconnect]
      refine ⟨?_, ?_, fun packet htype => ?_⟩
      rotate_left 2
      · simp only [readAmqpMessage, htype, if_neg hinit, if_pos hconnect]
        rfl
      · rfl
    · rw [if_neg hconnect]
      refine ⟨[], rfl, fun packet htype => ?_⟩
      rw [← htype] at hinit hconnect
      rw [write_nil]
      exact (if_neg hinit).trans (if_neg hconnect)

/-- Packets whose bodies are written alike agree on what is written. -/
theorem agree_to_write {packet packet' : NatNegPacket} (bytes : Bytes)
    (hversion : packet.version = packet'.version)
    (htype : packet.packettype = packet'.packettype) (hcookie : packet.cookie = packet'.cookie) :
    AgreeTo bytes.length { packet with body := packet.body.write 0 bytes }
      { packet' with body := packet'.body.write 0 bytes } :=
  ⟨hversion, htype, hcookie, fun _ hi => write_eq fun hle => absurd hi (by omega)⟩

/-- Of the body of a packet that a message asks for, no more is sent than is written. -/
theorem message_size_le {type : UInt8} (version : UInt8)
    (htype : type = nnConnect ∨ type = nnErttest ∨ type = nnInitack) :
    ∃ n : Nat, packetSizeFromType type version = n ∧
      n ≤ if type = nnErttest ∨ type = nnInitack then 9 else if type = nnConnect then 8 else 0 := by
  rcases htype with rfl | rfl | rfl
  · exact ⟨8, rfl, by decide⟩
  · exact init_size_le version (.inr (.inl rfl))
  · exact init_size_le version (.inr (.inr rfl))

/-- The packet of a message whose body is filled. -/
theorem send_message_eq (htype : message.packetType = nnConnect ∨ message.packetType = nnErttest ∨
    message.packetType = nnInitack) (packet packet' : NatNegPacket) :
    sendMessage message packet = sendMessage message packet' := by
  obtain ⟨bytes, hlength, hbytes⟩ := read_amqp_message_spec message.data message.packetType
  obtain ⟨n, hsize, hle⟩ := message_size_le (.ofInt message.version) htype
  rw [← hlength] at hle
  unfold sendMessage
  extract_lets byte filled filled'
  rw [hbytes filled rfl, hbytes filled' rfl]
  have hagree : AgreeTo bytes.length { filled with body := filled.body.write 0 bytes }
      { filled' with body := filled'.body.write 0 bytes } :=
    agree_to_write bytes rfl rfl (write_all rfl)
  exact congrArg (Sent.udp message.receiver) (send_bytes_congr (hagree.mono hle) hsize)

/-- The packet of a message whose body is not filled shows what was there. -/
theorem send_message_ne (htype : message.packetType = nnPreinitAck ∨
    message.packetType = nnReportAck) :
    sendMessage message (filledWith 0) ≠ sendMessage message (filledWith 1) := by
  intro heq
  unfold sendMessage at heq
  extract_lets byte filled filled' at heq
  have hunread (packet : NatNegPacket) (h : packet.packettype = message.packetType) :
      readAmqpMessage message.data packet = packet := by
    rcases htype with htype | htype <;> rw [htype] at h <;>
      exact (if_neg (by rw [h]; decide)).trans (if_neg (by rw [h]; decide))
  rw [hunread filled rfl, hunread filled' rfl] at heq
  obtain ⟨n, hsize, hpos⟩ : ∃ n : Nat,
      packetSizeFromType message.packetType (.ofInt message.version) = n ∧ 0 < n := by
    rcases htype with htype | htype <;> rw [htype]
    · exact ⟨6, rfl, by decide⟩
    · exact ⟨61, rfl, by decide⟩
  have hsent : filled.sendBytes = filled'.sendBytes := (Sent.udp.inj heq).2
  have hbody : (0 : UInt8) = 1 :=
    body_eq_of_send filled filled' (i := 0) rfl rfl (write_all rfl) hsize hsent hpos
  exact absurd hbody (by decide)

end Message

section Datagram

variable {driver : Driver} {sender : Address} {behind : Bytes} {buffer : Buffer} {n : Nat}
  {packet packet' : NatNegPacket}

theorem read_magic_long {bytes : Bytes} (h : 6 ≤ bytes.length) :
    readMagic ⟨[], bytes⟩ packet =
      ({ packet with magic := packet.magic.write 0 (bytes.take 6) },
        ⟨bytes.take 6, bytes.drop 6⟩) := by
  rw [readMagic, Buffer.readBuffer, Buffer.readRemaining, if_neg (by simp only; omega)]
  rfl

theorem read_magic_short {bytes : Bytes} (h : bytes.length < 6) :
    readMagic ⟨[], bytes⟩ packet = (packet, ⟨[], bytes⟩) := by
  rw [readMagic, Buffer.readBuffer, Buffer.readRemaining, if_pos h]

/-- The type that the header is read with. -/
theorem read_header_type (buffer : Buffer) (packet : NatNegPacket) :
    (readHeader buffer packet).1.packettype = buffer.unread.getD 1 0 := by
  obtain ⟨read, unread⟩ := buffer
  cases unread with
  | nil => rfl
  | cons version rest => cases rest <;> rfl

/-- The header leaves nothing of it, and of the body the part that is cleared, to what was
there. -/
theorem read_header_agree (buffer : Buffer) (packet packet' : NatNegPacket) :
    AgreeTo 9 (readHeader buffer packet).1 (readHeader buffer packet').1 where
  version := rfl
  packettype := rfl
  cookie := write_all (Buffer.read_int_length _)
  body := fun _ hi => write_eq fun hle => absurd hi (by rw [List.length_replicate] at hle; omega)

/-- The rest of the body is what was there. -/
theorem read_header_body (buffer : Buffer) (packet : NatNegPacket) {i : Fin 61} (h : 9 ≤ i.val) :
    (readHeader buffer packet).1.body i = packet.body i :=
  if_neg (by rw [List.length_replicate]; omega)

/-- Where a whole report is left behind the header. -/
theorem read_header_unread (buffer : Buffer) (packet : NatNegPacket) :
    61 ≤ (readHeader buffer packet).2.unread.length ↔ 67 ≤ buffer.unread.length := by
  simp only [readHeader, Buffer.read_int_unread_length, Buffer.read_byte_unread, List.length_drop]
  split <;> omega

/-- A body that is read is read alike, and one that is not stays as it was. -/
theorem read_body_agree (buffer : Buffer) (h : AgreeTo n packet packet') (size : Int) :
    AgreeTo n (readBody buffer packet size).1 (readBody buffer packet' size).1 := by
  unfold readBody
  split
  · exact ⟨h.version, h.packettype, h.cookie, fun i hi => write_congr (h.body i hi)⟩
  · exact h

theorem read_body_buffer (buffer : Buffer) (packet packet' : NatNegPacket) (size : Int) :
    (readBody buffer packet size).2 = (readBody buffer packet' size).2 := by
  unfold readBody
  split <;> rfl

/-- A body that is read is the same for every packet. -/
theorem read_body_whole (hversion : packet.version = packet'.version)
    (htype : packet.packettype = packet'.packettype) (hcookie : packet.cookie = packet'.cookie)
    (h : 61 ≤ buffer.unread.length) :
    AgreeTo 61 (readBody buffer packet 61).1 (readBody buffer packet' 61).1 := by
  have hread : buffer.readBuffer (MachineInt.sizeT 61) =
      (some (buffer.unread.take 61), buffer.skipRead 61) := if_neg (by
    simp only [MachineInt.sizeT, Buffer.readRemaining]
    omega)
  simp only [readBody, hread]
  refine (agree_to_write _ hversion htype hcookie).mono ?_
  rw [List.length_take]
  omega

section Handlers

variable (h : AgreeTo 9 packet packet')

include h

theorem localip_eq : packet.localip = packet'.localip := by
  simp only [NatNegPacket.localip, h.body 3 (by decide), h.body 4 (by decide),
    h.body 5 (by decide), h.body 6 (by decide)]

theorem localport_eq : packet.localport = packet'.localport := by
  simp only [NatNegPacket.localport, h.body 7 (by decide), h.body 8 (by decide)]

theorem cookie_value_eq : packet.cookieValue = packet'.cookieValue := by
  simp only [NatNegPacket.cookieValue, h.cookie]

theorem handle_init_packet_eq (gamename : Bytes) :
    handleInitPacket driver sender packet gamename =
      handleInitPacket driver sender packet' gamename := by
  simp only [handleInitPacket, getInitObject, privateAddress, localip_eq h, localport_eq h,
    cookie_value_eq h, h.version, h.body 0 (by decide), h.body 1 (by decide),
    h.body 2 (by decide)]

theorem handle_connect_ack_packet_eq :
    handleConnectAckPacket driver sender packet = handleConnectAckPacket driver sender packet' := by
  simp only [handleConnectAckPacket, getConnectAckObject, cookie_value_eq h, h.version,
    h.body 1 (by decide)]

theorem handle_natify_packet_eq :
    handleNatifyPacket driver sender packet = handleNatifyPacket driver sender packet' := by
  simp only [handleNatifyPacket, getNatifyObject, privateAddress, localip_eq h, localport_eq h,
    cookie_value_eq h, h.version, h.body 0 (by decide)]

theorem handle_ert_ack_packet_eq :
    handleErtAckPacket driver sender packet = handleErtAckPacket driver sender packet' := by
  simp only [handleErtAckPacket, getErtAckObject, cookie_value_eq h]

theorem handle_address_check_packet_eq :
    handleAddressCheckPacket sender packet = handleAddressCheckPacket sender packet' := by
  obtain ⟨n, hsize, hle⟩ := init_size_le packet.version (.inl rfl)
  unfold handleAddressCheckPacket
  extract_lets replied replied'
  have hagree : AgreeTo 9 replied replied' :=
    ⟨h.version, rfl, h.cookie, fun i hi => write_congr (h.body i hi)⟩
  rw [send_bytes_congr (hagree.mono hle) hsize]

end Handlers

theorem handle_report_packet_eq (h : AgreeTo 61 packet packet') :
    handleReportPacket sender packet = handleReportPacket sender packet' := by
  have hagree : AgreeTo 61 { packet with packettype := nnReportAck }
      { packet' with packettype := nnReportAck } := ⟨h.version, rfl, h.cookie, h.body⟩
  rw [handleReportPacket, handleReportPacket, send_bytes_congr hagree rfl]

/-- Packets that the header and the cleared part of the body are equal in are handled alike,
a report only if all of its body is there. -/
theorem handle_packet_eq (h : AgreeTo 9 packet packet')
    (hreport : packet.packettype = nnReport → 61 ≤ buffer.unread.length) :
    handlePacket driver sender behind buffer packet =
      handlePacket driver sender behind buffer packet' := by
  have hread := read_body_agree buffer h (packetSizeFromType packet.packettype packet.version)
  have hbuffer := read_body_buffer buffer packet packet'
    (packetSizeFromType packet.packettype packet.version)
  unfold handlePacket
  simp only [← h.version, ← h.packettype, ← hbuffer]
  split_ifs with hinit hversion hconnect haddress htype hnatify hert
  · exact handle_init_packet_eq hread _
  · exact handle_init_packet_eq hread _
  · exact handle_connect_ack_packet_eq hread
  · exact handle_address_check_packet_eq hread
  · rw [htype]
    exact handle_report_packet_eq
      (read_body_whole h.version h.packettype h.cookie (hreport htype))
  · exact handle_natify_packet_eq hread
  · exact handle_ert_ack_packet_eq hread
  · rfl

/-- There is a response to a type with a handler. -/
theorem handle_packet_ne_nil (h : HasHandler packet.packettype) :
    handlePacket driver sender behind buffer packet ≠ [] := by
  unfold handlePacket
  simp only
  split_ifs <;> first | exact List.cons_ne_nil _ _ | skip
  unfold HasHandler at h
  tauto

/-- There is no response to another type. -/
theorem handle_packet_nil (h : ¬ HasHandler packet.packettype) :
    handlePacket driver sender behind buffer packet = [] := by
  unfold HasHandler at h
  unfold handlePacket
  simp only
  split_ifs <;> first | rfl | tauto

/-- A report that is not read is acknowledged as it was found. -/
theorem handle_packet_report (htype : packet.packettype = nnReport)
    (hshort : buffer.unread.length < 61) :
    handlePacket driver sender behind buffer packet = handleReportPacket sender packet := by
  have hread : readBody buffer packet 61 = (packet, buffer) := by
    have hnone : buffer.readBuffer (MachineInt.sizeT 61) = (none, buffer) := if_pos hshort
    rw [readBody, hnone]
  have hsize : packetSizeFromType nnReport packet.version = 61 := rfl
  simp only [handlePacket, htype, hsize, hread]
  rfl

/-- The acknowledgement of a report shows all of its body. -/
theorem report_body_eq (hversion : packet.version = packet'.version)
    (hcookie : packet.cookie = packet'.cookie)
    (h : handleReportPacket sender packet = handleReportPacket sender packet') (i : Fin 61) :
    packet.body i = packet'.body i := by
  have hsent := (Sent.udp.inj (List.cons.inj h).1).2
  exact body_eq_of_send { packet with packettype := nnReportAck }
    { packet' with packettype := nnReportAck } hversion rfl hcookie rfl hsent i.isLt

/-- The magic bytes of a datagram that has them. -/
theorem magic_iff {bytes : Bytes} (magic : Memory 6) (h : 6 ≤ bytes.length) :
    magic.write 0 (bytes.take 6) = nnMagicData ↔ List.ofFn nnMagicData <+: bytes := by
  rw [← List.ofFn_injective.eq_iff, of_fn_write (List.length_take_of_le h), eq_comm]
  exact List.prefix_iff_eq_take.symm

/-- `on_udp_read` for a datagram that has the magic bytes. -/
theorem on_udp_read_long {bytes : Bytes} (h : 6 ≤ bytes.length) :
    onUdpRead driver sender behind bytes packet =
      if List.ofFn nnMagicData <+: bytes then
        let header := readHeader ⟨bytes.take 6, bytes.drop 6⟩
          { packet with magic := packet.magic.write 0 (bytes.take 6) }
        handlePacket driver sender behind header.2 header.1
      else [] := by
  have hpos : bytes.length > 0 := by omega
  simp only [onUdpRead, Buffer.empty, Buffer.writeBuffer, List.nil_append, read_magic_long h,
    magic_iff _ h, if_pos hpos]

/-- `on_udp_read` for a datagram that is shorter than that. -/
theorem on_udp_read_short {bytes : Bytes} (hne : bytes ≠ []) (h : bytes.length < 6) :
    onUdpRead driver sender behind bytes packet =
      if packet.magic = nnMagicData then
        let header := readHeader ⟨[], bytes⟩ packet
        handlePacket driver sender behind header.2 header.1
      else [] := by
  have hpos : bytes.length > 0 := List.length_pos_iff.mpr hne
  simp only [onUdpRead, Buffer.empty, Buffer.writeBuffer, List.nil_append, read_magic_short h,
    if_pos hpos]

/-- Where the type of a datagram is. -/
theorem read_header_type_long {bytes read : Bytes} :
    (readHeader ⟨read, bytes.drop 6⟩ packet).1.packettype = bytes.getD 7 0 := by
  rw [read_header_type, List.getD_eq_getElem?_getD, List.getElem?_drop,
    List.getD_eq_getElem?_getD]

end Datagram

section Responses

variable {setting : Setting} {sender : Address} {bytes : Bytes} {root : Option Json}

/-- A short datagram that is handled by chance is handled or not. -/
theorem short_of_independent (h : Independent setting (.datagram sender bytes))
    (hne : bytes ≠ []) (hshort : bytes.length < 6) : ¬ HasHandler (bytes.getD 1 0) := by
  intro hhandler
  have heq := h { filledWith 0 with magic := nnMagicData } (filledWith 0)
  simp only [respond, on_udp_read_short hne hshort, Option.some.injEq] at heq
  rw [if_pos trivial, if_neg (by decide)] at heq
  refine handle_packet_ne_nil ?_ heq
  rwa [read_header_type]

/-- A report that ends early is acknowledged with the rest of a body that was there. -/
theorem report_of_independent (h : Independent setting (.datagram sender bytes))
    (hmagic : List.ofFn nnMagicData <+: bytes) (htype : bytes.getD 7 0 = nnReport) :
    73 ≤ bytes.length := by
  by_contra hlt
  have hlong : 6 ≤ bytes.length := by simpa using hmagic.length_le
  have heq := h (filledWith 0) (filledWith 1)
  simp only [respond, on_udp_read_long hlong, Option.some.injEq, if_pos hmagic] at heq
  have hunread (packet : NatNegPacket) :
      (readHeader ⟨bytes.take 6, bytes.drop 6⟩ packet).2.unread.length < 61 := by
    have := read_header_unread ⟨bytes.take 6, bytes.drop 6⟩ packet
    rw [List.length_drop] at this
    omega
  rw [handle_packet_report (read_header_type_long.trans htype) (hunread _),
    handle_packet_report (read_header_type_long.trans htype) (hunread _)] at heq
  have hagree := read_header_agree ⟨bytes.take 6, bytes.drop 6⟩
    { filledWith 0 with magic := (filledWith 0).magic.write 0 (bytes.take 6) }
    { filledWith 1 with magic := (filledWith 1).magic.write 0 (bytes.take 6) }
  have hbody := report_body_eq hagree.version hagree.cookie heq 60
  rw [read_header_body _ _ (by decide), read_header_body _ _ (by decide)] at hbody
  exact absurd (show (0 : UInt8) = 1 from hbody) (by decide)

theorem datagram_determined_of_independent (h : Independent setting (.datagram sender bytes)) :
    DatagramDetermined bytes where
  short := short_of_independent h
  report := report_of_independent h

theorem independent_of_datagram_determined (h : DatagramDetermined bytes) :
    Independent setting (.datagram sender bytes) := by
  intro packet packet'
  by_cases hne : bytes = []
  · subst hne
    rfl
  rcases Nat.lt_or_ge bytes.length 6 with hshort | hlong
  · have hnil (packet : NatNegPacket) :
        onUdpRead setting.driver sender setting.behind bytes packet = [] := by
      simp only [on_udp_read_short hne hshort]
      split
      · refine handle_packet_nil ?_
        rw [read_header_type]
        exact h.short hne hshort
      · rfl
    simp only [respond, hnil]
  · simp only [respond, on_udp_read_long hlong]
    split
    · next hmagic =>
        refine congrArg some (handle_packet_eq (read_header_agree _ _ _) fun htype => ?_)
        rw [read_header_type_long] at htype
        rw [read_header_unread, List.length_drop]
        have := h.report hmagic htype
        omega
    · rfl

theorem message_determined_of_independent (h : Independent setting (.message root)) :
    MessageDetermined setting root := by
  intro message hread
  have heq := h (filledWith 0) (filledWith 1)
  simp only [respond, handleRecvMessage, hread, Option.map_some, Option.some.injEq,
    List.cons.injEq, and_true] at heq
  rw [← not_or]
  exact fun htype => send_message_ne htype heq

theorem independent_of_message_determined (h : MessageDetermined setting root) :
    Independent setting (.message root) := by
  intro packet packet'
  simp only [respond, handleRecvMessage]
  rcases hread : readMessage setting.drivers setting.unset root with - | - | message
  · rfl
  · rfl
  · obtain ⟨typeStr, htype⟩ := read_message_type hread
    have hfilled := packet_type_of_cases typeStr
    rw [← htype] at hfilled
    obtain ⟨hpreinit, hreport⟩ := h message hread
    have hneither : message.packetType = nnConnect ∨ message.packetType = nnErttest ∨
        message.packetType = nnInitack := by tauto
    have heq := send_message_eq hneither packet packet'
    simp only [Option.map_some, heq]

/-- What is sent in response to an input is independent of what the packet variable held exactly
for the inputs that determine it. -/
theorem responses_independent_iff (setting : Setting) (input : Input) :
    Independent setting input ↔ Determined setting input := by
  cases input with
  | datagram sender bytes =>
      exact ⟨datagram_determined_of_independent, independent_of_datagram_determined⟩
  | message root =>
      exact ⟨message_determined_of_independent, independent_of_message_determined⟩

/-- A report that ends with its header. -/
def headerOfReport : Bytes :=
  List.ofFn nnMagicData ++ [3, nnReport, 0, 0, 0, 1]

/-- A report without its body is acknowledged with what the memory held. -/
theorem header_of_report_acknowledged_with_memory :
    ¬ ∀ (setting : Setting) (input : Input), Independent setting input := by
  intro h
  have hreport := h ⟨⟨⟨⟨127, 0, 0, 1⟩, 27901⟩, [], fun _ => true⟩, [], [], 0⟩
    (.datagram ⟨⟨10, 0, 0, 1⟩, 4000⟩ headerOfReport)
  have hlength := report_of_independent hreport (List.prefix_append _ _) (by decide)
  exact absurd hlength (by decide)

end Responses

end OpenSpy.NN
