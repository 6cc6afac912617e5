import OpenSpy.ServerBrowsing.V1Queue

/-!
# What a V1 client reads

The client chooses how its list comes: as it is, as one reply that is made when the peer is deleted
(type 1), or as a stream behind a header (type 2). Whatever it chose, and whatever else happens to
the peer of a client that is validated, what the client decodes is the text of the answers
(`client_reads_answers`). No error comes between the answers, since such a client has a game.
-/

namespace OpenSpy.ServerBrowsing

open Bytes Runs StreamCipher

/-- Buffers in a row. -/
def joined : List (Option Bytes) → Option Bytes
  | [] => some []
  | buffer :: rest => do
      let buffer ← buffer
      let rest ← joined rest
      some (buffer ++ rest)

theorem joined_concat {buffers : List (Option Bytes)} {text : Bytes}
    (h : joined buffers = some text) (more : Bytes) :
    joined (buffers ++ [some more]) = some (text ++ more) := by
  induction buffers generalizing text with
  | nil =>
      obtain rfl : [] = text := Option.some.inj h
      simp [joined]
  | cons buffer rest ih =>
      simp only [joined, Option.bind_eq_bind, Option.bind_eq_some_iff, Option.some.injEq] at h
      obtain ⟨first, rfl, others, hrest, rfl⟩ := h
      simp [joined, ih hrest]

theorem mask_key_mask_key (secretkey key : Bytes) :
    maskKey secretkey (maskKey secretkey key) = key := by
  rw [maskKey, maskKey, List.mapIdx_mapIdx]
  refine List.ext_getElem (List.length_mapIdx) fun i hi _ => ?_
  rw [List.getElem_mapIdx]
  exact xor_xor_self _ _

theorem mask_key_length (secretkey key : Bytes) : (maskKey secretkey key).length = key.length :=
  List.length_mapIdx

theorem V1Random.cryptkey_ne_nil (random : V1Random) : random.cryptkey.toList ≠ [] := by
  intro hnil
  have hlength := congrArg List.length hnil
  rw [Vector.length_toList] at hlength
  exact absurd hlength (by decide)

/-- What a client of type 2 makes of what it got: the key is in the header. -/
def clientReadsStream (secretkey : Bytes) (memory : CryptEngine) : Bytes → Option Bytes
  | [] => some []
  | length :: rest =>
      let length := (length ^^^ 0xEC).toNat
      (initCryptKey (maskKey secretkey (rest.take length)) memory).bind fun engine =>
        (engine.cryptDocrypt (rest.drop length)).map Prod.fst

/-- What a client with the secret key of its game makes of what it got. It has the ciphers of the
server, with something else in their memory. -/
def v1ClientReads (enctype : UInt8) (challenge secretkey : Bytes) (memory : CryptEngine)
    (stack : Enc1Key) (sent : Bytes) : Option Bytes :=
  if enctype = 1 then enctype1Decode challenge stack sent
  else if enctype = 2 then clientReadsStream secretkey memory sent
  else some sent

/-- The engine of the client is that of the server. -/
theorem client_reads_stream {random : V1Random} {text cipher : Bytes} {engine last : CryptEngine}
    (hinit : initCryptKey random.cryptkey.toList random.memory = some engine)
    (hcipher : engine.cryptDocrypt text = some (cipher, last)) (secretkey : Bytes)
    (memory : CryptEngine) :
    clientReadsStream secretkey memory (V1Session.cryptHeader random secretkey ++ cipher) =
      some text := by
  have hlength : (UInt8.ofNat cryptkeySize ^^^ 0xEC ^^^ 0xEC).toNat = cryptkeySize := by decide
  have hsize : (maskKey secretkey random.cryptkey.toList).length = cryptkeySize := by
    rw [mask_key_length, Vector.length_toList]
  obtain ⟨own, other, hown, hother, -, hsame⟩ :=
    init_crypt_key_memory random.cryptkey_ne_nil random.memory memory
  obtain rfl : engine = own := Option.some.inj (hinit.symm.trans hown)
  have hplain : engine.cryptDocrypt cipher = some (text, last) := try_run_xor_xor hcipher
  rw [V1Session.cryptHeader, List.cons_append, clientReadsStream, hlength, List.take_left' hsize,
    List.drop_left' hsize, mask_key_mask_key, hother, Option.bind_some, hsame, hplain,
    Option.map_some]

/-- What a peer keeps and has sent carries a text to a client. A peer of type 1 keeps the text until
it is deleted. -/
inductive Carried (random : V1Random) (secretkey : Bytes) (enctype : UInt8) (wire : V1Wire)
    (sent : List (Option Bytes)) (text : Bytes) : Prop
  | plain (h1 : enctype ≠ 1) (h2 : enctype ≠ 2) (hsent : joined sent = some text)
  | kept (h1 : enctype = 1) (hopen : wire.deleteFlag = false) (hsent : sent = [])
      (hkept : wire.enctype1Accumulator = text)
  | flushed (h1 : enctype = 1) (hgone : wire.deleteFlag = true)
      (hsent : wire.socketDeleted = true ∨
        sent = [createEnctype1Buffer random.challenge random.stack random.rand text])
  | silent (h2 : enctype = 2) (hkey : wire.sentCryptKey = false)
      (hmemory : wire.cryptKeyEnctype2 = random.memory) (hsent : sent = []) (htext : text = [])
  | streamed (h2 : enctype = 2) (hkey : wire.sentCryptKey = true) (engine : CryptEngine)
      (hinit : initCryptKey random.cryptkey.toList random.memory = some engine) (cipher : Bytes)
      (hcipher : engine.cryptDocrypt text = some (cipher, wire.cryptKeyEnctype2))
      (hsent : joined sent = some (V1Session.cryptHeader random secretkey ++ cipher))

/-- The peer of a client that is validated, for a game with a secret key. -/
structure V1Control.Settled (control : V1Control) (enctype : UInt8) (game : Game) : Prop where
  validated : control.validated = true
  unanswered : control.unanswered = []
  enctype_eq : control.enctype = enctype
  game_eq : control.game = game
  secret : cString game.secretkey ≠ []

/-- A packet settles nothing anew. -/
theorem V1Control.Settled.handles {control next : V1Control} {packet : V1Packet} {enctype : UInt8}
    {game : Game} (h : control.Settled enctype game) (hhandles : control.Handles packet next) :
    next.Settled enctype game := by
  cases hhandles with
  | passed | list => exact ⟨h.validated, h.unanswered, h.enctype_eq, h.game_eq, h.secret⟩
  | game hgame => exact absurd (hgame.2.symm.trans h.validated) Bool.false_ne_true

/-- The answer of a task for a list. -/
def V1Event.IsAnswer : V1Event → Prop
  | .servers _ _ => True
  | .groups _ _ => True
  | _ => False

/-- Nothing was sent through a cipher. -/
structure V1Wire.Fresh (random : V1Random) (wire : V1Wire) : Prop where
  key : wire.sentCryptKey = false
  memory : wire.cryptKeyEnctype2 = random.memory
  kept : wire.enctype1Accumulator = []
  closed : wire.socketDeleted = true → wire.deleteFlag = true

namespace V1Session

variable {random : V1Random} {session next : V1Session} {enctype : UInt8} {game : Game}
  {base : List (Option Bytes)} {text : Bytes}

/-- Behind what was sent before, the peer carries a text. -/
structure Tells (random : V1Random) (enctype : UInt8) (game : Game) (base : List (Option Bytes))
    (text : Bytes) (session : V1Session) : Prop where
  settled : session.Settled enctype game
  closed : session.socketDeleted = true → session.deleteFlag = true
  carried : ∃ sent, session.sendBuffer = base ++ sent ∧
    Carried random game.secretkey enctype session.toV1Wire sent text

/-- A peer that is deleted, also with its socket, carries what it carried. -/
theorem carried_delete
    (h : ∃ sent, session.sendBuffer = base ++ sent ∧
      Carried random game.secretkey session.enctype session.toV1Wire sent text) :
    ∃ sent, (session.delete random).sendBuffer = base ++ sent ∧
      Carried random game.secretkey session.enctype (session.delete random).toV1Wire sent text := by
  unfold delete
  split
  case isTrue => exact h
  case isFalse hopen =>
    have hopen : session.deleteFlag = false := Bool.eq_false_iff.mpr hopen
    obtain ⟨sent, hbuffer, hcarried⟩ := h
    dsimp only
    split
    case isTrue h1 =>
      unfold appendSendBuffer
      rw [hopen, Bool.false_or]
      cases hcarried with
      | plain hno => exact absurd h1 hno
      | flushed _ hgone => exact absurd (hopen.symm.trans hgone) Bool.false_ne_true
      | silent h2 | streamed h2 => exact absurd (h1.symm.trans h2) (by decide)
      | kept _ _ hsent hkept =>
          -- The reply is made now, if there is a socket left to send it through.
          split
          case isTrue hclosed => exact ⟨sent, hbuffer, .flushed h1 rfl (.inl hclosed)⟩
          case isFalse =>
            refine ⟨[createEnctype1Buffer random.challenge random.stack random.rand text], ?_,
              .flushed h1 rfl (.inr rfl)⟩
            show session.sendBuffer ++ [_] = _
            rw [hbuffer, hsent, List.append_nil, hkept]
    case isFalse hno =>
      refine ⟨sent, hbuffer, ?_⟩
      cases hcarried with
      | plain h1 h2 hsent => exact .plain h1 h2 hsent
      | kept h1 | flushed h1 => exact absurd h1 hno
      | silent h2 hkey hmemory hsent htext => exact .silent h2 hkey hmemory hsent htext
      | streamed h2 hkey engine hinit cipher hcipher hsent =>
          exact .streamed h2 hkey engine hinit cipher hcipher hsent

theorem Tells.delete (h : Tells random enctype game base text session) :
    Tells random enctype game base text (session.delete random) := by
  refine ⟨?_, fun _ => ?_, ?_⟩
  · rw [delete_control]
    exact h.settled
  · exact delete_flag
  · have hcarried := h.carried
    rw [← h.settled.enctype_eq] at hcarried ⊢
    exact carried_delete hcarried

/-- An engine goes on where it is. -/
theorem docrypt_append {engine last : CryptEngine} {cipher : Bytes} (hdeep : engine.Deep)
    (hcipher : engine.cryptDocrypt text = some (cipher, last)) (more : Bytes) :
    ∃ rest next, last.cryptDocrypt more = some (rest, next) ∧
      engine.cryptDocrypt (text ++ more) = some (cipher ++ rest, next) := by
  have hall : (engine.cryptDocrypt (text ++ more)).isSome :=
    try_run_is_some CryptEngine.docrypt_next_is_some hdeep _
  have hmore : engine.cryptDocrypt (text ++ more) = (last.cryptDocrypt more).map fun rest =>
      (cipher ++ rest.1, rest.2) := try_run_append hcipher more
  rw [hmore, Option.isSome_map] at hall
  obtain ⟨⟨rest, next⟩, hrest⟩ := Option.isSome_iff_exists.mp hall
  exact ⟨rest, next, hrest, by rw [hmore, hrest, Option.map_some]⟩

theorem append_send_buffer_open (hopen : session.deleteFlag = false)
    (hsocket : session.socketDeleted = false) (buffer : Option Bytes) (closeAfter : Bool) :
    session.appendSendBuffer buffer closeAfter = { session with
      sendBuffer := session.sendBuffer ++ [buffer]
      closeWhenSendbufferEmpty := session.closeWhenSendbufferEmpty || closeAfter } := by
  unfold appendSendBuffer
  rw [hopen, hsocket]
  rfl

section SendPacket

variable (buff : Bytes) (attachFinal : Bool)

theorem send_packet_deleted (h : session.deleteFlag = true) :
    session.sendPacket random buff attachFinal = session :=
  if_pos h

theorem send_packet_plain (hopen : session.deleteFlag = false) (h1 : session.enctype ≠ 1)
    (h2 : session.enctype ≠ 2) :
    session.sendPacket random buff attachFinal =
      session.appendSendBuffer (some (buff ++ if attachFinal then finalMarker else []))
        attachFinal := by
  unfold sendPacket sendText
  simp [hopen, h1, h2]

theorem send_packet_kept (hopen : session.deleteFlag = false) (h1 : session.enctype = 1)
    (hsecret : session.game.secretkey ≠ []) :
    session.sendPacket random buff attachFinal = { session with
      enctype1Accumulator :=
        session.enctype1Accumulator ++ (buff ++ if attachFinal then finalMarker else []) } := by
  unfold sendPacket sendText
  simp [hopen, h1, hsecret]

theorem send_packet_streamed (hopen : session.deleteFlag = false)
    (hsocket : session.socketDeleted = false) (h2 : session.enctype = 2)
    (hvalidated : session.validated = true) (hsecret : session.game.secretkey ≠ [])
    {header : Option Bytes} {keyed : Bool} {engine next : CryptEngine} {cipher : Bytes}
    (hheader : session.sendCryptHeader random =
      (header, { session with sentCryptKey := keyed, cryptKeyEnctype2 := engine }))
    (hcipher : engine.cryptDocrypt (buff ++ if attachFinal then finalMarker else []) =
      some (cipher, next)) :
    session.sendPacket random buff attachFinal = { session with
      sentCryptKey := keyed
      cryptKeyEnctype2 := next
      sendBuffer := session.sendBuffer ++ [header.map (· ++ cipher)]
      closeWhenSendbufferEmpty := session.closeWhenSendbufferEmpty || attachFinal } := by
  unfold sendPacket sendText appendSendBuffer
  simp [hopen, hsocket, h2, hvalidated, hheader, hsecret, hcipher]

end SendPacket

/-- A packet of an open peer goes behind what it carried. -/
theorem Tells.send_packet (h : Tells random enctype game base text session)
    (hsize : enctype = 2 → game.secretkey.length ≤ cryptkeySize)
    (hopen : session.deleteFlag = false) (buff : Bytes) (attachFinal : Bool) :
    Tells random enctype game base (text ++ (buff ++ if attachFinal then finalMarker else []))
        (session.sendPacket random buff attachFinal) ∧
      (session.sendPacket random buff attachFinal).deleteFlag = false := by
  have hsettled : (session.sendPacket random buff attachFinal).Settled enctype game := by
    rw [send_packet_control]
    exact h.settled
  obtain ⟨sent, hbuffer, hcarried⟩ := h.carried
  have henctype := h.settled.enctype_eq
  have hsocket : session.socketDeleted = false :=
    Bool.eq_false_iff.mpr fun hclosed =>
      Bool.false_ne_true (hopen.symm.trans (h.closed hclosed))
  have hsecret : session.game.secretkey ≠ [] := by
    rw [h.settled.game_eq]
    intro hempty
    apply h.settled.secret
    rw [hempty]
    rfl
  generalize hmore : (buff ++ if attachFinal then finalMarker else []) = more at *
  cases hcarried with
  | plain h1 h2 hsent =>
      rw [send_packet_plain buff attachFinal hopen (by rw [henctype]; exact h1)
        (by rw [henctype]; exact h2), append_send_buffer_open hopen hsocket, hmore] at hsettled ⊢
      refine ⟨⟨hsettled, h.closed, sent ++ [some more], ?_,
        .plain h1 h2 (joined_concat hsent more)⟩, hopen⟩
      show session.sendBuffer ++ _ = _
      rw [hbuffer, List.append_assoc]
  | kept h1 _ hsent hkept =>
      rw [send_packet_kept buff attachFinal hopen (by rw [henctype, h1]) hsecret, hmore]
        at hsettled ⊢
      refine ⟨⟨hsettled, h.closed, sent, hbuffer, .kept h1 hopen hsent ?_⟩, hopen⟩
      show session.enctype1Accumulator ++ more = _
      rw [hkept]
  | flushed _ hgone => exact absurd (hopen.symm.trans hgone) Bool.false_ne_true
  | silent h2 hkey hmemory hsent htext =>
      -- The first text: the header goes in front of it, and its key starts the cipher.
      obtain ⟨engine, -, hinit, -, hdeep, -⟩ :=
        init_crypt_key_memory random.cryptkey_ne_nil random.memory random.memory
      have hdefined : (engine.cryptDocrypt more).isSome :=
        try_run_is_some CryptEngine.docrypt_next_is_some hdeep more
      obtain ⟨⟨cipher, next⟩, hcipher⟩ := Option.isSome_iff_exists.mp hdefined
      have hheader : session.sendCryptHeader random =
          (some (cryptHeader random game.secretkey),
            { session with sentCryptKey := true, cryptKeyEnctype2 := engine }) := by
        unfold sendCryptHeader
        simp [hkey, hmemory, hinit, h.settled.game_eq, hsize h2]
      rw [send_packet_streamed buff attachFinal hopen hsocket (by rw [henctype, h2])
        h.settled.validated hsecret hheader (by rw [hmore]; exact hcipher)] at hsettled ⊢
      refine ⟨⟨hsettled, h.closed, [some (cryptHeader random game.secretkey ++ cipher)], ?_,
        .streamed h2 rfl engine hinit cipher ?_ ?_⟩, hopen⟩
      · show session.sendBuffer ++ _ = _
        rw [hbuffer, hsent, List.append_nil]
        rfl
      · rw [htext]
        exact hcipher
      · simp [joined]
  | streamed h2 hkey engine hinit cipher hcipher hsent =>
      -- A later text: the header is empty, and the cipher goes on where it is.
      obtain ⟨own, -, hown, -, hdeep, -⟩ :=
        init_crypt_key_memory random.cryptkey_ne_nil random.memory random.memory
      obtain rfl : engine = own := Option.some.inj (hinit.symm.trans hown)
      obtain ⟨rest, next, hrest, hall⟩ := docrypt_append hdeep hcipher more
      have hheader : session.sendCryptHeader random = (some [], session) := if_pos hkey
      rw [send_packet_streamed buff attachFinal hopen hsocket (by rw [henctype, h2])
        h.settled.validated hsecret hheader (by rw [hmore]; exact hrest)] at hsettled ⊢
      refine ⟨⟨hsettled, h.closed, sent ++ [some rest], ?_,
        .streamed h2 hkey engine hinit (cipher ++ rest) hall ?_⟩, hopen⟩
      · show session.sendBuffer ++ _ = _
        rw [hbuffer, List.append_assoc]
        rfl
      · rw [joined_concat hsent, List.append_assoc]

/-- The packets of `OnRetrievedServers`. -/
def serversPackets (session : V1Session) (req : V1ListReq) (results : InfoBatch) : List Bytes :=
  if req.allKeys then sendServerInfo results
  else [session.serversText results.toRetrievedCall]

/-- The text of an answer for a list. -/
def answerText (session : V1Session) : V1Event → Bytes
  | .servers req results =>
      (session.serversPackets req results).flatten ++ if results.lastSet then finalMarker else []
  | .groups packets lastSet => packets.flatten ++ if lastSet then finalMarker else []
  | _ => []

/-- The text of the answers in a run, up to the one behind which the peer is deleted. -/
def answersText (random : V1Random) : V1Session → List V1Event → Bytes
  | _, [] => []
  | session, event :: rest =>
      (if session.deleteFlag then [] else session.answerText event) ++
        answersText random (session.step random event) rest

/-- All packets but the last, and the last, are all. -/
theorem flatten_drop_last (packets : List Bytes) :
    packets.dropLast.flatten ++ packets.getLastD [] = packets.flatten := by
  obtain rfl | ⟨init, last, rfl⟩ := packets.eq_nil_or_concat
  · rfl
  · simp

theorem Tells.send_packets (h : Tells random enctype game base text session)
    (hsize : enctype = 2 → game.secretkey.length ≤ cryptkeySize)
    (hopen : session.deleteFlag = false) (packets : List Bytes) (lastSet : Bool) :
    Tells random enctype game base
      (text ++ (packets.flatten ++ if lastSet then finalMarker else []))
      (session.sendPackets random packets lastSet) := by
  have hall : ∀ (packets : List Bytes) (text : Bytes) (session : V1Session),
      Tells random enctype game base text session → session.deleteFlag = false →
      Tells random enctype game base (text ++ packets.flatten) (packets.foldl
        (fun session packet => session.sendPacket random packet false) session) ∧
      (packets.foldl (fun session packet => session.sendPacket random packet false)
        session).deleteFlag = false := by
    intro packets
    induction packets with
    | nil => exact fun text session h hopen => ⟨by simpa using h, hopen⟩
    | cons packet rest ih =>
        intro text session h hopen
        obtain ⟨hnext, hnextOpen⟩ := h.send_packet hsize hopen packet false
        have hrest := ih _ _ hnext hnextOpen
        simpa using hrest
  obtain ⟨hinit, hinitOpen⟩ := hall packets.dropLast text session h hopen
  have hlast := (hinit.send_packet hsize hinitOpen (packets.getLastD []) lastSet).1
  rw [List.append_assoc, ← List.append_assoc _ (packets.getLastD []), flatten_drop_last] at hlast
  exact hlast

theorem send_packets_deleted (hgone : session.deleteFlag = true) (packets : List Bytes)
    (lastSet : Bool) : session.sendPackets random packets lastSet = session := by
  unfold sendPackets
  induction packets.dropLast with
  | nil => exact send_packet_deleted _ _ hgone
  | cons packet rest ih =>
      rw [List.foldl_cons, send_packet_deleted _ _ hgone]
      exact ih

theorem delete_deleted (hgone : session.deleteFlag = true) : session.delete random = session :=
  if_pos hgone

/-- What is neither sent nor settles anything does not matter. -/
theorem Tells.same (h : Tells random enctype game base text session)
    (hvalidated : next.validated = session.validated)
    (hunanswered : next.unanswered = session.unanswered) (henctype : next.enctype = session.enctype)
    (hgame : next.game = session.game) (hwire : next.toV1Wire = session.toV1Wire) :
    Tells random enctype game base text next := by
  refine ⟨⟨hvalidated.trans h.settled.validated, hunanswered.trans h.settled.unanswered,
    henctype.trans h.settled.enctype_eq, hgame.trans h.settled.game_eq, h.settled.secret⟩, ?_, ?_⟩
  · rw [hwire]
    exact h.closed
  · rw [hwire]
    exact h.carried

/-- A packet of a client with a game tells it nothing. -/
theorem Tells.handle_now (h : Tells random enctype game base text session) (now : Int)
    (packet : V1Packet) :
    Tells random enctype game base text (session.handleNow random now packet) := by
  apply handle_now_ends now packet
  case unread =>
    intro _ _
    have hhandled : Tells random enctype game base text
        { session with handled := session.handled ++ [packet] } := h.same rfl rfl rfl rfl rfl
    exact hhandled.delete
  case game =>
    exact fun hgame => absurd (hgame.2.symm.trans h.settled.validated) Bool.false_ne_true
  case refused =>
    intro _ hsecret
    rw [h.settled.game_eq] at hsecret
    exact absurd hsecret h.settled.secret
  case list => exact fun _ _ => h.same rfl rfl rfl rfl rfl
  case passed => exact fun _ _ => h.same rfl rfl rfl rfl rfl

theorem tells_kept : KeptByTurns random (Tells random enctype game base text) where
  queue := fun _ _ _ h => h.same rfl rfl rfl rfl rfl
  loop := fun _ _ _ h => h.same rfl rfl rfl rfl rfl
  store := fun _ _ h => h.same rfl rfl rfl rfl rfl
  delete := fun _ h => h.delete
  handle := fun _ now packet h => h.handle_now now packet

/-- Packets and the end of a list tell the text of an answer. -/
theorem Tells.answer (h : Tells random enctype game base text session)
    (hsize : enctype = 2 → game.secretkey.length ≤ cryptkeySize) (packets : List Bytes)
    (lastSet : Bool) :
    Tells random enctype game base
      (text ++ if session.deleteFlag then []
        else packets.flatten ++ if lastSet then finalMarker else [])
      (if lastSet then (session.sendPackets random packets lastSet).delete random
        else session.sendPackets random packets lastSet) := by
  by_cases hgone : session.deleteFlag = true
  · rw [if_pos hgone, List.append_nil, send_packets_deleted hgone, delete_deleted hgone, ite_self]
    exact h
  · have hsent := h.send_packets hsize (Bool.eq_false_iff.mpr hgone) packets lastSet
    rw [if_neg hgone]
    cases lastSet with
    | true => exact hsent.delete
    | false => exact hsent

/-- The answer for a list is packets, and the end if there is no more. -/
theorem on_retrieved_servers_eq (req : V1ListReq) (results : InfoBatch) :
    session.onRetrievedServers random req results =
      if results.lastSet then (session.sendPackets random (session.serversPackets req results)
        results.lastSet).delete random
      else session.sendPackets random (session.serversPackets req results) results.lastSet := by
  unfold onRetrievedServers serversPackets
  cases req.allKeys <;> rfl

/-- A peer whose socket is closed carries what it carried. -/
theorem Tells.socket_closed (h : Tells random enctype game base text session) :
    Tells random enctype game base text
      ({ session with socketDeleted := true }.delete random) := by
  obtain ⟨sent, hbuffer, hcarried⟩ := h.carried
  have hclosed : Carried random game.secretkey enctype
      { session.toV1Wire with socketDeleted := true } sent text := by
    cases hcarried with
    | plain h1 h2 hsent => exact .plain h1 h2 hsent
    | kept h1 hopen hsent hkept => exact .kept h1 hopen hsent hkept
    | flushed h1 hgone => exact .flushed h1 hgone (.inl rfl)
    | silent h2 hkey hmemory hsent htext => exact .silent h2 hkey hmemory hsent htext
    | streamed h2 hkey engine hinit cipher hcipher hsent =>
        exact .streamed h2 hkey engine hinit cipher hcipher hsent
  have hcontrol := @delete_control random { session with socketDeleted := true }
  refine ⟨?_, fun _ => ?_, ?_⟩
  · rw [hcontrol]
    exact h.settled
  · exact delete_flag
  · have hfound : ∃ sent, session.sendBuffer = base ++ sent ∧ Carried random game.secretkey
        session.enctype { session.toV1Wire with socketDeleted := true } sent text := by
      rw [h.settled.enctype_eq]
      exact ⟨sent, hbuffer, hclosed⟩
    have hdeleted := @carried_delete random { session with socketDeleted := true } game base text
      hfound
    rw [← h.settled.enctype_eq]
    exact hdeleted

/-- Every event tells the text of its answer, if it is one. -/
theorem Tells.step (h : Tells random enctype game base text session)
    (hsize : enctype = 2 → game.secretkey.length ≤ cryptkeySize) (event : V1Event) :
    Tells random enctype game base
      (text ++ if session.deleteFlag then [] else session.answerText event)
      (session.step random event) := by
  have hsilent : (text ++ if session.deleteFlag then [] else []) = text := by
    rw [ite_self, List.append_nil]
  cases event with
  | read now chunk =>
      show Tells random enctype game base (text ++ if session.deleteFlag then [] else []) _
      rw [hsilent]
      exact tells_kept.read now chunk h
  | think now =>
      show Tells random enctype game base (text ++ if session.deleteFlag then [] else []) _
      rw [hsilent]
      exact tells_kept.think now h
  | flushRound now =>
      show Tells random enctype game base (text ++ if session.deleteFlag then [] else []) _
      rw [hsilent]
      exact tells_kept.flush_round now h
  | gameInfo gameData =>
      show Tells random enctype game base (text ++ if session.deleteFlag then [] else []) _
      rw [hsilent]
      unfold V1Session.step
      dsimp only
      split
      case h_1 => exact h
      -- The game of a validated client was answered.
      case h_2 hasked => cases h.settled.unanswered.symm.trans hasked
  | servers req results =>
      show Tells random enctype game base _ (session.onRetrievedServers random req results)
      rw [on_retrieved_servers_eq]
      exact h.answer hsize (session.serversPackets req results) results.lastSet
  | groups packets lastSet => exact h.answer hsize packets lastSet
  | socketClosed =>
      show Tells random enctype game base (text ++ if session.deleteFlag then [] else [])
        (if session.flushing then session else { session with socketDeleted := true }.delete random)
      rw [hsilent]
      split
      · exact h
      · exact h.socket_closed

theorem tells_run (h : Tells random enctype game base text session)
    (hsize : enctype = 2 → game.secretkey.length ≤ cryptkeySize) (run : List V1Event) :
    Tells random enctype game base (text ++ answersText random session run)
      (after (V1Session.step random) session run) := by
  induction run generalizing text session with
  | nil => simpa [answersText] using h
  | cons event rest ih =>
      rw [answersText, ← List.append_assoc]
      exact ih (h.step hsize event)

section Fresh

theorem fresh_error (h : session.toV1Wire.Fresh random) (disconnect : Bool) (text : Bytes) :
    (session.sendError disconnect text).toV1Wire.Fresh random := by
  unfold sendError appendSendBuffer
  split
  · exact h
  · exact ⟨h.key, h.memory, h.kept, h.closed⟩

theorem fresh_delete (hkey : session.sentCryptKey = false)
    (hmemory : session.cryptKeyEnctype2 = random.memory)
    (hkept : session.enctype1Accumulator = []) :
    (session.delete random).toV1Wire.Fresh random := by
  have hsame : (session.delete random).sentCryptKey = session.sentCryptKey ∧
      (session.delete random).cryptKeyEnctype2 = session.cryptKeyEnctype2 ∧
      (session.delete random).enctype1Accumulator = session.enctype1Accumulator := by
    unfold delete appendSendBuffer
    split
    · exact ⟨rfl, rfl, rfl⟩
    · dsimp only
      split
      · split <;> exact ⟨rfl, rfl, rfl⟩
      · exact ⟨rfl, rfl, rfl⟩
  exact ⟨hsame.1.trans hkey, hsame.2.1.trans hmemory, hsame.2.2.trans hkept, fun _ => delete_flag⟩

theorem fresh_handle_now (h : session.toV1Wire.Fresh random) (now : Int) (packet : V1Packet) :
    (session.handleNow random now packet).toV1Wire.Fresh random := by
  apply handle_now_ends (motive := fun next => next.toV1Wire.Fresh random) now packet
  case unread => exact fun _ _ => fresh_delete h.key h.memory h.kept
  case game => exact fun _ => h
  case refused =>
    intro _ _
    refine fresh_error ?_ _ _
    exact h
  case list => exact fun _ _ => h
  case passed => exact fun _ _ => h

theorem fresh_on_recieved_game_info (h : session.toV1Wire.Fresh random) (gameData : Game) :
    (session.onRecievedGameInfo random gameData).toV1Wire.Fresh random := by
  apply on_recieved_game_info_ends (motive := fun next => next.toV1Wire.Fresh random) gameData
  case unknown =>
    refine fresh_error ?_ _ _
    exact h
  case again => exact fun _ _ => h
  case right => exact fun _ _ _ => h
  case wrong =>
    intro _ _ _
    refine fresh_error ?_ _ _
    exact h

theorem fresh_kept : KeptByTurns random (fun session => session.toV1Wire.Fresh random) where
  queue := fun _ _ _ h => h
  loop := fun _ _ _ h => h
  store := fun _ _ h => h
  delete := fun _ h => fresh_delete h.key h.memory h.kept
  handle := fun _ now packet h => fresh_handle_now h now packet

/-- Only an answer for a list is sent through a cipher. -/
theorem fresh_step (h : session.toV1Wire.Fresh random) (event : V1Event) (hno : ¬ event.IsAnswer) :
    (session.step random event).toV1Wire.Fresh random := by
  cases event with
  | read now chunk => exact fresh_kept.read now chunk h
  | think now => exact fresh_kept.think now h
  | flushRound now => exact fresh_kept.flush_round now h
  | gameInfo gameData =>
      unfold V1Session.step
      dsimp only
      split
      case h_1 => exact h
      case h_2 _ unanswered _ =>
        exact @fresh_on_recieved_game_info random
          { session with unanswered := unanswered } h gameData
  | servers | groups => exact absurd trivial hno
  | socketClosed =>
      show (if session.flushing then session
        else { session with socketDeleted := true }.delete random).toV1Wire.Fresh random
      split
      · exact h
      · exact fresh_delete h.key h.memory h.kept

end Fresh

/-- A validated client has a game with a secret key, and no other game is asked for. -/
theorem settled_of_validated {connected : Int} {run : List V1Event}
    (hvalidated : (after (V1Session.step random) (start random connected) run).validated = true) :
    (after (V1Session.step random) (start random connected) run).Settled
      (after (V1Session.step random) (start random connected) run).enctype
      (after (V1Session.step random) (start random connected) run).game := by
  have honce := @run_keeps random (start random connected) V1Control.AsksOnce
    (fun _ _ => V1Control.asks_once_move) (.inl rfl) run
  have hsecret := @run_keeps random (start random connected)
    (fun control => control.validated = true → cString control.game.secretkey ≠ []) ?_
    (fun h => absurd h (by simp [start])) run
  · exact ⟨hvalidated, honce.none_of_validated hvalidated, rfl, rfl, hsecret hvalidated⟩
  · intro control next hmove h hnow
    cases hmove with
    | wait | rotate | finish | flush | unknownGame => exact h hnow
    | arrive _ _ _ _ hhandles | take _ _ _ _ _ _ hhandles => cases hhandles <;> exact h hnow
    | knownGame _ _ _ _ hknown => exact hknown

/-- What the client of a peer decodes, whatever it chose, is the text of the answers that the peer
gets once the client is validated, whatever else happens. A reply of type 1 is made when the peer is
deleted, for a text that is short enough. -/
theorem client_reads_answers {connected : Int} {before run : List V1Event}
    (hsession : after (V1Session.step random) (start random connected) before = session)
    (hbefore : ∀ event ∈ before, ¬ event.IsAnswer) (hvalidated : session.validated = true)
    (hopen : session.deleteFlag = false)
    (hsize : session.enctype = 2 → session.game.secretkey.length ≤ cryptkeySize)
    (hreply : session.enctype = 1 → cString random.challenge ≠ [] ∧
      (answersText random session run).length < 516132 ∧
      (after (V1Session.step random) session run).deleteFlag = true ∧
      (after (V1Session.step random) session run).socketDeleted = false)
    (memory : CryptEngine) (stack : Enc1Key) :
    ∃ sent, (after (V1Session.step random) session run).sendBuffer = session.sendBuffer ++ sent ∧
      (joined sent).bind (v1ClientReads session.enctype random.challenge session.game.secretkey
        memory stack) = some (answersText random session run) := by
  have hfresh : session.toV1Wire.Fresh random := by
    rw [← hsession]
    refine @invariant_of_at_each _ _ (V1Session.step random) (start random connected) before
      (fun session => session.toV1Wire.Fresh random) (fun _ event => ¬ event.IsAnswer)
      ⟨rfl, rfl, rfl, fun h => h⟩ (fun _ event h hno => fresh_step h event hno) ?_
    intro first event rest heq
    exact hbefore event (by simp [heq])
  have hsettled : session.Settled session.enctype session.game := by
    rw [← hsession] at hvalidated ⊢
    exact settled_of_validated hvalidated
  have hnothing : Carried random session.game.secretkey session.enctype session.toV1Wire [] [] := by
    by_cases h1 : session.enctype = 1
    · exact .kept h1 hopen rfl hfresh.kept
    · by_cases h2 : session.enctype = 2
      · exact .silent h2 hfresh.key hfresh.memory rfl rfl
      · exact .plain h1 h2 rfl
  have htells : Tells random session.enctype session.game session.sendBuffer [] session :=
    ⟨hsettled, hfresh.closed, [], (List.append_nil _).symm, hnothing⟩
  obtain ⟨sent, hbuffer, hcarried⟩ := (tells_run htells hsize run).carried
  refine ⟨sent, hbuffer, ?_⟩
  rw [List.nil_append] at hcarried
  cases hcarried with
  | plain h1 h2 hsent =>
      rw [hsent, Option.bind_some, v1ClientReads, if_neg h1, if_neg h2]
  | kept h1 hstill => exact absurd (hstill.symm.trans (hreply h1).2.2.1) Bool.false_ne_true
  | flushed h1 _ hsent =>
      obtain ⟨hchallenge, hshort, -, hsocket⟩ := hreply h1
      obtain hclosed | rfl := hsent
      · exact absurd (hsocket.symm.trans hclosed) Bool.false_ne_true
      · obtain ⟨reply, hmade, -, hdecoded⟩ :=
          decodes_to_of_short hchallenge random.stack stack random.rand hshort
        rw [hmade, h1]
        simpa [joined, v1ClientReads] using hdecoded
  | silent h2 _ _ hsent htext =>
      rw [hsent, htext, h2]
      rfl
  | streamed h2 _ engine hinit cipher hcipher hsent =>
      rw [hsent, Option.bind_some, h2]
      exact client_reads_stream hinit hcipher session.game.secretkey memory

/-- A client that asks for type 2. -/
def typeTwo : List V1Event :=
  sampleEvents (ascii "\\gamename\\g\\enctype\\2\\validate\\3gMJOhl1\\final\\")

theorem client_reads_groups :
    ∃ sent, (after (V1Session.step sampleRandom)
        (after (V1Session.step sampleRandom) (start sampleRandom 0) typeTwo)
        [.groups [ascii "\\fieldcount\\0"] true]).sendBuffer =
          (after (V1Session.step sampleRandom) (start sampleRandom 0) typeTwo).sendBuffer ++ sent ∧
      (joined sent).bind (v1ClientReads
        (after (V1Session.step sampleRandom) (start sampleRandom 0) typeTwo).enctype
        sampleRandom.challenge
        (after (V1Session.step sampleRandom) (start sampleRandom 0) typeTwo).game.secretkey
        sampleRandom.memory zeroKey) = some (answersText sampleRandom
          (after (V1Session.step sampleRandom) (start sampleRandom 0) typeTwo)
          [.groups [ascii "\\fieldcount\\0"] true]) := by
  have hevents : ∀ event ∈ typeTwo, ¬ event.IsAnswer := by
    simp [typeTwo, sampleEvents, V1Event.IsAnswer]
  obtain ⟨htwo, hvalidated, hopen, hsize⟩ :
      (after (V1Session.step sampleRandom) (start sampleRandom 0) typeTwo).enctype = 2 ∧
        (after (V1Session.step sampleRandom) (start sampleRandom 0) typeTwo).validated = true ∧
        (after (V1Session.step sampleRandom) (start sampleRandom 0) typeTwo).deleteFlag = false ∧
        (after (V1Session.step sampleRandom) (start sampleRandom 0)
          typeTwo).game.secretkey.length ≤ cryptkeySize := by
    rw [typeTwo, sample_validated (by decide +kernel)]
    decide +kernel
  exact client_reads_answers rfl hevents hvalidated hopen (fun _ => hsize)
    (fun h1 => absurd (htwo.symm.trans h1) (by decide)) _ _

end V1Session

end OpenSpy.ServerBrowsing
