import OpenSpy.Library.Deck
import OpenSpy.Library.Runs
import OpenSpy.Library.StreamCipher
import OpenSpy.Peerchat.LineReader
import OpenSpy.Peerchat.Replies

/-!
# Encrypted peerchat connections

The cipher of `gs_peerchat.cpp`, and a connection that is encrypted from the answer to `CRYPT` on:
what is read goes through one key and what is sent through the other, each made from a challenge
of 16 characters and the secret key of the game. `encrypted_connection_transparent` says that the
connection does what one without encryption does, and that the client reads what that one sends.
-/

namespace OpenSpy.Peerchat

open Bytes StreamCipher ByteTable LinePeer

/-- `gs_peerchat_ctx`. -/
structure GsPeerchatCtx where
  gsPeerchat1 : UInt8
  gsPeerchat2 : UInt8
  gsPeerchatCrypt : ByteTable

/-- The first loop of `gs_peerchat_init`, with what is left of the key from `p1` on. -/
def xorChallenge (gamekey : Bytes) : Bytes → Bytes → Bytes
  | _, [] => []
  | p1, byte :: chall =>
      let p1 := if p1.headD 0 = 0 then gamekey else p1
      (byte ^^^ p1.headD 0) :: xorChallenge gamekey p1.tail chall

/-- The body of the last loop of `gs_peerchat_init`. -/
def initSwap (challenge : Bytes) (state : ByteTable × UInt8) (i : Nat) : ByteTable × UInt8 :=
  let (crypt, t1) := state
  let p := crypt.byte (UInt8.ofNat i)
  let t1 := t1 + (challenge.getD (i % 16) 0 + p)
  let t := crypt.byte t1
  ((crypt.set t1 p).set (UInt8.ofNat i) t, t1)

/-- `gs_peerchat_init`, with the 16 characters of the challenge and the key up to its NUL. -/
def gsPeerchatInit (chall gamekey : Bytes) : GsPeerchatCtx :=
  let challenge := xorChallenge gamekey gamekey (chall.take 16)
  let (crypt, _) := (List.range 256).foldl (initSwap challenge) (.ofFn (0xff - ·), 0)
  ⟨0, 0, crypt⟩

/-- The body of the loop of `gs_peerchat` up to the byte that the data is combined with. -/
def gsPeerchatNext (ctx : GsPeerchatCtx) : UInt8 × GsPeerchatCtx :=
  let num1 := ctx.gsPeerchat1 + 1
  let t := ctx.gsPeerchatCrypt.byte num1
  let num2 := ctx.gsPeerchat2 + t
  let crypt := ctx.gsPeerchatCrypt.set num1 (ctx.gsPeerchatCrypt.byte num2)
  let crypt := crypt.set num2 t
  let t := t + crypt.byte num1
  (crypt.byte t, ⟨num1, num2, crypt⟩)

/-- `gs_peerchat`. -/
def gsPeerchat (ctx : GsPeerchatCtx) (data : Bytes) : Bytes × GsPeerchatCtx :=
  run (xorStep gsPeerchatNext) ctx data

theorem gs_peerchat_append (ctx : GsPeerchatCtx) (data more : Bytes) :
    gsPeerchat ctx (data ++ more) =
      ((gsPeerchat ctx data).1 ++ (gsPeerchat (gsPeerchat ctx data).2 more).1,
        (gsPeerchat (gsPeerchat ctx data).2 more).2) :=
  run_append _ ctx data more

/-- The connection of a peer. `sent` is what was appended to the send buffer. -/
structure CryptConnection (σ : Type*) where
  lines : LinePeer σ
  usingEncryption : Bool
  cryptKeyIn : GsPeerchatCtx
  cryptKeyOut : GsPeerchatCtx
  sent : Bytes

/-- What a connection does between other things: it reads a chunk, or `SendPacket` is called. -/
inductive StreamOp
  | read (chunk : Bytes)
  | sendPacket (data : Bytes)

namespace CryptConnection

variable {σ : Type*} (handler : LineHandler σ)

/-- `Peer::on_stream_read`. -/
def onStreamRead (conn : CryptConnection σ) (chunk : Bytes) : CryptConnection σ :=
  if conn.usingEncryption then
    let (recvBuffer, cryptKeyIn) := gsPeerchat conn.cryptKeyIn chunk
    { conn with cryptKeyIn, lines := conn.lines.onStreamRead handler recvBuffer }
  else { conn with lines := conn.lines.onStreamRead handler chunk }

/-- `Peer::SendPacket`, up to `append_send_buffer`, which drops the packets of a deleted peer. -/
def sendPacket (conn : CryptConnection σ) (data : Bytes) : CryptConnection σ :=
  let (buffer, conn) :=
    if conn.usingEncryption then
      let (buffer, cryptKeyOut) := gsPeerchat conn.cryptKeyOut data
      (buffer, { conn with cryptKeyOut })
    else (data, conn)
  if handler.deleteFlag conn.lines.session then conn
  else { conn with sent := conn.sent ++ buffer }

/-- A read or a packet. -/
def step (conn : CryptConnection σ) : StreamOp → CryptConnection σ
  | .read chunk => conn.onStreamRead handler chunk
  | .sendPacket data => conn.sendPacket handler data

/-- `Peer::OnGetGameInfo_Crypt` with the two challenges that `gen_random` gives, up to the task
that stores the game. -/
def onGetGameInfoCrypt (env : Environment) (viewer : Viewer) (secretkey clientChallenge
    serverChallenge : Bytes) (conn : CryptConnection σ) : CryptConnection σ :=
  if secretkey.headD 0 = 0 then
    { conn with
      lines :=
        { conn.lines with
          session := handler.delete conn.lines.session (ascii "Invalid gamename") } }
  else
    let conn :=
      { conn with
        cryptKeyIn := gsPeerchatInit clientChallenge (cString secretkey)
        cryptKeyOut := gsPeerchatInit serverChallenge (cString secretkey) }
    let conn := conn.sendPacket handler
      (sendNumeric env viewer 705 (clientChallenge ++ char ' ' :: serverChallenge) true [] true)
    { conn with usingEncryption := true }

/-- The same connection without encryption. -/
def withoutEncryption (conn : CryptConnection σ) : CryptConnection σ :=
  { conn with usingEncryption := false }

end CryptConnection

/-- The chunks that are read. -/
def chunksOf (ops : List StreamOp) : List Bytes :=
  ops.filterMap fun
    | .read chunk => some chunk
    | .sendPacket _ => none

/-- The same reads and packets with the chunks as they were before the client encrypted them. -/
def decryptedOps (keyIn : GsPeerchatCtx) : List StreamOp → List StreamOp
  | [] => []
  | .read chunk :: ops =>
      let (plain, keyIn) := gsPeerchat keyIn chunk
      .read plain :: decryptedOps keyIn ops
  | .sendPacket data :: ops => .sendPacket data :: decryptedOps keyIn ops

/-- The chunks of the decrypted reads are the pieces of the decrypted stream. -/
theorem chunks_of_decrypted_ops (keyIn : GsPeerchatCtx) (ops : List StreamOp) :
    chunksOf (decryptedOps keyIn ops) = (overPieces gsPeerchat keyIn (chunksOf ops)).1 := by
  induction ops generalizing keyIn with
  | nil => rfl
  | cons op ops ih =>
      cases op with
      | read chunk => exact congrArg ((gsPeerchat keyIn chunk).1 :: ·) (ih _)
      | sendPacket data => exact ih keyIn

/-- The key stream undoes itself, however the two sides cut it. -/
theorem gs_peerchat_pieces {ctx : GsPeerchatCtx} {plain cipher : List Bytes}
    (hcut : cipher.flatten = (overPieces gsPeerchat ctx plain).1.flatten) :
    (overPieces gsPeerchat ctx cipher).1.flatten = plain.flatten :=
  (over_pieces_inverse (fun _ _ => Prod.ext (xor_xor_self _ _) rfl) ctx hcut).1

section Connection

open CryptConnection

variable {σ : Type} {handler : LineHandler σ}

/-- An encrypted connection and one without encryption that does the same. `keyOut` is the key at
the start, and `text` what the other connection has sent since then. -/
structure Mirrors (handler : LineHandler σ) (start : Bytes) (keyOut : GsPeerchatCtx)
    (conn plain : CryptConnection σ) (text : Bytes) : Prop where
  encrypted : conn.usingEncryption = true
  clear : plain.usingEncryption = false
  lines : conn.lines = plain.lines
  plainSent : plain.sent = start ++ text
  sent : conn.sent = start ++ (gsPeerchat keyOut text).1
  key : handler.deleteFlag conn.lines.session = true ∨
    conn.cryptKeyOut = (gsPeerchat keyOut text).2

variable {start : Bytes} {keyOut : GsPeerchatCtx} {conn plain : CryptConnection σ} {text : Bytes}

/-- A deleted peer runs no commands. -/
theorem read_loop_deleted (fuel : Nat) (peer : LinePeer σ) (p : Bytes)
    (h : handler.deleteFlag peer.session = true) :
    (readLoop handler fuel peer p).session = peer.session := by
  have hcommands (peer : LinePeer σ) (input : Bytes)
      (h : handler.deleteFlag peer.session = true) : peer.handleCommands handler input = peer := by
    rw [LinePeer.handleCommands]
    cases keyStringToVector input newline with
    | nil => rfl
    | cons line rest => rw [handleCommandLines, if_pos h]
  induction fuel generalizing peer p with
  | zero => rfl
  | succ fuel ih =>
      rw [readLoop]
      split
      · rfl
      · split
        · simp only [hcommands { peer with accumulatorBuffer := [] } _ h]
          exact ih _ _ h
        · rfl

/-- A deleted peer stays deleted. -/
theorem read_deleted
    (hdelete : ∀ session reason, handler.deleteFlag (handler.delete session reason))
    (peer : LinePeer σ) (chunk : Bytes) (h : handler.deleteFlag peer.session = true) :
    handler.deleteFlag (peer.onStreamRead handler chunk).session = true := by
  rw [LinePeer.onStreamRead]
  split
  · exact hdelete _ _
  · rwa [read_loop_deleted _ _ _ h]

/-- A read keeps the connections in step. -/
theorem Mirrors.read
    (hdelete : ∀ session reason, handler.deleteFlag (handler.delete session reason))
    (h : Mirrors handler start keyOut conn plain text) (chunk : Bytes) :
    Mirrors handler start keyOut (conn.onStreamRead handler chunk)
      (plain.onStreamRead handler (gsPeerchat conn.cryptKeyIn chunk).1) text := by
  rw [CryptConnection.onStreamRead, CryptConnection.onStreamRead, if_pos h.encrypted,
    if_neg (by rw [h.clear]; exact Bool.false_ne_true)]
  refine ⟨h.encrypted, h.clear, by rw [← h.lines], h.plainSent, h.sent, ?_⟩
  exact h.key.imp_left (read_deleted hdelete _ _)

/-- A packet keeps the connections in step. -/
theorem Mirrors.sendPacket (h : Mirrors handler start keyOut conn plain text) (data : Bytes) :
    ∃ text, Mirrors handler start keyOut (conn.sendPacket handler data)
      (plain.sendPacket handler data) text := by
  by_cases hdeleted : handler.deleteFlag conn.lines.session = true
  · have hdeleted' : handler.deleteFlag plain.lines.session = true := by rwa [← h.lines]
    refine ⟨text, ?_⟩
    simp only [CryptConnection.sendPacket, h.encrypted, h.clear, hdeleted, hdeleted', if_true,
      if_false, Bool.false_eq_true]
    exact ⟨rfl, h.clear, h.lines, h.plainSent, h.sent, .inl hdeleted⟩
  · have hdeleted' : ¬ handler.deleteFlag plain.lines.session = true := by rwa [← h.lines]
    have hkey := h.key.resolve_left hdeleted
    refine ⟨text ++ data, ?_⟩
    simp only [CryptConnection.sendPacket, h.encrypted, h.clear, hdeleted, hdeleted', if_true,
      if_false, Bool.false_eq_true]
    refine ⟨rfl, rfl, h.lines, ?_, ?_, .inr ?_⟩
    · simp only [h.plainSent, List.append_assoc]
    · simp only [h.sent, hkey, gs_peerchat_append, List.append_assoc]
    · simp only [hkey, gs_peerchat_append]

/-- A run keeps the connections in step. -/
theorem Mirrors.run
    (hdelete : ∀ session reason, handler.deleteFlag (handler.delete session reason))
    (h : Mirrors handler start keyOut conn plain text) (ops : List StreamOp) :
    ∃ text, Mirrors handler start keyOut (Runs.after (step handler) conn ops)
      (Runs.after (step handler) plain (decryptedOps conn.cryptKeyIn ops)) text := by
  induction ops generalizing conn plain text with
  | nil => exact ⟨text, h⟩
  | cons op ops ih =>
      cases op with
      | read chunk =>
          have hkey : (conn.onStreamRead handler chunk).cryptKeyIn =
              (gsPeerchat conn.cryptKeyIn chunk).2 := by
            rw [CryptConnection.onStreamRead, if_pos h.encrypted]
          have hrest := ih (h.read hdelete chunk)
          rwa [hkey] at hrest
      | sendPacket data =>
          have hkey : (conn.sendPacket handler data).cryptKeyIn = conn.cryptKeyIn := by
            simp only [CryptConnection.sendPacket, h.encrypted, if_true]
            split <;> rfl
          obtain ⟨sent, hsent⟩ := h.sendPacket data
          have hrest := ih hsent
          rwa [hkey] at hrest

/-- A connection whose keys are set up: what is said of its keys is said of those of the client. -/
theorem keyed_connection_transparent {keyed : CryptConnection σ} {ops : List StreamOp}
    {clientText : List Bytes}
    (hdelete : ∀ session reason, handler.deleteFlag (handler.delete session reason))
    (hkeyed : keyed.usingEncryption = true)
    (hclient : (chunksOf ops).flatten =
      (overPieces gsPeerchat keyed.cryptKeyIn clientText).1.flatten) :
    let plainOps := decryptedOps keyed.cryptKeyIn ops
    let final := Runs.after (step handler) keyed ops
    let plain := Runs.after (step handler) keyed.withoutEncryption plainOps
    (chunksOf plainOps).flatten = clientText.flatten ∧ final.lines = plain.lines ∧
      ∃ text cipher, plain.sent = keyed.sent ++ text ∧ final.sent = keyed.sent ++ cipher ∧
        ∀ pieces, pieces.flatten = cipher →
          (overPieces gsPeerchat keyed.cryptKeyOut pieces).1.flatten = text := by
  intro plainOps final plain
  have hstart : Mirrors handler keyed.sent keyed.cryptKeyOut keyed keyed.withoutEncryption [] :=
    ⟨hkeyed, rfl, rfl, (List.append_nil _).symm, (List.append_nil _).symm, .inr rfl⟩
  obtain ⟨text, hrun⟩ := hstart.run hdelete ops
  refine ⟨?_, hrun.lines, text, _, hrun.plainSent, hrun.sent, fun pieces hpieces => ?_⟩
  · rw [chunks_of_decrypted_ops]
    exact gs_peerchat_pieces hclient
  · have hcut : pieces.flatten =
        (overPieces gsPeerchat keyed.cryptKeyOut [text]).1.flatten := by
      rw [hpieces]
      simp [overPieces]
    rw [gs_peerchat_pieces hcut, List.flatten_singleton]

/-- From the answer to `CRYPT` on a client may encrypt what it writes and cut it as it likes. The
connection handles the commands of the plain text as one without encryption that reads it in
pieces, and what the client decrypts, again in whatever pieces, is what that one sends. -/
theorem encrypted_connection_transparent (handler : LineHandler σ) (conn : CryptConnection σ)
    (env : Environment) (viewer : Viewer) {secretkey : Bytes}
    (clientChallenge serverChallenge : Bytes) {ops : List StreamOp} {clientText : List Bytes}
    (hdelete : ∀ session reason, handler.deleteFlag (handler.delete session reason))
    (hclear : conn.usingEncryption = false) (hgame : secretkey.headD 0 ≠ 0)
    (hclient : (chunksOf ops).flatten =
      (overPieces gsPeerchat (gsPeerchatInit clientChallenge (cString secretkey))
        clientText).1.flatten) :
    let keyed := conn.onGetGameInfoCrypt handler env viewer secretkey clientChallenge
      serverChallenge
    let plainOps := decryptedOps (gsPeerchatInit clientChallenge (cString secretkey)) ops
    let final := Runs.after (step handler) keyed ops
    let plain := Runs.after (step handler) keyed.withoutEncryption plainOps
    (chunksOf plainOps).flatten = clientText.flatten ∧ final.lines = plain.lines ∧
      ∃ text cipher, plain.sent = keyed.sent ++ text ∧ final.sent = keyed.sent ++ cipher ∧
        ∀ pieces, pieces.flatten = cipher →
          (overPieces gsPeerchat (gsPeerchatInit serverChallenge (cString secretkey))
            pieces).1.flatten = text := by
  intro keyed
  obtain ⟨hencrypted, hin, hout⟩ : keyed.usingEncryption = true ∧
      keyed.cryptKeyIn = gsPeerchatInit clientChallenge (cString secretkey) ∧
      keyed.cryptKeyOut = gsPeerchatInit serverChallenge (cString secretkey) := by
    simp only [keyed, onGetGameInfoCrypt, hgame, if_false, CryptConnection.sendPacket, hclear,
      Bool.false_eq_true]
    split <;> simp only [and_self]
  rw [← hin, ← hout]
  rw [← hin] at hclient
  exact keyed_connection_transparent hdelete hencrypted hclient

/-- A client that has sent all it has to say in one piece. -/
theorem encrypted_connection_transparent_nick :
    let handler : LineHandler Bool := ⟨fun session _ => session, id, fun _ _ => true⟩
    let viewer : Viewer := ⟨⟨.empty, fun _ => 0⟩, []⟩
    let env : Environment := ⟨ascii "s", 0, .empty, id, [], [], []⟩
    let conn : CryptConnection Bool :=
      ⟨.start false, false, gsPeerchatInit [] [], gsPeerchatInit [] [], []⟩
    let keyIn := gsPeerchatInit (ascii "0123456789abcdef") (ascii "HA6zkS")
    let keyed := conn.onGetGameInfoCrypt handler env viewer (ascii "HA6zkS")
      (ascii "0123456789abcdef") (ascii "fedcba9876543210")
    let ops := [StreamOp.read (gsPeerchat keyIn (ascii "NICK a\n")).1]
    (Runs.after (step handler) keyed ops).lines =
      (Runs.after (step handler) keyed.withoutEncryption (decryptedOps keyIn ops)).lines := by
  intro handler viewer env conn keyIn keyed ops
  have hkey : cString (ascii "HA6zkS") = ascii "HA6zkS" := by decide
  have hsent : (chunksOf ops).flatten = (overPieces gsPeerchat (gsPeerchatInit
      (ascii "0123456789abcdef") (cString (ascii "HA6zkS"))) [ascii "NICK a\n"]).1.flatten := by
    rw [hkey]
    rfl
  have h := encrypted_connection_transparent handler conn env viewer (ascii "0123456789abcdef")
    (ascii "fedcba9876543210") (fun _ _ => rfl) rfl (by decide) hsent
  rw [hkey] at h
  exact h.2.1

end Connection

end OpenSpy.Peerchat
