import Mathlib.Data.List.GetD
import OpenSpy.Library.Runs
import OpenSpy.ServerBrowsing.SbCrypt
import OpenSpy.ServerBrowsing.V2Stream

/-!
# The encryption of a V2 session

The first packet that a peer sends once it knows a game with a secret key has a header in front,
with random bytes that are mixed with the secret key and the challenge of the client's list
request. From there on all that is sent is encrypted as one stream. `PlainPeer` is a peer that
encrypts nothing and keeps what it was asked to send; `client_reads_what_was_sent` says that a
client with the same key and challenge reads just that.
-/

namespace OpenSpy.ServerBrowsing

open StreamCipher ByteTable

/-- `CRYPTCHAL_LEN` and `SERVCHAL_LEN`. -/
def cryptchalLen : Nat := 10
def servchalLen : Nat := 25

/-- `QR2_USE_QUERY_CHALLENGE`. -/
def qr2UseQueryChallenge : Int32 := 128

/-- `m_challenge`, which has `LIST_CHALLENGE_LEN` bytes. -/
abbrev ListChallenge := Vector UInt8 8

/-- What `SendPacket` uses of a V2 peer. `secretkey` and `backendflags` are those of `m_game`, and
`sent` is what was appended to the send buffer. -/
structure CryptPeer where
  secretkey : Bytes
  backendflags : Int32
  challenge : ListChallenge
  sentCryptHeader : Bool
  cryptState : GOACryptState
  deleteFlag : Bool
  sent : Bytes

/-- A peer after its constructor, which leaves the challenge as the memory has it. -/
def CryptPeer.start (memory : ListChallenge) : CryptPeer :=
  ⟨[], 0, memory, false, .zero, false, []⟩

/-- The body of the loop that combines the secret key, the challenge and the random bytes. A `char`
of the key is extended with its sign. -/
def mixChallenge (seckey servchal : Bytes) (challenge : ListChallenge) (i : Nat) : ListChallenge :=
  let product := UInt32.ofNat i * (seckey.getD (i % seckey.length) 0).toInt8.toInt32.toUInt32
  let place := Fin.ofNat 8 product.toNat
  challenge.set place.val
    (challenge.get place ^^^ (challenge.get (Fin.ofNat 8 i) ^^^ servchal.getD i 0)) place.isLt

/-- `m_challenge` when `GOACryptInit` gets it. -/
def mixedChallenge (seckey servchal : Bytes) (challenge : ListChallenge) (servchallen : Nat) :
    ListChallenge :=
  (List.range servchallen).foldl (mixChallenge seckey servchal) challenge

/-- The first two of the random bytes are a number in network order, in which a bit tells the
client about the game. -/
def flagCryptchal (backendflags : Int32) : Bytes → Bytes
  | first :: second :: rest =>
      let flags : UInt16 := first.toUInt16 <<< 8 ||| second.toUInt16
      let flags :=
        if backendflags &&& qr2UseQueryChallenge ≠ 0 then flags ||| 128 else flags &&& ~~~128
      (flags >>> 8).toUInt8 :: flags.toUInt8 :: rest
  | short => short

/-- The random bytes of a header. -/
structure HeaderRandoms where
  cryptchal : Vector UInt8 10
  servchal : Vector UInt8 25

/-- What `setupCryptHeader` writes. -/
def cryptHeader (backendflags : Int32) (randoms : HeaderRandoms) : Bytes :=
  (UInt8.ofNat cryptchalLen ^^^ 0xEC) :: (flagCryptchal backendflags randoms.cryptchal.toList ++
    (UInt8.ofNat servchalLen ^^^ 0xEA) :: randoms.servchal.toList)

/-- `V2Peer::setupCryptHeader`: the header, and the peer. -/
def setupCryptHeader (peer : CryptPeer) (randoms : HeaderRandoms) : Bytes × CryptPeer :=
  let challenge :=
    mixedChallenge peer.secretkey randoms.servchal.toList peer.challenge servchalLen
  (cryptHeader peer.backendflags randoms,
    { peer with challenge, cryptState := goaCryptInit challenge.toList })

/-- A packet as it is encrypted: behind its length if it is asked for. -/
def framed (buff : Bytes) (prependLength : Bool) : Bytes :=
  if prependLength then v2Message buff else buff

/-- `V2Peer::SendPacket`, with the bytes that `rand` gives if there is a header to be sent. -/
def sendPacket (peer : CryptPeer) (buff : Bytes) (prependLength : Bool)
    (randoms : HeaderRandoms) : CryptPeer :=
  if peer.deleteFlag then peer
  else
    let (header, peer) :=
      if !peer.sentCryptHeader && peer.secretkey.headD 0 != 0 then
        let (header, peer) := setupCryptHeader peer randoms
        (header, { peer with sentCryptHeader := true })
      else ([], peer)
    let (cipher, cryptState) := goaEncrypt peer.cryptState (framed buff prependLength)
    { peer with cryptState, sent := peer.sent ++ header ++ cipher }

/-- What happens to a peer: a list request overwrites the challenge, `OnRecievedGameInfoPair` the
game, packets are sent, and `Delete` is called. -/
inductive CryptEvent
  | listRequest (challenge : ListChallenge)
  | gameInfoPair (secretkey : Bytes) (backendflags : Int32)
  | send (buff : Bytes) (prependLength : Bool) (randoms : HeaderRandoms)
  | delete

/-- The peer after an event. -/
def CryptPeer.step (peer : CryptPeer) : CryptEvent → CryptPeer
  | .listRequest challenge => { peer with challenge }
  | .gameInfoPair secretkey backendflags => { peer with secretkey, backendflags }
  | .send buff prependLength randoms => sendPacket peer buff prependLength randoms
  | .delete => { peer with deleteFlag := true }

/-- `SB2_InitCryptState`, the client's side: the state and the length of the header, and nothing
where the header is none. -/
def sb2InitCryptState (seckey : Bytes) (challenge : ListChallenge) (buffer : Buffer) :
    Option (GOACryptState × Nat) :=
  let (cryptlen, buffer) := buffer.readByte
  let cryptlen := (cryptlen ^^^ 0xEC).toNat
  if cryptchalLen < cryptlen then none
  else
    let (_, buffer) := buffer.readBuffer cryptlen
    let (servchallen, buffer) := buffer.readByte
    let servchallen := (servchallen ^^^ 0xEA).toNat
    if servchalLen < servchallen then none
    else
      let (servchal, _) := buffer.readBuffer servchallen
      let servchal := servchal.getD [] ++ List.replicate servchalLen 0
      some (goaCryptInit (mixedChallenge seckey servchal challenge servchallen).toList,
        servchallen + cryptlen + 2)

/-- What a client reads of the stream in the pieces that come in, the first of which has the
header. -/
def clientReads (seckey : Bytes) (challenge : ListChallenge) : List Bytes → Option Bytes
  | [] => some []
  | first :: pieces =>
      (sb2InitCryptState seckey challenge (Buffer.empty.writeBuffer first)).map
        fun (state, header) => (overPieces goaDecrypt state (first.drop header :: pieces)).1.flatten

/-- A peer that encrypts nothing. `keyed` is the key, the flags and the challenge that were there
when the first packet with a header was sent, `before` what was sent until then, and `after` what
was sent with that packet and behind it. -/
structure PlainPeer where
  secretkey : Bytes
  backendflags : Int32
  challenge : ListChallenge
  deleteFlag : Bool
  keyed : Option (Bytes × Int32 × ListChallenge)
  before : Bytes
  after : Bytes

/-- A peer that has sent nothing. -/
def PlainPeer.start (memory : ListChallenge) : PlainPeer :=
  ⟨[], 0, memory, false, none, [], []⟩

/-- A packet is sent: behind what was sent before, if there is no key yet. -/
def PlainPeer.sendPacket (peer : PlainPeer) (packet : Bytes) : PlainPeer :=
  if peer.deleteFlag then peer
  else if peer.keyed.isSome then { peer with after := peer.after ++ packet }
  else if peer.secretkey.headD 0 != 0 then
    { peer with
      keyed := some (peer.secretkey, peer.backendflags, peer.challenge)
      after := packet }
  else { peer with before := peer.before ++ packet }

/-- The peer after an event. -/
def PlainPeer.step (peer : PlainPeer) : CryptEvent → PlainPeer
  | .listRequest challenge => { peer with challenge }
  | .gameInfoPair secretkey backendflags => { peer with secretkey, backendflags }
  | .send buff prependLength _ => peer.sendPacket (framed buff prependLength)
  | .delete => { peer with deleteFlag := true }

/-- The cards before there is a key. -/
def zeroCards : ByteTable :=
  .ofFn fun _ => 0

@[simp] theorem zero_cards_byte (i : UInt8) : zeroCards.byte i = 0 := by
  rw [zeroCards, byte_ofFn]

@[simp] theorem zero_cards_set (i : UInt8) : zeroCards.set i 0 = zeroCards := by
  have h := set_byte zeroCards i
  rwa [zero_cards_byte] at h

/-- With cards that are all zero nothing is changed, and they stay so. -/
theorem encrypt_zero_cards (state : GOACryptState) (h : state.cards = zeroCards) (bp : Bytes) :
    (goaEncrypt state bp).1 = bp ∧ (goaEncrypt state bp).2.cards = zeroCards := by
  rw [goa_encrypt_eq]
  induction bp generalizing state with
  | nil => exact ⟨rfl, h⟩
  | cons byte bp ih =>
      have hstep : (goaEncryptByte state byte).1 = byte ∧
          (goaEncryptByte state byte).2.cards = zeroCards := by
        simp [goaEncryptByte, h]
      obtain ⟨hrest, hcards⟩ := ih _ hstep.2
      exact ⟨by rw [run]; simp only [hstep.1, hrest], hcards⟩

/-- The state that a header sets up. -/
def headerState (seckey : Bytes) (challenge : ListChallenge) (randoms : HeaderRandoms) :
    GOACryptState :=
  goaCryptInit (mixedChallenge seckey randoms.servchal.toList challenge servchalLen).toList

/-- What a peer has sent is what it was asked to send, first in clear and then behind a header. -/
structure Encrypts (peer : CryptPeer) (plain : PlainPeer) : Prop where
  secretkey : peer.secretkey = plain.secretkey
  backendflags : peer.backendflags = plain.backendflags
  deleteFlag : peer.deleteFlag = plain.deleteFlag
  header : peer.sentCryptHeader = plain.keyed.isSome
  clear : plain.keyed = none → peer.challenge = plain.challenge ∧ peer.sent = plain.before ∧
    peer.cryptState.cards = zeroCards
  cipher : ∀ seckey flags challenge, plain.keyed = some (seckey, flags, challenge) →
    ∃ randoms, peer.sent = plain.before ++ (cryptHeader flags randoms ++
        (goaEncrypt (headerState seckey challenge randoms) plain.after).1) ∧
      peer.cryptState = (goaEncrypt (headerState seckey challenge randoms) plain.after).2

theorem encrypts_start (memory : ListChallenge) :
    Encrypts (.start memory) (.start memory) where
  secretkey := rfl
  backendflags := rfl
  deleteFlag := rfl
  header := rfl
  clear _ := ⟨rfl, rfl, rfl⟩
  cipher _ _ _ h := absurd h nofun

theorem goa_encrypt_append (state : GOACryptState) (bp more : Bytes) :
    goaEncrypt state (bp ++ more) =
      ((goaEncrypt state bp).1 ++ (goaEncrypt (goaEncrypt state bp).2 more).1,
        (goaEncrypt (goaEncrypt state bp).2 more).2) := by
  simp only [goa_encrypt_eq, run_append]

section SendPacket

variable {peer : CryptPeer} {plain : PlainPeer} {buff packet : Bytes} {prependLength : Bool}
  {randoms : HeaderRandoms}

theorem send_packet_deleted (h : peer.deleteFlag = true) :
    sendPacket peer buff prependLength randoms = peer := by
  rw [sendPacket, if_pos h]

/-- Without a header in front, be it sent already or be there no key. -/
theorem send_packet_bare (hdelete : peer.deleteFlag = false)
    (h : (!peer.sentCryptHeader && peer.secretkey.headD 0 != 0) = false) :
    sendPacket peer buff prependLength randoms =
      { peer with
        cryptState := (goaEncrypt peer.cryptState (framed buff prependLength)).2
        sent := peer.sent ++ (goaEncrypt peer.cryptState (framed buff prependLength)).1 } := by
  simp only [sendPacket, hdelete, h, Bool.false_eq_true, if_false, List.append_nil]

theorem send_packet_first (hdelete : peer.deleteFlag = false)
    (h : (!peer.sentCryptHeader && peer.secretkey.headD 0 != 0) = true) :
    sendPacket peer buff prependLength randoms =
      let challenge :=
        mixedChallenge peer.secretkey randoms.servchal.toList peer.challenge servchalLen
      let cipher := goaEncrypt (goaCryptInit challenge.toList) (framed buff prependLength)
      { peer with
        challenge
        sentCryptHeader := true
        cryptState := cipher.2
        sent := peer.sent ++ cryptHeader peer.backendflags randoms ++ cipher.1 } := by
  simp only [sendPacket, setupCryptHeader, hdelete, h, Bool.false_eq_true, if_false, if_true]

/-- A packet behind a header that was sent. -/
theorem Encrypts.send_keyed (h : Encrypts peer plain) (hdelete : plain.deleteFlag = false)
    (hkeyed : plain.keyed.isSome = true) :
    Encrypts (sendPacket peer buff prependLength randoms)
      { plain with after := plain.after ++ framed buff prependLength } := by
  have hbare : (!peer.sentCryptHeader && peer.secretkey.headD 0 != 0) = false := by
    rw [h.header, hkeyed]
    rfl
  rw [send_packet_bare (h.deleteFlag.trans hdelete) hbare]
  refine ⟨h.secretkey, h.backendflags, h.deleteFlag, h.header, ?_, ?_⟩
  · intro hnone
    have hsome : plain.keyed = none := hnone
    rw [hsome] at hkeyed
    exact absurd hkeyed Bool.false_ne_true
  · intro seckey flags challenge hkey
    obtain ⟨header, hsent, hstate⟩ := h.cipher seckey flags challenge hkey
    refine ⟨header, ?_, ?_⟩
    · simp only [hsent, hstate, goa_encrypt_append, List.append_assoc]
    · simp only [hstate, goa_encrypt_append]

/-- A packet before there is a key. -/
theorem Encrypts.send_clear (h : Encrypts peer plain) (hdelete : plain.deleteFlag = false)
    (hkeyed : plain.keyed = none) (hkey : (plain.secretkey.headD 0 != 0) = false) :
    Encrypts (sendPacket peer buff prependLength randoms)
      { plain with before := plain.before ++ framed buff prependLength } := by
  have hbare : (!peer.sentCryptHeader && peer.secretkey.headD 0 != 0) = false := by
    rw [h.secretkey, hkey, Bool.and_false]
  obtain ⟨hchallenge, hsent, hcards⟩ := h.clear hkeyed
  obtain ⟨htext, hzero⟩ := encrypt_zero_cards peer.cryptState hcards (framed buff prependLength)
  rw [send_packet_bare (h.deleteFlag.trans hdelete) hbare]
  refine ⟨h.secretkey, h.backendflags, h.deleteFlag, h.header, ?_, ?_⟩
  · intro _
    exact ⟨hchallenge, by simp only [hsent, htext], hzero⟩
  · intro seckey flags challenge hsome
    exact absurd (hkeyed.symm.trans hsome) nofun

/-- The first packet with a key in hand. -/
theorem Encrypts.send_first (h : Encrypts peer plain) (hdelete : plain.deleteFlag = false)
    (hkeyed : plain.keyed = none) (hkey : (plain.secretkey.headD 0 != 0) = true) :
    Encrypts (sendPacket peer buff prependLength randoms)
      { plain with
        keyed := some (plain.secretkey, plain.backendflags, plain.challenge)
        after := framed buff prependLength } := by
  have hfirst : (!peer.sentCryptHeader && peer.secretkey.headD 0 != 0) = true := by
    rw [h.header, hkeyed, h.secretkey, hkey]
    rfl
  obtain ⟨hchallenge, hsent, -⟩ := h.clear hkeyed
  rw [send_packet_first (h.deleteFlag.trans hdelete) hfirst]
  refine ⟨h.secretkey, h.backendflags, h.deleteFlag, rfl, nofun, ?_⟩
  intro seckey flags challenge hsome
  obtain ⟨rfl, rfl, rfl⟩ : plain.secretkey = seckey ∧ plain.backendflags = flags ∧
      plain.challenge = challenge := by simpa using hsome
  refine ⟨randoms, ?_, ?_⟩
  · simp only [hsent, hchallenge, headerState, h.secretkey, h.backendflags, List.append_assoc]
  · simp only [hchallenge, headerState, h.secretkey]

/-- Sending keeps the relation. -/
theorem Encrypts.send (h : Encrypts peer plain) :
    Encrypts (sendPacket peer buff prependLength randoms)
      (plain.sendPacket (framed buff prependLength)) := by
  cases hdelete : plain.deleteFlag with
  | true =>
      rwa [send_packet_deleted (h.deleteFlag.trans hdelete), PlainPeer.sendPacket, if_pos hdelete]
  | false =>
      rw [PlainPeer.sendPacket, if_neg (by rw [hdelete]; exact Bool.false_ne_true)]
      cases hkeyed : plain.keyed with
      | some key =>
          rw [Option.isSome_some, if_pos rfl, ← hkeyed]
          exact h.send_keyed hdelete (by rw [hkeyed]; rfl)
      | none =>
          rw [Option.isSome_none, if_neg Bool.false_ne_true]
          cases hkey : plain.secretkey.headD 0 != 0 with
          | true =>
              rw [if_pos rfl]
              exact h.send_first hdelete hkeyed hkey
          | false =>
              rw [if_neg Bool.false_ne_true, ← hkeyed]
              exact h.send_clear hdelete hkeyed hkey

end SendPacket

/-- Every event keeps the relation. -/
theorem Encrypts.step {peer : CryptPeer} {plain : PlainPeer} (h : Encrypts peer plain)
    (event : CryptEvent) : Encrypts (peer.step event) (plain.step event) := by
  cases event with
  | listRequest challenge =>
      refine ⟨h.secretkey, h.backendflags, h.deleteFlag, h.header, fun hnone => ?_, h.cipher⟩
      exact ⟨rfl, (h.clear hnone).2⟩
  | gameInfoPair secretkey backendflags =>
      exact ⟨rfl, rfl, h.deleteFlag, h.header, h.clear, h.cipher⟩
  | send buff prependLength randoms => exact h.send
  | delete => exact ⟨h.secretkey, h.backendflags, rfl, h.header, h.clear, h.cipher⟩

/-- Every run keeps the relation. -/
theorem encrypts_run (memory : ListChallenge) (events : List CryptEvent) :
    Encrypts (Runs.after CryptPeer.step (.start memory) events)
      (Runs.after PlainPeer.step (.start memory) events) := by
  induction events using List.reverseRecOn with
  | nil => exact encrypts_start memory
  | append_singleton events event ih =>
      rw [Runs.after_concat, Runs.after_concat]
      exact ih.step event

/-- The flag does not change the number of random bytes. -/
theorem flag_cryptchal_length (backendflags : Int32) (cryptchal : Bytes) :
    (flagCryptchal backendflags cryptchal).length = cryptchal.length := by
  match cryptchal with
  | [] => rfl
  | [_] => rfl
  | _ :: _ :: _ => simp [flagCryptchal]

theorem read_byte_cons (read rest : Bytes) (byte : UInt8) :
    (Buffer.mk read (byte :: rest)).readByte = (byte, ⟨read ++ [byte], rest⟩) :=
  rfl

theorem read_buffer_append (read bytes rest : Bytes) :
    (Buffer.mk read (bytes ++ rest)).readBuffer bytes.length =
      (some bytes, ⟨read ++ bytes, rest⟩) := by
  simp [Buffer.readBuffer, Buffer.readRemaining, Buffer.skipRead]

/-- What lies behind the random bytes plays no part in the mixing. -/
theorem mixed_challenge_append (seckey servchal more : Bytes)
    (challenge : ListChallenge) :
    mixedChallenge seckey (servchal ++ more) challenge servchal.length =
      mixedChallenge seckey servchal challenge servchal.length := by
  refine List.foldl_ext _ _ _ fun mixed i hi => ?_
  have hlt := List.mem_range.mp hi
  rw [mixChallenge, mixChallenge, List.getD_append _ _ _ _ hlt]

/-- The client reads the header and sets up the state of the peer. -/
theorem sb2_init_crypt_state_header (seckey : Bytes) (flags : Int32) (challenge : ListChallenge)
    (randoms : HeaderRandoms) (rest : Bytes) :
    sb2InitCryptState seckey challenge
        (Buffer.empty.writeBuffer (cryptHeader flags randoms ++ rest)) =
      some (headerState seckey challenge randoms, 37) := by
  have hcrypt : (flagCryptchal flags randoms.cryptchal.toList).length = cryptchalLen := by
    rw [flag_cryptchal_length, Vector.length_toList]
    rfl
  have hserv : randoms.servchal.toList.length = servchalLen := Vector.length_toList
  have hcryptlen : (UInt8.ofNat cryptchalLen ^^^ 0xEC ^^^ 0xEC).toNat = cryptchalLen := by decide
  have hservlen : (UInt8.ofNat servchalLen ^^^ 0xEA ^^^ 0xEA).toNat = servchalLen := by decide
  have hmixed := mixed_challenge_append seckey randoms.servchal.toList
    (List.replicate servchalLen 0) challenge
  rw [hserv] at hmixed
  simp only [sb2InitCryptState, Buffer.empty, Buffer.writeBuffer, List.nil_append, cryptHeader,
    List.cons_append, read_byte_cons, hcryptlen, Nat.lt_irrefl, if_false]
  rw [List.append_assoc, ← hcrypt, read_buffer_append]
  simp only [List.cons_append, read_byte_cons, hservlen, Nat.lt_irrefl, if_false]
  rw [← hserv, read_buffer_append]
  simp only [Option.getD_some, hserv, hmixed, hcrypt]
  rfl

/-- The client sees the flag of the game. -/
theorem crypt_header_flag (flags : Int32) (randoms : HeaderRandoms) (rest : Bytes) :
    (cryptHeader flags randoms ++ rest).getD 2 0 &&& 128 ≠ 0 ↔
      flags &&& qr2UseQueryChallenge ≠ 0 := by
  obtain ⟨first, second, more, hchal⟩ : ∃ first second more,
      randoms.cryptchal.toList = first :: second :: more := by
    have hlen : randoms.cryptchal.toList.length = 10 := Vector.length_toList
    match randoms.cryptchal.toList, hlen with
    | first :: second :: more, _ => exact ⟨first, second, more, rfl⟩
  have hset (value : UInt8) : (value ||| 128) &&& 128 = 128 := by
    rw [← UInt8.toBitVec_inj, UInt8.toBitVec_and, UInt8.toBitVec_or, BitVec.and_comm]
    ext i hi
    simp only [BitVec.getElem_and, BitVec.getElem_or]
    cases (UInt8.toBitVec 128)[i] <;> simp
  have hclear (value : UInt8) : value &&& ~~~128 &&& 128 = 0 := by
    rw [UInt8.and_assoc]
    exact UInt8.and_zero
  rw [cryptHeader, hchal]
  simp only [flagCryptchal, List.cons_append, List.getD_cons_succ, List.getD_cons_zero]
  by_cases h : flags &&& qr2UseQueryChallenge = 0
  · simp [h, hclear]
  · simp [h, hset]

/-- What a client reads, in whatever pieces the stream comes to it, is what the peer was asked to
send from its first packet with a key on, and the client sees the flag of the game. What was sent
before was sent in clear. -/
theorem client_reads_what_was_sent (memory : ListChallenge) (events : List CryptEvent) :
    let peer := Runs.after CryptPeer.step (.start memory) events
    let plain := Runs.after PlainPeer.step (.start memory) events
    match plain.keyed with
    | none => peer.sent = plain.before
    | some (seckey, flags, challenge) =>
        ∃ wire, peer.sent = plain.before ++ wire ∧
          (wire.getD 2 0 &&& 128 ≠ 0 ↔ flags &&& qr2UseQueryChallenge ≠ 0) ∧
          ∀ first pieces, 37 ≤ first.length → (first :: pieces).flatten = wire →
            clientReads seckey challenge (first :: pieces) = some plain.after := by
  intro peer plain
  have h : Encrypts peer plain := encrypts_run memory events
  cases hkeyed : plain.keyed with
  | none => exact (h.clear hkeyed).2.1
  | some key =>
      obtain ⟨seckey, flags, challenge⟩ := key
      obtain ⟨randoms, hsent, -⟩ := h.cipher seckey flags challenge hkeyed
      refine ⟨_, hsent, crypt_header_flag flags randoms _, ?_⟩
      intro first pieces hfirst hpieces
      have hheader : (cryptHeader flags randoms).length = 37 := by
        simp [cryptHeader, flag_cryptchal_length]
      rw [List.flatten_cons] at hpieces
      -- the first piece is the header and the start of the cipher text
      obtain ⟨start, rfl, hrest⟩ : ∃ start, first = cryptHeader flags randoms ++ start ∧
          start ++ pieces.flatten =
            (goaEncrypt (headerState seckey challenge randoms) plain.after).1 := by
        obtain ⟨start, hstart, hrest⟩ | ⟨start, hstart, hrest⟩ :=
          List.append_eq_append_iff.mp hpieces
        · have hnil : start = [] := by
            have hlen := congrArg List.length hstart
            rw [List.length_append, hheader] at hlen
            exact List.length_eq_zero_iff.mp (by omega)
          subst hnil
          exact ⟨[], by simpa using hstart.symm, by simpa using hrest⟩
        · exact ⟨start, hstart, hrest.symm⟩
      rw [goa_encrypt_eq] at hrest
      have hcut : (start :: pieces).flatten = (overPieces (run goaEncryptByte)
          (headerState seckey challenge randoms) [plain.after]).1.flatten := by
        simpa [overPieces] using hrest
      have hread := (over_pieces_inverse decrypt_encrypt_byte _ hcut).1
      rw [clientReads, sb2_init_crypt_state_header, Option.map_some, ← hheader]
      simp only [List.drop_left']
      rw [show goaDecrypt = run goaDecryptByte from rfl, hread]
      simp

end OpenSpy.ServerBrowsing
