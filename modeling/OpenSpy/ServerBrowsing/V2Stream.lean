import OpenSpy.Core.Buffer
import OpenSpy.Library.MachineInt

/-!
# Message framing of the V2 server browser

A V2 client sends each message behind its length, two bytes in network order that count
themselves. `V2Peer::on_stream_read` keeps the bytes of an unfinished message and the number
of bytes that are missing, `m_read_remaining`, an `int`.

A chunk that ends between the two bytes of a length leaves the peer `Stuck`: `ReadShort`
returns 0 for a single byte, the two bytes of the length are subtracted all the same, and the
negative count never becomes the length of a message again. `v2_framing_iff` says that this
is the only way to lose a message.
-/

namespace OpenSpy

open Bytes MachineInt

/-- `MAX_INCOMING_BUFFER_SIZE`. -/
def maxIncomingBufferSize : Int := 1024

/-- What a read uses and changes of a V2 peer; `handled` lists the unread bytes of the buffers
given to `handle_packet` so far. -/
structure V2Peer where
  readBuffer : Buffer
  readRemaining : Int
  deleteFlag : Bool
  handled : List Bytes
  deriving DecidableEq, Repr

namespace V2Peer

/-- A peer that has read nothing. -/
def start : V2Peer := ⟨.empty, 0, false, []⟩

/-- The start of a message: the length is read and counted down by its own two bytes. -/
def readLength (peer : V2Peer) (buffer : Buffer) (numRead : Int) : V2Peer × Buffer × Int :=
  if peer.readRemaining = 0 then
    let (length, buffer) := buffer.readShort
    ({ peer with readBuffer := .empty, readRemaining := int32 (int32 (htons length) - 2) },
      buffer, numRead - 2)
  else (peer, buffer, numRead)

/-- The two branches that move bytes of the message from the chunk to the read buffer. -/
def readBody (peer : V2Peer) (buffer : Buffer) (numRead : Int) : V2Peer × Buffer × Int :=
  let wanted := sizeT peer.readRemaining
  if buffer.readRemaining ≥ wanted then
    ({ peer with
        readBuffer := peer.readBuffer.writeBuffer (buffer.unread.take wanted)
        readRemaining := 0 },
      buffer.skipRead wanted, numRead - peer.readRemaining)
  else if wanted ≥ buffer.readRemaining then
    ({ peer with
        readBuffer := peer.readBuffer.writeBuffer buffer.unread
        readRemaining := int32 (peer.readRemaining - buffer.readRemaining) },
      buffer.skipRead buffer.readRemaining, numRead - buffer.readRemaining)
  else (peer, buffer, numRead)

/-- The end of a message: it is handled and the read buffer is reset. -/
def handleComplete (peer : V2Peer) : V2Peer :=
  if peer.readRemaining = 0 then
    { peer with handled := peer.handled ++ [peer.readBuffer.unread], readBuffer := .empty }
  else peer

/-- The part of a loop round that follows the length check. -/
def readRound (peer : V2Peer) (buffer : Buffer) (numRead : Int) : V2Peer × Buffer × Int :=
  let (peer, buffer, numRead) := peer.readBody buffer numRead
  (peer.handleComplete, buffer, numRead)

/-- The loop of `V2Peer::on_stream_read`. A round uses up at least one of the `numRead` bytes,
so their number bounds the rounds. -/
def readLoop : Nat → V2Peer → Buffer → Int → V2Peer
  | 0, peer, _, _ => peer
  | fuel + 1, peer, buffer, numRead =>
      if numRead > 0 then
        let (peer, buffer, numRead) := peer.readLength buffer numRead
        if peer.readRemaining > maxIncomingBufferSize then { peer with deleteFlag := true }
        else
          let (peer, buffer, numRead) := peer.readRound buffer numRead
          readLoop fuel peer buffer numRead
      else peer

/-- `V2Peer::on_stream_read`. -/
def onStreamRead (peer : V2Peer) (chunk : Bytes) : V2Peer :=
  readLoop chunk.length peer (Buffer.empty.writeBuffer chunk) chunk.length

end V2Peer

/-- The length of a message on the wire: two bytes in network order that count themselves. -/
def v2Length (payload : Bytes) : Bytes :=
  [UInt8.ofNat ((payload.length + 2) / 256), UInt8.ofNat (payload.length + 2)]

/-- A message on the wire: its length and its payload. -/
def v2Message (payload : Bytes) : Bytes :=
  v2Length payload ++ payload

/-- A sequence of messages on the wire. -/
def v2Stream (payloads : List Bytes) : Bytes :=
  payloads.flatMap v2Message

@[simp] theorem v2_stream_cons (payload : Bytes) (payloads : List Bytes) :
    v2Stream (payload :: payloads) = v2Message payload ++ v2Stream payloads := by
  simp [v2Stream]

theorem v2_stream_append (payloads more : List Bytes) :
    v2Stream (payloads ++ more) = v2Stream payloads ++ v2Stream more := by
  simp [v2Stream]

theorem v2_message_length (payload : Bytes) :
    (v2Message payload).length = payload.length + 2 := by
  simp only [v2Message, v2Length, List.length_append, List.length_cons, List.length_nil]
  omega

theorem v2_stream_length_ge (payloads : List Bytes) :
    2 * payloads.length ≤ (v2Stream payloads).length := by
  induction payloads with
  | nil => simp
  | cons payload payloads ih =>
      simp only [v2_stream_cons, List.length_append, v2_message_length, List.length_cons]
      omega

/-- The peer reads the length that the client wrote, with its bytes swapped. -/
theorem read_short_length {payload : Bytes} (h : payload.length ≤ 1024) (read more : Bytes) :
    (Buffer.mk read (v2Length payload ++ more)).readShort =
      (htons (payload.length + 2), ⟨read ++ v2Length payload, more⟩) := by
  have hfirst : (UInt8.ofNat ((payload.length + 2) / 256)).toNat =
      (payload.length + 2) / 256 := by
    rw [UInt8.toNat_ofNat']
    omega
  have hsecond : (UInt8.ofNat (payload.length + 2)).toNat = (payload.length + 2) % 256 := by
    rw [UInt8.toNat_ofNat']
  simp only [v2Length, List.cons_append, List.nil_append, Buffer.readShort, Buffer.skipRead,
    hfirst, hsecond, htons, Prod.mk.injEq]
  exact ⟨by omega, by simp⟩

theorem htons_htons {value : Nat} (h : value < 65536) : htons (htons value) = value := by
  obtain ⟨high, low, hlow, rfl⟩ : ∃ high low, low < 256 ∧ value = high * 256 + low :=
    ⟨value / 256, value % 256, by omega, by omega⟩
  have hswap : ∀ a b, a < 256 → b < 256 → htons (a * 256 + b) = b * 256 + a := by
    intro a b ha hb
    unfold htons
    omega
  rw [hswap high low (by omega) hlow, hswap low high hlow (by omega)]

namespace V2Peer

/-- `rest` is what is still to come of the messages `todo`: either the peer is at the start of
the first, or it holds a part of its payload and counts the other. -/
def Expects (peer : V2Peer) (todo : List Bytes) (rest : Bytes) : Prop :=
  (peer.readRemaining = 0 ∧ rest = v2Stream todo) ∨
    ∃ missing later, missing ≠ [] ∧ peer.readRemaining = (missing.length : Int) ∧
      missing.length ≤ 1024 ∧
      todo = (peer.readBuffer.unread ++ missing) :: later ∧ rest = missing ++ v2Stream later

/-- A peer that read half a length: the count is not zero, and it stays congruent to minus two
and the number of bytes collected. -/
def Stuck (peer : V2Peer) : Prop :=
  peer.readRemaining ≠ 0 ∧
    peer.readRemaining ≡ -2 - peer.readBuffer.unread.length [ZMOD 2 ^ 32]

/-- A peer that has handled `done` and will not handle a message of legal size next: it is
stuck, or it has handled one that is too long. -/
def Lost (peer : V2Peer) (done : List Bytes) : Prop :=
  (peer.handled = done ∧ peer.Stuck) ∨
    ∃ long later, peer.handled = done ++ long :: later ∧ 1024 < long.length

/-- A message that is too long stays among the handled ones. -/
theorem Lost.of_append {peer peer' : V2Peer} {done more : List Bytes}
    (hlong : ∃ long later, peer.handled = done ++ long :: later ∧ 1024 < long.length)
    (happend : peer'.handled = peer.handled ++ more) : Lost peer' done := by
  obtain ⟨long, later, hhandled, hlen⟩ := hlong
  exact .inr ⟨long, later ++ more, by simp [happend, hhandled], hlen⟩

/-- The branch of a chunk that holds the rest of the message. -/
theorem read_body_enough {peer : V2Peer} {buffer : Buffer} (numRead : Int)
    (h : sizeT peer.readRemaining ≤ buffer.unread.length) :
    peer.readBody buffer numRead =
      ({ peer with
          readBuffer :=
            peer.readBuffer.writeBuffer (buffer.unread.take (sizeT peer.readRemaining))
          readRemaining := 0 },
        buffer.skipRead (sizeT peer.readRemaining), numRead - peer.readRemaining) := by
  simp [readBody, Buffer.readRemaining, h]

/-- The branch of a chunk that holds less than the rest of the message. -/
theorem read_body_short {peer : V2Peer} {buffer : Buffer} (numRead : Int)
    (h : buffer.unread.length < sizeT peer.readRemaining) :
    peer.readBody buffer numRead =
      ({ peer with
          readBuffer := peer.readBuffer.writeBuffer buffer.unread
          readRemaining := int32 (peer.readRemaining - buffer.unread.length) },
        buffer.skipRead buffer.unread.length, numRead - buffer.unread.length) := by
  simp [readBody, Buffer.readRemaining, Nat.not_le.mpr h, h.le]

/-- A round only adds to the handled messages. -/
theorem read_round_handled (peer : V2Peer) (buffer : Buffer) (numRead : Int) :
    ∃ more, (peer.readRound buffer numRead).1.handled = peer.handled ++ more := by
  have hbody : (peer.readBody buffer numRead).1.handled = peer.handled := by
    rcases Nat.lt_or_ge buffer.unread.length (sizeT peer.readRemaining) with h | h
    · rw [read_body_short numRead h]
    · rw [read_body_enough numRead h]
  simp only [readRound, handleComplete]
  split
  · exact ⟨_, by rw [hbody]⟩
  · exact ⟨[], by rw [hbody, List.append_nil]⟩

/-- A round that has all missing bytes handles the message. -/
theorem read_round_complete {peer : V2Peer} (read : Bytes) {missing : Bytes} (more : Bytes)
    (numRead : Int) (hremaining : peer.readRemaining = missing.length)
    (hlen : missing.length ≤ 1024) :
    peer.readRound ⟨read, missing ++ more⟩ numRead =
      ({ peer with
          readBuffer := .empty
          readRemaining := 0
          handled := peer.handled ++ [peer.readBuffer.unread ++ missing] },
        ⟨read ++ missing, more⟩, numRead - missing.length) := by
  have hwanted : sizeT peer.readRemaining = missing.length := by
    have := size_t_eq_self (show 0 ≤ peer.readRemaining by omega) (by omega)
    omega
  rw [readRound, read_body_enough _ (by simp [hwanted]), hwanted]
  simp [handleComplete, hremaining, Buffer.skipRead, Buffer.writeBuffer]

/-- A round that has a part of the missing bytes collects it. -/
theorem read_round_part {peer : V2Peer} (read : Bytes) {part missing : Bytes} (numRead : Int)
    (hremaining : peer.readRemaining = ((part ++ missing).length : Int))
    (hlen : (part ++ missing).length ≤ 1024) (hmissing : missing ≠ []) :
    peer.readRound ⟨read, part⟩ numRead =
      ({ peer with
          readBuffer := peer.readBuffer.writeBuffer part
          readRemaining := missing.length },
        ⟨read ++ part, []⟩, numRead - part.length) := by
  have hpos := List.length_pos_of_ne_nil hmissing
  rw [List.length_append] at hremaining hlen
  have hwanted : sizeT peer.readRemaining = part.length + missing.length := by
    have := size_t_eq_self (show 0 ≤ peer.readRemaining by omega) (by omega)
    omega
  have hcount : int32 (peer.readRemaining - part.length) = missing.length := by
    rw [int32_eq_self (by omega) (by omega)]
    omega
  rw [readRound, read_body_short _ (by simp only [hwanted]; omega)]
  simp [handleComplete, hcount, hmissing, Buffer.skipRead]

/-- A round of a stuck peer leaves it stuck, unless it completes a message of billions of
bytes. -/
theorem read_round_stuck {peer : V2Peer} (hstuck : peer.Stuck) (buffer : Buffer)
    (numRead : Int) : Lost (peer.readRound buffer numRead).1 peer.handled := by
  obtain ⟨-, hcount⟩ := hstuck
  have hlong : ∀ bytes : Bytes, (bytes.length : Int) ≡ -2 [ZMOD 2 ^ 32] →
      1024 < bytes.length := by
    intro bytes h
    unfold Int.ModEq at h
    omega
  unfold Int.ModEq at hcount
  rcases Nat.lt_or_ge buffer.unread.length (sizeT peer.readRemaining) with h | h
  · have hnext := int32_mod (peer.readRemaining - buffer.unread.length)
    unfold Int.ModEq at hnext
    rw [readRound, read_body_short numRead h]
    by_cases hzero : int32 (peer.readRemaining - buffer.unread.length) = 0
    · refine .inr ⟨_, [], by simp [handleComplete, hzero]; rfl, hlong _ ?_⟩
      simp only [Buffer.writeBuffer, List.length_append, Int.ModEq]
      omega
    · refine .inl ?_
      simp only [handleComplete, hzero, if_false, true_and]
      refine ⟨hzero, ?_⟩
      simp only [Buffer.writeBuffer, List.length_append, Int.ModEq]
      omega
  · -- The chunk holds as many bytes as the count says when it is read as a `size_t`.
    have hsize := size_t_mod peer.readRemaining
    unfold Int.ModEq at hsize
    have htake : (buffer.unread.take (sizeT peer.readRemaining)).length =
        sizeT peer.readRemaining := by simpa using h
    rw [readRound, read_body_enough numRead h]
    refine .inr ⟨_, [], by simp [handleComplete]; rfl, hlong _ ?_⟩
    simp only [Buffer.writeBuffer, List.length_append, htake, Int.ModEq]
    omega

/-- The loop does not recover a lost peer. -/
theorem read_loop_lost (fuel : Nat) {peer : V2Peer} {done : List Bytes} (hlost : Lost peer done)
    (buffer : Buffer) (numRead : Int) : Lost (readLoop fuel peer buffer numRead) done := by
  induction fuel generalizing peer buffer numRead with
  | zero => exact hlost
  | succ fuel ih =>
      rw [readLoop]
      split
      · rcases hlost with ⟨rfl, hstuck⟩ | hlong
        · have hlength : peer.readLength buffer numRead = (peer, buffer, numRead) := by
            simp [readLength, hstuck.1]
          rw [hlength]
          simp only
          split
          · exact .inl ⟨rfl, hstuck⟩
          · exact ih (read_round_stuck hstuck buffer numRead) _ _
        · have hlength : (peer.readLength buffer numRead).1.handled = peer.handled := by
            unfold readLength
            split <;> rfl
          simp only
          split
          · exact @Lost.of_append _ _ _ [] hlong (by simp [hlength])
          · obtain ⟨more, hmore⟩ := read_round_handled (peer.readLength buffer numRead).1
              (peer.readLength buffer numRead).2.1 (peer.readLength buffer numRead).2.2
            exact ih (Lost.of_append hlong (by rw [hmore, hlength])) _ _
      · exact hlost

/-- A peer at the start of a message reads a length that is there. -/
theorem read_length_message {peer : V2Peer} (hready : peer.readRemaining = 0)
    {payload : Bytes} (hlen : payload.length ≤ 1024) (read more : Bytes) (numRead : Int) :
    peer.readLength ⟨read, v2Length payload ++ more⟩ numRead =
      ({ peer with readBuffer := .empty, readRemaining := payload.length },
        ⟨read ++ v2Length payload, more⟩, numRead - 2) := by
  have hlength : int32 (int32 (htons (htons (payload.length + 2))) - 2) = payload.length := by
    have hself : int32 ((payload.length + 2 : Nat) : Int) = (payload.length + 2 : Nat) :=
      int32_eq_self (by omega) (by omega)
    rw [htons_htons (by omega), hself, int32_eq_self (by omega) (by omega)]
    omega
  simp [readLength, hready, read_short_length hlen, hlength]

/-- A peer at the start of a message is stuck by a single byte. -/
theorem read_length_half {peer : V2Peer} (hready : peer.readRemaining = 0)
    (read : Bytes) (byte : UInt8) (numRead : Int) :
    peer.readLength ⟨read, [byte]⟩ numRead =
        ({ peer with readBuffer := .empty, readRemaining := -2 }, ⟨read, [byte]⟩, numRead - 2) ∧
      Stuck { peer with readBuffer := .empty, readRemaining := -2 } := by
  have hlength : int32 (int32 (htons 0) - 2) = -2 := by decide
  constructor
  · simp only [readLength, hready, if_true, Buffer.readShort, hlength]
  · exact ⟨by simp, by simp [Buffer.empty, Int.ModEq]⟩

/-- The round after the length check, on track: it handles the message that is begun, or
collects all there is of it. `rest` is what the round leaves unread. -/
theorem read_round_expects {peer : V2Peer} (read : Bytes) {unread missing more : Bytes}
    {later : List Bytes} (hremaining : peer.readRemaining = missing.length)
    (hlen : missing.length ≤ 1024) (hrest : unread ++ more = missing ++ v2Stream later) :
    ∃ done left read' rest,
      (peer.readBuffer.unread ++ missing) :: later = done ++ left ∧
        rest.length ≤ unread.length - missing.length ∧
        let next := peer.readRound ⟨read, unread⟩ unread.length
        next.1.handled = peer.handled ++ done ∧ next.1.Expects left (rest ++ more) ∧
          next.2 = (⟨read', rest⟩, (rest.length : Int)) := by
  rcases List.append_eq_append_iff.mp hrest with ⟨part, hmissing, hmore⟩ | ⟨rest, hunread, hlater⟩
  · by_cases hpart : part = []
    · -- The chunk ends with the message.
      obtain rfl : missing = unread := by simpa [hpart] using hmissing
      have hcomplete := read_round_complete read [] missing.length hremaining hlen
      rw [List.append_nil] at hcomplete
      refine ⟨[peer.readBuffer.unread ++ missing], later, read ++ missing, [], rfl, by simp, ?_⟩
      simp only [hcomplete]
      exact ⟨trivial, .inl ⟨rfl, by simpa [hpart] using hmore⟩, by simp⟩
    · subst hmissing
      have hunfinished := read_round_part read unread.length hremaining hlen hpart
      refine ⟨[], _, read ++ unread, [], rfl, by simp, ?_⟩
      simp only [hunfinished]
      refine ⟨by simp, .inr ⟨part, later, hpart, rfl, ?_, ?_, by simpa using hmore⟩, by simp⟩
      · simp only [List.length_append] at hlen
        omega
      · simp [Buffer.writeBuffer]
  · subst hunread
    have hcomplete := read_round_complete read rest (missing ++ rest).length hremaining hlen
    refine ⟨[peer.readBuffer.unread ++ missing], later, read ++ missing, rest, rfl, by simp, ?_⟩
    simp only [hcomplete]
    exact ⟨trivial, .inl ⟨rfl, hlater.symm⟩, by simp⟩

end V2Peer

/-- The first of the two bytes of a length has been read, and the second has not: `todo` is
what is still to be handled, and `more` is what is still to be read. -/
def HalfLength (todo : List Bytes) (more : Bytes) : Prop :=
  todo ≠ [] ∧ (v2Stream todo).length = more.length + 1

namespace V2Peer

/-- One read of a peer that is on track: the loop handles the messages that the chunk
completes, or the chunk ends within a length and the peer is lost. -/
theorem read_loop_expects (fuel : Nat) {peer : V2Peer} {read unread more : Bytes}
    {todo : List Bytes} (hlen : ∀ payload ∈ todo, payload.length ≤ 1024)
    (hexpects : peer.Expects todo (unread ++ more)) (hfuel : unread.length ≤ fuel) :
    ∃ done left, todo = done ++ left ∧
      let peer' := readLoop fuel peer ⟨read, unread⟩ unread.length
      (peer'.handled = peer.handled ++ done ∧ peer'.Expects left more) ∨
        (HalfLength left more ∧ peer'.Lost (peer.handled ++ done)) := by
  induction fuel generalizing peer read unread todo with
  | zero =>
      obtain rfl : unread = [] := by simpa using hfuel
      exact ⟨[], todo, rfl, .inl ⟨by simp [readLoop], hexpects⟩⟩
  | succ fuel ih =>
      by_cases hempty : unread = []
      · subst hempty
        exact ⟨[], todo, rfl, .inl ⟨by simp [readLoop], by simpa [readLoop] using hexpects⟩⟩
      have hpos := List.length_pos_of_ne_nil hempty
      -- What is left to do after the length check, from a peer that counts `missing` down.
      have hround : ∀ {current : V2Peer} {read unread missing : Bytes} {later : List Bytes},
          current.handled = peer.handled → current.readRemaining = missing.length →
          (∀ payload ∈ (current.readBuffer.unread ++ missing) :: later,
            payload.length ≤ 1024) →
          unread ++ more = missing ++ v2Stream later →
          unread.length - missing.length ≤ fuel →
          ∃ done left, (current.readBuffer.unread ++ missing) :: later = done ++ left ∧
            let next := current.readRound ⟨read, unread⟩ unread.length
            let peer' := readLoop fuel next.1 next.2.1 next.2.2
            (peer'.handled = peer.handled ++ done ∧ peer'.Expects left more) ∨
              (HalfLength left more ∧ peer'.Lost (peer.handled ++ done)) := by
        intro current read unread missing later hhandled hremaining hall hrest hle
        have hmissing : missing.length ≤ 1024 := by
          have := hall _ (List.mem_cons_self)
          simp only [List.length_append] at this
          omega
        obtain ⟨done, left, read', rest, hsplit, hshort, hdone, hnext, hbuffer⟩ :=
          read_round_expects read hremaining hmissing hrest
        obtain ⟨done', left', hsplit', hloop⟩ := @ih _ read' rest _
          (fun payload hmem => hall payload (by rw [hsplit]; exact List.mem_append_right _ hmem))
          hnext (by omega)
        refine ⟨done ++ done', left', by rw [hsplit, hsplit', List.append_assoc], ?_⟩
        simp only [hbuffer, ← List.append_assoc]
        rwa [hdone, hhandled] at hloop
      rcases hexpects with ⟨hready, hrest⟩ | ⟨missing, later, hne, hremaining, hmissing, rfl, hrest⟩
      · cases todo with
        | nil => simp [v2Stream, hempty] at hrest
        | cons payload later =>
            have hpayload := hlen payload (by simp)
            rw [readLoop, if_pos (by omega)]
            cases unread with
            | nil => exact absurd rfl hempty
            | cons first unread =>
                cases unread with
                | nil =>
                    -- Half of the length: the peer is stuck from here on.
                    obtain ⟨hread, hstuck⟩ := read_length_half hready read first 1
                    refine ⟨[], payload :: later, rfl, .inr ⟨⟨by simp, ?_⟩, ?_⟩⟩
                    · rw [← hrest]
                      simp
                    · simp only [List.length_singleton, Nat.cast_one, hread,
                        List.append_nil]
                      rw [if_neg (by decide)]
                      exact read_loop_lost fuel (read_round_stuck hstuck _ _) _ _
                | cons second unread =>
                    have hstream : [first, second] ++ (unread ++ more) =
                        v2Length payload ++ (payload ++ v2Stream later) := by
                      simpa [v2Message] using hrest
                    obtain ⟨hlength, hbody⟩ := List.append_inj hstream rfl
                    have hchunk : first :: second :: unread = v2Length payload ++ unread := by
                      rw [← hlength]
                      rfl
                    have hread := read_length_message hready hpayload read unread
                      ((first :: second :: unread).length : Int)
                    have hnum : ((first :: second :: unread).length : Int) - 2 =
                        (unread.length : Int) := by
                      simp only [List.length_cons]
                      omega
                    rw [hnum, ← hchunk] at hread
                    simp only [hread]
                    rw [if_neg (by unfold maxIncomingBufferSize; omega)]
                    simp only [List.length_cons] at hfuel
                    exact @hround { peer with
                        readBuffer := .empty, readRemaining := payload.length } _ _ _ _
                      rfl rfl hlen hbody (by omega)
      · have hnonzero : peer.readRemaining ≠ 0 := by
          have := List.length_pos_of_ne_nil hne
          omega
        have hskip : peer.readLength ⟨read, unread⟩ unread.length =
            (peer, ⟨read, unread⟩, (unread.length : Int)) := by
          simp [readLength, hnonzero]
        have := List.length_pos_of_ne_nil hne
        rw [readLoop, if_pos (by omega), hskip]
        simp only
        rw [if_neg (by unfold maxIncomingBufferSize; omega)]
        exact hround rfl hremaining hlen hrest (by omega)

/-- One read of a peer that is on track. -/
theorem on_stream_read_expects {peer : V2Peer} {chunk more : Bytes} {todo : List Bytes}
    (hlen : ∀ payload ∈ todo, payload.length ≤ 1024)
    (hexpects : peer.Expects todo (chunk ++ more)) :
    ∃ done left, todo = done ++ left ∧
      (((peer.onStreamRead chunk).handled = peer.handled ++ done ∧
          (peer.onStreamRead chunk).Expects left more) ∨
        (HalfLength left more ∧ (peer.onStreamRead chunk).Lost (peer.handled ++ done))) :=
  read_loop_expects chunk.length hlen hexpects le_rfl

/-- What is still to come for a peer on track does not start within a length. -/
theorem Expects.not_half_length {peer : V2Peer} {done left : List Bytes} {more : Bytes}
    (hexpects : peer.Expects left more) {sent todo : List Bytes}
    (hsplit : done ++ left = sent ++ todo) : ¬ HalfLength todo more := by
  rintro ⟨hne, hhalf⟩
  have hlong : ∀ payloads : List Bytes, payloads ≠ [] → 2 ≤ (v2Stream payloads).length := by
    intro payloads h
    have := v2_stream_length_ge payloads
    have := List.length_pos_of_ne_nil h
    omega
  -- Compare the lengths of the two ends of the message list.
  rcases List.append_eq_append_iff.mp hsplit with ⟨c, -, rfl⟩ | ⟨c, -, rfl⟩
  · rcases hexpects with ⟨-, rfl⟩ | ⟨missing, later, hmissing, -, -, hleft, rfl⟩
    · simp only [v2_stream_append, List.length_append] at hhalf
      omega
    · cases c with
      | nil =>
          rw [List.nil_append] at hleft
          simp only [hleft, v2_stream_cons, List.length_append, v2_message_length] at hhalf
          omega
      | cons first c =>
          have hlater : later = c ++ todo := (List.cons.inj hleft).2.symm
          simp only [hlater, v2_stream_append, List.length_append] at hhalf
          omega
  · rcases hexpects with ⟨-, rfl⟩ | ⟨missing, later, hmissing, -, -, hleft, rfl⟩
    · simp only [v2_stream_append, List.length_append] at hhalf
      by_cases hc : c = []
      · simp [hc, v2Stream] at hhalf
      · have := hlong c hc
        omega
    · simp only [hleft, v2_stream_append, v2_stream_cons, List.length_append,
        v2_message_length] at hhalf
      omega

/-- Reads do not recover a lost peer. -/
theorem reads_lost {peer : V2Peer} {done : List Bytes} (hlost : peer.Lost done)
    (chunks : List Bytes) : (chunks.foldl onStreamRead peer).Lost done := by
  induction chunks generalizing peer with
  | nil => exact hlost
  | cons chunk rest ih => exact ih (read_loop_lost _ hlost _ _)

/-- A lost peer does not handle messages of legal size only. -/
theorem Lost.handled_ne {peer : V2Peer} {done left : List Bytes} (hlost : peer.Lost done)
    (hleft : left ≠ []) (hlen : ∀ payload ∈ left, payload.length ≤ 1024) :
    peer.handled ≠ done ++ left := by
  rcases hlost with ⟨hhandled, -⟩ | ⟨long, later, hhandled, hlong⟩
  · intro h
    rw [hhandled] at h
    exact hleft (List.self_eq_append_right.mp h)
  · intro h
    rw [hhandled] at h
    have := hlen long (by rw [← List.append_cancel_left h]; simp)
    omega

/-- Reads of a peer that is on track: it handles all messages, and no chunk ends within a
length, or one does and the peer is lost. -/
theorem reads_expects {peer : V2Peer} {chunks todo : List Bytes}
    (hlen : ∀ payload ∈ todo, payload.length ≤ 1024)
    (hexpects : peer.Expects todo chunks.flatten) :
    let peer' := chunks.foldl onStreamRead peer
    (peer'.handled = peer.handled ++ todo ∧
        ∀ before after sent left, chunks = before ++ after → peer.handled ++ todo = sent ++ left →
          ¬ HalfLength left after.flatten) ∨
      ((∃ before after sent left, chunks = before ++ after ∧ todo = sent ++ left ∧
          HalfLength left after.flatten) ∧
        ∃ done left, left ≠ [] ∧ todo = done ++ left ∧ peer'.Lost (peer.handled ++ done)) := by
  induction chunks generalizing peer todo with
  | nil =>
      have htodo : todo = [] := by
        rcases hexpects with ⟨-, hrest⟩ | ⟨missing, later, hmissing, -, -, -, hrest⟩
        · have hge := v2_stream_length_ge todo
          rw [← hrest, List.flatten_nil, List.length_nil] at hge
          exact List.eq_nil_of_length_eq_zero (by omega)
        · exact absurd (List.append_eq_nil_iff.mp hrest.symm).1 hmissing
      refine .inl ⟨by simp [htodo], fun before after sent left hcut hsplit => ?_⟩
      obtain ⟨-, rfl⟩ := List.append_eq_nil_iff.mp hcut.symm
      exact hexpects.not_half_length hsplit
  | cons chunk rest ih =>
      obtain ⟨done, left, rfl, hread⟩ := on_stream_read_expects hlen hexpects
      have hleft : ∀ payload ∈ left, payload.length ≤ 1024 :=
        fun payload hmem => hlen payload (List.mem_append_right _ hmem)
      rcases hread with ⟨hhandled, hnext⟩ | ⟨hhalf, hlost⟩
      · rcases ih hleft hnext with ⟨hall, hcuts⟩ | ⟨⟨before, after, sent, later, rfl, rfl, hhalf⟩,
          found, lost, hne, hfound, hlost⟩
        · refine .inl ⟨by simpa [hhandled] using hall, ?_⟩
          intro before after sent later hcut hsplit
          cases before with
          | nil =>
              obtain rfl : chunk :: rest = after := hcut
              exact hexpects.not_half_length hsplit
          | cons first before =>
              obtain ⟨-, rfl⟩ := List.cons.inj hcut
              exact hcuts before after sent later rfl (by rw [hhandled, ← hsplit]; simp)
        · refine .inr ⟨⟨chunk :: before, after, done ++ sent, later, by simp, by simp, hhalf⟩,
            done ++ found, lost, hne, by rw [hfound, List.append_assoc], ?_⟩
          rw [hhandled, List.append_assoc] at hlost
          exact hlost
      · exact .inr ⟨⟨[chunk], rest, done, left, rfl, rfl, hhalf⟩, done, left, hhalf.1, rfl,
          reads_lost hlost rest⟩

end V2Peer

/-- Let messages of legal size be sent and cut into chunks. The peer handles exactly their
payloads, in order, if and only if no chunk ends between the two bytes of a length. -/
theorem v2_framing_iff {payloads chunks : List Bytes}
    (hlen : ∀ payload ∈ payloads, payload.length ≤ 1024)
    (hstream : chunks.flatten = v2Stream payloads) :
    (chunks.foldl V2Peer.onStreamRead V2Peer.start).handled = payloads ↔
      ∀ sent payload later before after, payloads = sent ++ payload :: later →
        chunks = before ++ after → before.flatten.length ≠ (v2Stream sent).length + 1 := by
  -- A length is cut as seen from the bytes before if and only if it is from those after.
  have hends : ∀ {sent left before after : List Bytes}, payloads = sent ++ left →
      chunks = before ++ after →
      before.flatten.length + after.flatten.length =
        (v2Stream sent).length + (v2Stream left).length := by
    intro sent left before after hsplit hcut
    have := congrArg List.length hstream
    rwa [hsplit, hcut, List.flatten_append, v2_stream_append, List.length_append,
      List.length_append] at this
  have hstart : V2Peer.start.Expects payloads chunks.flatten := .inl ⟨rfl, hstream⟩
  rcases V2Peer.reads_expects hlen hstart with ⟨hall, hcuts⟩ |
    ⟨⟨before, after, sent, left, hcut, hsplit, hne, hhalf⟩, done, lost, hlost, hdone, hpeer⟩
  · refine ⟨fun _ => ?_, fun _ => hall⟩
    intro sent payload later before after hsplit hcut hlength
    refine hcuts before after sent (payload :: later) hcut hsplit ⟨by simp, ?_⟩
    have := hends hsplit hcut
    omega
  · constructor
    · intro h
      refine absurd h ?_
      have := hpeer.handled_ne hlost fun payload hmem => hlen payload (by simp [hdone, hmem])
      rwa [List.append_assoc, ← hdone] at this
    · intro h
      obtain ⟨payload, later, rfl⟩ := List.exists_cons_of_ne_nil hne
      have := hends hsplit hcut
      exact absurd (by omega) (h sent payload later before after hsplit hcut)

/-- A chunk may end anywhere else: here within a payload. -/
theorem v2_framing_two_chunks :
    ([[0, 4, 1], [2]].foldl V2Peer.onStreamRead V2Peer.start).handled = [[1, 2]] := by
  refine (@v2_framing_iff [[1, 2]] [[0, 4, 1], [2]] (by decide) (by decide)).mpr ?_
  intro sent payload later before after hsplit hcut
  obtain rfl : sent = [] := by
    cases sent with
    | nil => rfl
    | cons first sent => simp at hsplit
  match before, hcut with
  | [], _ => simp [v2Stream]
  | [first], hcut =>
      obtain ⟨rfl, -⟩ := List.cons.inj hcut
      simp [v2Stream]
  | first :: second :: before, hcut =>
      obtain ⟨rfl, hrest⟩ := List.cons.inj hcut
      obtain ⟨rfl, -⟩ := List.cons.inj hrest
      simp [v2Stream]

/-- A chunk that is the first byte of a length: the keep-alive message is never handled. -/
theorem v2_framing_loses_message :
    ¬ ∀ payloads chunks : List Bytes, (∀ payload ∈ payloads, payload.length ≤ 1024) →
      (∀ chunk ∈ chunks, chunk ≠ []) → chunks.flatten = v2Stream payloads →
      (chunks.foldl V2Peer.onStreamRead V2Peer.start).handled = payloads := by
  intro h
  exact absurd (h [[3]] [[0], [3, 3]] (by decide) (by decide) (by decide)) (by decide)

end OpenSpy
