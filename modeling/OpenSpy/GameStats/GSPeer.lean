import OpenSpy.GameStats.HalfFinal

/-!
# The gamestats peer

A gamestats peer decodes what it reads with `gamespy3dxor`, splits it at `\final\` and hands
the pieces to `handle_packet`. `SendPacket` encodes replies with the same member, and so with
the same key position, `m_xor_index`. Replies that `handle_packet` sends while a chunk is split
are sent after the chunk was decoded, so they count as sent behind the read.

`gamestats_stream_iff` says when a client's messages arrive: the tail must survive the reads,
as for the other readers of `\final\`, and each chunk must be decoded with the key position
and the memory that the client meant.
-/

namespace OpenSpy.GS

open Delimited Bytes

/-- `MAX_UNPROCESSED_DATA` of `GSPeer.h`. -/
def maxUnprocessedData : Nat := 500000

/-- What reads and replies use and change of a gamestats peer; `handled` lists the arguments of
`handle_packet` so far. -/
structure Peer where
  kvAccumulator : Bytes
  xorIndex : Nat
  deleteFlag : Bool
  handled : List Bytes
  deriving DecidableEq, Repr

/-- A peer that has read nothing. -/
def Peer.start : Peer := ⟨[], 0, false, []⟩

/-- `GS::Peer::on_stream_read`, with the memory behind the chunk. -/
def Peer.onStreamRead (peer : Peer) (chunk beyond : Bytes) : Peer :=
  let decoded := gamespy3dxor beyond peer.xorIndex chunk
  let read := readFinal peer.kvAccumulator decoded.1
  { kvAccumulator := read.2
    xorIndex := decoded.2
    deleteFlag := if read.2.length > maxUnprocessedData then true else peer.deleteFlag
    handled := peer.handled ++ read.1 }

/-- `GS::Peer::SendPacket`, which appends the terminator in every call: the bytes sent and the
peer after it. -/
def Peer.sendPacket (peer : Peer) (buffer beyond : Bytes) : Bytes × Peer :=
  let sent := gamespy3dxor beyond peer.xorIndex (buffer ++ finalMarker)
  (sent.1, { peer with xorIndex := sent.2 })

/-- What happens on a connection. -/
inductive Event where
  | read (chunk : Bytes)
  | send (reply : Bytes)
  deriving DecidableEq, Repr

/-- One event, with the memory behind its buffer. -/
def Peer.step (peer : Peer) : Event × Bytes → Peer
  | (.read chunk, beyond) => peer.onStreamRead chunk beyond
  | (.send reply, beyond) => (peer.sendPacket reply beyond).2

/-- The chunks that are read. -/
def chunksOf : List Event → List Bytes
  | [] => []
  | .read chunk :: events => chunk :: chunksOf events
  | .send _ :: events => chunksOf events

/-- What a client sends that starts at a key position: it encodes each message together with
its terminator, from where its own key is. -/
def clientStream : Nat → List Bytes → Bytes
  | _, [] => []
  | gs, message :: messages =>
      let encoded := gamespy3dxor [] gs (message ++ finalMarker)
      encoded.1 ++ clientStream encoded.2 messages

/-- When a reply is followed by a read that begins with a byte of a message, not with the
terminator, a multiple of nine bytes of that message has been read before, and the reply does
not end in `\final`. `received` is what was read before the events. -/
def KeyInStep (received : Bytes) (events : List Event) : Prop :=
  ∀ before reply chunk after, events = before ++ .send reply :: .read chunk :: after →
    ¬ finalMarker <+: (chunk :: chunksOf after).flatten →
      (pending finalMarker (received ++ (chunksOf before).flatten)).length % 9 = 0 ∧
        ¬ ascii "\\final" <:+ pending finalMarker reply

/-- The reads of a run from a key position: each chunk and what it is decoded to. -/
def decodedReads : Nat → List (Event × Bytes) → List (Bytes × Bytes)
  | _, [] => []
  | gs, (.read chunk, beyond) :: run =>
      let decoded := gamespy3dxor beyond gs chunk
      (chunk, decoded.1) :: decodedReads decoded.2 run
  | gs, (.send reply, beyond) :: run =>
      decodedReads (gamespy3dxor beyond gs (reply ++ finalMarker)).2 run

/-- The key position after a run. -/
def indexAfter : Nat → List (Event × Bytes) → Nat
  | gs, [] => gs
  | gs, (.read chunk, beyond) :: run => indexAfter (gamespy3dxor beyond gs chunk).2 run
  | gs, (.send reply, beyond) :: run =>
      indexAfter (gamespy3dxor beyond gs (reply ++ finalMarker)).2 run

theorem chunks_of_append (events more : List Event) :
    chunksOf (events ++ more) = chunksOf events ++ chunksOf more := by
  induction events with
  | nil => rfl
  | cons event events ih => cases event <;> simp [chunksOf, ih]

theorem decoded_reads_append (gs : Nat) (run more : List (Event × Bytes)) :
    decodedReads gs (run ++ more) =
      decodedReads gs run ++ decodedReads (indexAfter gs run) more := by
  induction run generalizing gs with
  | nil => rfl
  | cons step run ih =>
      obtain ⟨event, beyond⟩ := step
      cases event <;> simp [decodedReads, indexAfter, ih]

theorem index_after_lt {gs : Nat} (hgs : gs < 9) (run : List (Event × Bytes)) :
    indexAfter gs run < 9 := by
  induction run generalizing gs with
  | nil => exact hgs
  | cons step run ih =>
      obtain ⟨event, beyond⟩ := step
      cases event <;> exact ih (gamespy3dxor_index beyond hgs _)

/-- The chunks of the reads are those of the events. -/
theorem decoded_reads_chunks (gs : Nat) (run : List (Event × Bytes)) :
    (decodedReads gs run).map Prod.fst = chunksOf (run.map Prod.fst) := by
  induction run generalizing gs with
  | nil => rfl
  | cons step run ih =>
      obtain ⟨event, beyond⟩ := step
      cases event <;> simp [decodedReads, chunksOf, ih]

/-- Decoding keeps the length of each chunk. -/
theorem decoded_reads_length (gs : Nat) (run : List (Event × Bytes)) :
    ∀ read ∈ decodedReads gs run, read.2.length = read.1.length := by
  induction run generalizing gs with
  | nil => simp [decodedReads]
  | cons step run ih =>
      obtain ⟨event, beyond⟩ := step
      cases event with
      | read chunk =>
          simp only [decodedReads, List.mem_cons, forall_eq_or_imp]
          exact ⟨by simp, ih _⟩
      | send reply => exact ih _

/-- All decoded bytes of a run. -/
def decodedBytes (gs : Nat) (run : List (Event × Bytes)) : Bytes :=
  ((decodedReads gs run).map Prod.snd).flatten

theorem decoded_bytes_length (gs : Nat) (run : List (Event × Bytes)) :
    (decodedBytes gs run).length = (chunksOf (run.map Prod.fst)).flatten.length := by
  rw [decodedBytes, ← decoded_reads_chunks gs run, List.length_flatten, List.length_flatten,
    List.map_map, List.map_map]
  exact congrArg List.sum (List.map_congr_left (decoded_reads_length gs run))

/-- What is handled is what the splitting loop makes of the decoded chunks. -/
theorem handled_eq (peer : Peer) (run : List (Event × Bytes)) :
    (run.foldl Peer.step peer).handled = peer.handled ++
      (feedAll finalMarker keepsTail peer.kvAccumulator
        ((decodedReads peer.xorIndex run).map Prod.snd)).1 := by
  induction run generalizing peer with
  | nil => simp [decodedReads, feedAll]
  | cons step run ih =>
      obtain ⟨event, beyond⟩ := step
      cases event with
      | read chunk =>
          rw [List.foldl_cons, ih]
          simp [Peer.step, Peer.onStreamRead, decodedReads, feedAll, read_final_eq]
      | send reply =>
          rw [List.foldl_cons, ih]
          rfl

/-- The stream of a client whose messages are framed. -/
theorem client_stream_framed {ms : List Bytes} (h : ∀ m ∈ ms, Framed finalMarker m) :
    clientStream 0 ms = stream finalMarker (ms.map (xorFrom 0)) := by
  induction ms with
  | nil => rfl
  | cons m ms ih =>
      have hcut := @gamespy3dxor_cut [] m [] 0 (by omega) (h m (by simp))
      rw [List.append_nil] at hcut
      simp [clientStream, hcut, ih fun m hm => h m (by simp [hm])]

theorem client_stream_length (gs : Nat) (ms : List Bytes) :
    (clientStream gs ms).length = (stream finalMarker ms).length := by
  induction ms generalizing gs with
  | nil => rfl
  | cons m ms ih =>
      simp only [clientStream, List.length_append, gamespy3dxor_length, ih, stream_cons]

/-- Encoded messages are framed, and as long as the messages. -/
theorem encoded_framed {ms : List Bytes} (h : ∀ m ∈ ms, ∀ byte ∈ m, printable byte) :
    ∀ code ∈ ms.map (xorFrom 0), Framed finalMarker code := by
  intro code hcode
  obtain ⟨m, hm, rfl⟩ := List.mem_map.mp hcode
  exact xor_from_framed 0 (h m hm)

/-- A chunk in the middle of a stream, behind the pending bytes `text` of the messages `todo`:
it is decoded to what the client meant, and the key position is right again behind it. -/
theorem decode_chunk {text chunk rest beyond : Bytes} {gs : Nat} {todo : List Bytes}
    (hgs : gs < 9) (hprint : ∀ m ∈ todo, ∀ byte ∈ m, printable byte)
    (hclean : findFirst finalMarker text = none) (hhalf : ¬ EndsInHalfFinal text)
    (hchunk : ¬ EndsInHalfFinal (pending finalMarker chunk))
    (hstream : text ++ chunk ++ rest = stream finalMarker (todo.map (xorFrom 0)))
    (hready : (chunk ≠ [] ∧ finalMarker <+: chunk ++ rest) ∨ gs = text.length % 9) :
    (gamespy3dxor beyond gs chunk).2 = (pending finalMarker (text ++ chunk)).length % 9 ∧
      ∃ done left, todo = done ++ left ∧
        xorFrom 0 text ++ (gamespy3dxor beyond gs chunk).1 =
          stream finalMarker done ++ xorFrom 0 (pending finalMarker (text ++ chunk)) ∧
        pending finalMarker (text ++ chunk) ++ rest =
          stream finalMarker (left.map (xorFrom 0)) := by
  induction chunk using frames_rec final_marker_ne_nil generalizing text gs todo with
  | clean chunk hnone =>
      rw [pending, frames_clean hnone] at hchunk
      have hindex : chunk ≠ [] → gs = text.length % 9 := by
        intro hne
        exact hready.resolve_left fun h =>
          no_final_starts hnone hchunk List.suffix_rfl hne rest h.2
      have hdecode := @gamespy3dxor_clean beyond chunk gs hgs fun u hu hne =>
        no_final_starts hnone hchunk hu hne beyond
      have hpending : pending finalMarker (text ++ chunk) = text ++ chunk := by
        rw [pending, frames_clean (clean_append_pending hclean hhalf hnone)]
      rw [hdecode, hpending]
      refine ⟨?_, [], todo, rfl, ?_, hstream⟩
      · rcases hready with ⟨hne, -⟩ | hgs'
        · rw [hindex hne, List.length_append, Nat.mod_add_mod]
        · rw [hgs', List.length_append, Nat.mod_add_mod]
      · by_cases hne : chunk = []
        · simp [hne, xorFrom]
        · simp [hindex hne, xor_from_append, xor_from_mod]
  | cut f more hf ih =>
      have hframed := framed_append_pending hclean hhalf hf
      have hjoin : ∀ tail, text ++ (f ++ finalMarker ++ more) ++ tail =
          (text ++ f) ++ finalMarker ++ (more ++ tail) := by simp
      have hpending : pending finalMarker (text ++ (f ++ finalMarker ++ more)) =
          pending finalMarker more := by
        rw [← List.append_nil (text ++ _), hjoin, pending,
          frames_cut final_marker_ne_nil hframed, List.append_nil, pending]
      have hpart : pending finalMarker (f ++ finalMarker ++ more) = pending finalMarker more := by
        rw [pending, frames_cut final_marker_ne_nil hf, pending]
      rw [hjoin] at hstream
      obtain ⟨later, hmessages, hrest⟩ := framed_stream_head final_marker_ne_nil hframed
        (encoded_framed hprint) hstream
      obtain ⟨m, todo, rfl, hm, rfl⟩ := List.map_eq_cons_iff.mp hmessages
      have hindex : f ≠ [] → gs = text.length % 9 := by
        intro hne
        refine hready.resolve_left fun h => framed_iff.mp hf f List.suffix_rfl hne ?_
        have hcut : f ++ finalMarker <+: f ++ finalMarker ++ more ++ rest := by simp
        exact List.prefix_of_prefix_length_le h.2 hcut (by simp)
      have hplain : xorFrom 0 text ++ xorFrom gs f = m := by
        rw [← xor_from_xor_from 0 m, hm, xor_from_append]
        by_cases hne : f = []
        · simp [hne, xorFrom]
        · simp [hindex hne, xor_from_mod]
      obtain ⟨hnext, done, left, hsplit, hdecoded, hleft⟩ :=
        @ih [] 0 todo (by omega) (fun m hmem => hprint m (by simp [hmem])) (by decide)
          (by rintro ⟨u, hne, hu, -⟩; exact hne (List.suffix_nil.mp hu))
          (by rwa [hpart] at hchunk) (by simpa using hrest) (.inr rfl)
      rw [List.nil_append] at hnext hdecoded hleft
      rw [gamespy3dxor_cut hgs hf, hpending]
      refine ⟨hnext, m :: done, left, by simp [hsplit], ?_, hleft⟩
      rw [xorFrom, List.nil_append] at hdecoded
      simp only [hdecoded, stream_cons, ← hplain, List.append_assoc]

/-- Reads of chunks without half terminators, with the key in step, decode what the client
sent. -/
theorem decoded_bytes_eq {run : List (Event × Bytes)} {gs : Nat} {text : Bytes}
    {todo : List Bytes} (hgs : gs < 9) (hprint : ∀ m ∈ todo, ∀ byte ∈ m, printable byte)
    (hclean : findFirst finalMarker text = none) (hhalf : ¬ EndsInHalfFinal text)
    (hchunks : ∀ chunk ∈ chunksOf (run.map Prod.fst),
      chunk ≠ [] ∧ ¬ EndsInHalfFinal (pending finalMarker chunk))
    (hstream : text ++ (chunksOf (run.map Prod.fst)).flatten =
      stream finalMarker (todo.map (xorFrom 0)))
    (hkey : KeyInStep text (run.map Prod.fst))
    (hready : ∀ chunk events, run.map Prod.fst = .read chunk :: events →
      finalMarker <+: (chunk :: chunksOf events).flatten ∨ gs = text.length % 9) :
    xorFrom 0 text ++ decodedBytes gs run = stream finalMarker todo := by
  induction run generalizing gs text todo with
  | nil =>
      -- All messages are complete, so nothing is pending and none is left.
      rw [List.map_nil, chunksOf, List.flatten_nil, List.append_nil] at hstream
      have hframes := frames_stream final_marker_ne_nil (encoded_framed hprint)
      rw [← hstream, frames_clean hclean, Prod.mk.injEq] at hframes
      obtain rfl : todo = [] := List.map_eq_nil_iff.mp hframes.1.symm
      rw [hframes.2]
      rfl
  | cons step run ih =>
      obtain ⟨event, beyond⟩ := step
      cases event with
      | read chunk =>
          simp only [List.map_cons, chunksOf, List.flatten_cons, List.mem_cons,
            forall_eq_or_imp] at hchunks hstream hready
          have hbegin := hready chunk (run.map Prod.fst) rfl
          obtain ⟨hindex, done, left, rfl, hdecoded, hleft⟩ :=
            @decode_chunk text chunk (chunksOf (run.map Prod.fst)).flatten beyond gs todo
              hgs hprint hclean hhalf hchunks.1.2 (by simpa using hstream)
              (hbegin.imp_left fun h => ⟨hchunks.1.1, h⟩)
          have hrest := ih (gamespy3dxor_index beyond hgs chunk)
            (fun m hm => hprint m (List.mem_append_right _ hm))
            (pending_clean final_marker_ne_nil (text ++ chunk))
            (not_half_final_append hclean hhalf hchunks.1.2) hchunks.2 hleft
            (fun before reply next after hsplit hfirst => by
              have := hkey (.read chunk :: before) reply next after (by simp [hsplit]) hfirst
              rw [chunksOf, List.flatten_cons, ← List.append_assoc,
                pending_append final_marker_ne_nil] at this
              exact this)
            (fun _ _ _ => .inr hindex)
          have hbytes : decodedBytes gs ((.read chunk, beyond) :: run) =
              (gamespy3dxor beyond gs chunk).1 ++
                decodedBytes (gamespy3dxor beyond gs chunk).2 run := rfl
          rw [hbytes, ← List.append_assoc, hdecoded, List.append_assoc, hrest, stream_append]
      | send reply =>
          refine ih (gamespy3dxor_index beyond hgs (reply ++ finalMarker)) hprint hclean hhalf
            hchunks hstream ?_ ?_
          · intro before other next after hsplit hfirst
            exact hkey (.send reply :: before) other next after
              (by rw [List.map_cons, hsplit]; rfl) hfirst
          · intro chunk events hevents
            by_cases hfirst : finalMarker <+: (chunk :: chunksOf events).flatten
            · exact .inl hfirst
            · obtain ⟨hnine, hreply⟩ := hkey [] reply chunk events (by simp [hevents]) hfirst
              rw [chunksOf, List.flatten_nil, List.append_nil, pending, frames_clean hclean]
                at hnine
              exact .inr (by rw [reply_index hgs beyond hreply, hnine])

/-- The next byte of a stream, where it belongs to a message: what the client meant is that
byte under the key at the number of bytes pending. -/
theorem next_plain_byte {sent : Bytes} {ms : List Bytes}
    (hprint : ∀ m ∈ ms, ∀ byte ∈ m, printable byte)
    (hhalf : ¬ EndsInHalfFinal (pending finalMarker sent)) {byte : UInt8} {rest plain more : Bytes}
    (hstream : sent ++ byte :: rest = stream finalMarker (ms.map (xorFrom 0)))
    (hplain : plain ++ more = stream finalMarker ms) (hlen : plain.length = sent.length)
    (hfirst : ¬ finalMarker <+: byte :: rest) :
    more.head? = some (byte ^^^ keyByte ((pending finalMarker sent).length % 9)) := by
  induction sent using frames_rec final_marker_ne_nil generalizing ms plain with
  | clean sent hclean =>
      rw [pending, frames_clean hclean] at hhalf ⊢
      cases ms with
      | nil => simp at hstream
      | cons m ms =>
          rw [List.map_cons, stream_cons, List.append_assoc] at hstream
          rcases List.append_eq_append_iff.mp hstream with ⟨v, hm, hrest⟩ | ⟨v, hsent, hrest⟩
          · cases v with
            | nil => exact absurd ⟨_, hrest.symm⟩ hfirst
            | cons first v =>
                obtain ⟨rfl, -⟩ := List.cons.inj hrest
                have hkey := congrArg (xorFrom 0) hm
                rw [xor_from_xor_from, xor_from_append, xorFrom] at hkey
                rw [hkey, stream_cons, List.append_assoc, List.append_assoc] at hplain
                have hmore := (List.append_inj hplain (by simp [hlen])).2
                rw [hmore, List.cons_append, List.head?_cons, Nat.zero_add]
          · -- The bytes behind the message begin a terminator, so they are all of it or none.
            by_cases hv : v = []
            · subst hv
              rw [List.nil_append] at hrest
              exact absurd ⟨_, hrest⟩ hfirst
            · refine absurd (List.prefix_append finalMarker _)
                (hrest ▸ no_final_starts hclean hhalf ⟨_, hsent.symm⟩ hv (byte :: rest))
  | cut f more' hf ih =>
      rw [List.append_assoc] at hstream
      obtain ⟨later, hmessages, hrest⟩ := framed_stream_head final_marker_ne_nil hf
        (encoded_framed hprint) hstream
      obtain ⟨m, ms, rfl, hm, rfl⟩ := List.map_eq_cons_iff.mp hmessages
      have hpending : pending finalMarker (f ++ finalMarker ++ more') =
          pending finalMarker more' := by
        rw [pending, frames_cut final_marker_ne_nil hf, pending]
      rw [hpending] at hhalf ⊢
      have hmlen : m.length = f.length := by rw [← hm, xor_from_length]
      obtain ⟨plain, rfl⟩ : m ++ finalMarker <+: plain := by
        refine List.prefix_of_prefix_length_le ⟨_, (stream_cons _ _ _).symm.trans hplain.symm⟩
          (List.prefix_append plain more) ?_
        simp only [List.length_append] at hlen ⊢
        omega
      rw [stream_cons, List.append_assoc, List.append_cancel_left_eq] at hplain
      refine ih (fun m hmem => hprint m (by simp [hmem])) hhalf hrest hplain ?_
      simp only [List.length_append] at hlen
      omega

/-- A run in which nothing that counts is behind the buffers. -/
def plainRun (events : List Event) : List (Event × Bytes) :=
  events.map fun event => (event, [])

@[simp] theorem plain_run_events (events : List Event) :
    (plainRun events).map Prod.fst = events := by
  rw [plainRun, List.map_map]
  exact List.map_id events

theorem decoded_bytes_append (gs : Nat) (run more : List (Event × Bytes)) :
    decodedBytes gs (run ++ more) =
      decodedBytes gs run ++ decodedBytes (indexAfter gs run) more := by
  simp [decodedBytes, decoded_reads_append]

/-- A chunk is read somewhere in the run. -/
theorem read_of_chunk {chunk : Bytes} {events : List Event} (h : chunk ∈ chunksOf events) :
    ∃ before after, events = before ++ .read chunk :: after := by
  induction events with
  | nil => simp [chunksOf] at h
  | cons event events ih =>
      cases event with
      | read first =>
          rcases List.mem_cons.mp h with rfl | h
          · exact ⟨[], events, rfl⟩
          · obtain ⟨before, after, rfl⟩ := ih h
            exact ⟨.read first :: before, after, rfl⟩
      | send reply =>
          obtain ⟨before, after, rfl⟩ := ih h
          exact ⟨.send reply :: before, after, rfl⟩

/-- The client's stream is decoded to its messages, whatever is behind the buffers, if and only
if no chunk ends in half a terminator and the key is in step. -/
theorem decoded_bytes_iff {ms : List Bytes} {events : List Event}
    (hprint : ∀ m ∈ ms, ∀ byte ∈ m, printable byte)
    (hchunks : ∀ chunk ∈ chunksOf events, chunk ≠ [])
    (hstream : (chunksOf events).flatten = stream finalMarker (ms.map (xorFrom 0))) :
    (∀ run : List (Event × Bytes), run.map Prod.fst = events →
      decodedBytes 0 run = stream finalMarker ms) ↔
      (∀ chunk ∈ chunksOf events, ¬ EndsInHalfFinal (pending finalMarker chunk)) ∧
        KeyInStep [] events := by
  have hnil : ¬ EndsInHalfFinal [] := fun ⟨u, hne, hu, _⟩ => hne (List.suffix_nil.mp hu)
  constructor
  · intro hall
    have hhalf : ∀ chunk ∈ chunksOf events, ¬ EndsInHalfFinal (pending finalMarker chunk) := by
      intro chunk hmem hend
      obtain ⟨before, after, rfl⟩ := read_of_chunk hmem
      have hgs := index_after_lt (show 0 < 9 by omega) (plainRun before)
      obtain ⟨beyond, hdiffer⟩ := half_final_differs hgs hend
      -- Two runs that differ only in the memory behind the chunk decode the same.
      have hrun : ∀ memory, decodedBytes 0 (plainRun before) ++
          ((gamespy3dxor memory (indexAfter 0 (plainRun before)) chunk).1 ++
            decodedBytes (gamespy3dxor memory (indexAfter 0 (plainRun before)) chunk).2
              (plainRun after)) = stream finalMarker ms := by
        intro memory
        rw [← hall (plainRun before ++ (.read chunk, memory) :: plainRun after) (by simp),
          decoded_bytes_append]
        rfl
      have hsame := List.append_cancel_left ((hrun beyond).trans (hrun []).symm)
      exact hdiffer (List.append_inj hsame (by simp)).1
    refine ⟨hhalf, fun before reply chunk after hsplit hfirst => ?_⟩
    subst hsplit
    have hgs := index_after_lt (show 0 < 9 by omega) (plainRun before)
    have hbefore : ∀ chunk ∈ chunksOf before, ¬ EndsInHalfFinal (pending finalMarker chunk) :=
      fun chunk hmem => hhalf chunk (by simp [chunks_of_append, hmem])
    obtain ⟨byte, chunk, rfl⟩ := List.exists_cons_of_ne_nil
      (hchunks chunk (by simp [chunks_of_append, chunksOf]))
    -- The first byte shows the key position that the reply left, whatever it is.
    have hposition : ∀ memory,
        (gamespy3dxor memory (indexAfter 0 (plainRun before)) (reply ++ finalMarker)).2 =
          (pending finalMarker (chunksOf before).flatten).length % 9 := by
      intro memory
      have hrun := hall (plainRun before ++ (.send reply, memory) :: (.read (byte :: chunk), []) ::
        plainRun after) (by simp)
      have hindex := gamespy3dxor_index memory hgs (reply ++ finalMarker)
      have hhere : ¬ finalMarker <+: byte :: chunk ++ [] := by
        intro hocc
        rw [List.append_nil] at hocc
        exact hfirst (hocc.trans (List.prefix_append (byte :: chunk) _))
      have hbytes : (chunksOf before).flatten ++ byte :: (chunk ++ (chunksOf after).flatten) =
          stream finalMarker (ms.map (xorFrom 0)) := by
        simpa [chunks_of_append, chunksOf] using hstream
      have hnext := next_plain_byte hprint (not_half_final_flatten hbefore) hbytes
        ((decoded_bytes_append _ _ _).symm.trans hrun)
        (by rw [decoded_bytes_length, plain_run_events])
        (by simpa using hfirst)
      have hread : ∀ gs run, decodedBytes gs ((.send reply, memory) ::
          (.read (byte :: chunk), []) :: run) =
          (gamespy3dxor [] (gamespy3dxor memory gs (reply ++ finalMarker)).2 (byte :: chunk)).1 ++
            decodedBytes (gamespy3dxor [] (gamespy3dxor memory gs (reply ++ finalMarker)).2
              (byte :: chunk)).2 run := fun _ _ => rfl
      rw [hread, gamespy3dxor_key _ hhere, List.cons_append, List.head?_cons,
        Option.some.injEq, UInt8.xor_right_inj] at hnext
      exact key_byte_inj hindex (Nat.mod_lt _ (by omega)) hnext
    by_cases hreply : ascii "\\final" <:+ pending finalMarker reply
    · obtain ⟨hsix, hzero⟩ := reply_index_final hgs hreply
      rw [hposition] at hsix hzero
      omega
    · have hzero := hposition []
      rw [reply_index hgs [] hreply] at hzero
      exact ⟨by simpa using hzero.symm, hreply⟩
  · rintro ⟨hhalf, hkey⟩ run rfl
    have hbytes := @decoded_bytes_eq run 0 [] ms (by omega) hprint
      (by decide) hnil (fun chunk hmem => ⟨hchunks chunk hmem, hhalf chunk hmem⟩) hstream hkey
      (fun _ _ _ => .inr rfl)
    simpa [xorFrom] using hbytes

/-- `TailGrows` along a list that the chunks are computed from. -/
theorem tail_grows_map {α : Type*} (chunk : α → Bytes) (reads : List α) :
    TailGrows (reads.map chunk) ↔
      ∀ before read after, reads = before ++ read :: after →
        pending finalMarker ((before ++ [read]).map chunk).flatten = [] ∨
          (pending finalMarker (before.map chunk).flatten).length <
            (pending finalMarker ((before ++ [read]).map chunk).flatten).length := by
  constructor
  · rintro h before read after rfl
    simpa using h (before.map chunk) (chunk read) (after.map chunk) (by simp)
  · intro h before read after hsplit
    obtain ⟨front, back, rfl, rfl, hback⟩ := List.map_eq_append_iff.mp hsplit
    obtain ⟨step, back, rfl, rfl, rfl⟩ := List.map_eq_cons_iff.mp hback
    simpa using h front step back rfl

/-- The pending bytes of what was read grow as those of what it is decoded to. -/
theorem tail_grows_decoded {ms : List Bytes} {reads : List (Bytes × Bytes)}
    (hprint : ∀ m ∈ ms, ∀ byte ∈ m, printable byte) (hframed : ∀ m ∈ ms, Framed finalMarker m)
    (hlen : ∀ read ∈ reads, read.2.length = read.1.length)
    (hsent : (reads.map Prod.fst).flatten = stream finalMarker (ms.map (xorFrom 0)))
    (hplain : (reads.map Prod.snd).flatten = stream finalMarker ms) :
    TailGrows (reads.map Prod.snd) ↔ TailGrows (reads.map Prod.fst) := by
  have hsame : ∀ before after, reads = before ++ after →
      (pending finalMarker (before.map Prod.snd).flatten).length =
        (pending finalMarker (before.map Prod.fst).flatten).length := by
    rintro before after rfl
    rw [List.map_append, List.flatten_append] at hsent hplain
    refine pending_length_congr final_marker_ne_nil ?_ hframed (encoded_framed hprint) hplain
      hsent ?_
    · exact List.forall₂_map_right_iff.mpr
        (List.forall₂_same.mpr fun m _ => (xor_from_length 0 m).symm)
    · rw [List.length_flatten, List.length_flatten, List.map_map, List.map_map]
      exact congrArg List.sum
        (List.map_congr_left fun read hmem => hlen read (List.mem_append_left _ hmem))
  rw [tail_grows_map, tail_grows_map]
  refine forall₄_congr fun before read after hsplit => ?_
  have hnow := hsame before (read :: after) hsplit
  have hnext := hsame (before ++ [read]) after (by rw [hsplit]; simp)
  rw [← List.length_eq_zero_iff, hnext, hnow, List.length_eq_zero_iff]

/-- Let a client send printable messages, each encoded with its terminator from the client's
own key position, and let the peer read the stream in any chunks and send any replies in
between. It handles exactly the messages, whatever the memory behind its buffers holds, if and
only if no message ends in `\final`, the pending bytes are none or have grown at every cut, no
chunk ends in half a terminator, and the key is in step. -/
theorem gamestats_stream_iff {ms : List Bytes} {events : List Event}
    (hprint : ∀ m ∈ ms, ∀ byte ∈ m, printable byte)
    (hmessages : ∀ m ∈ ms, ¬ finalMarker <:+: m)
    (hchunks : ∀ chunk ∈ chunksOf events, chunk ≠ [])
    (hstream : (chunksOf events).flatten = clientStream 0 ms) :
    (∀ run : List (Event × Bytes), run.map Prod.fst = events →
      (run.foldl Peer.step Peer.start).handled = ms) ↔
      (∀ m ∈ ms, ¬ ascii "\\final" <:+ m) ∧ TailGrows (chunksOf events) ∧
        (∀ chunk ∈ chunksOf events, ¬ EndsInHalfFinal (pending finalMarker chunk)) ∧
        KeyInStep [] events := by
  have hends : (∀ m ∈ ms, Framed finalMarker m) ↔ ∀ m ∈ ms, ¬ ascii "\\final" <:+ m :=
    forall₂_congr fun m hm => framed_final_iff (hmessages m hm)
  rw [← hends]
  have hrun : ∀ run : List (Event × Bytes), run.map Prod.fst = events →
      ((run.foldl Peer.step Peer.start).handled = ms ↔
        decodedBytes 0 run = stream finalMarker ms ∧ (∀ m ∈ ms, Framed finalMarker m) ∧
          TailGrows ((decodedReads 0 run).map Prod.snd)) := by
    rintro run rfl
    rw [handled_eq, ← kept_iff_tail_grows]
    refine feed_all_delivers_length final_marker_ne_nil ?_
    exact (decoded_bytes_length 0 run).trans (by rw [hstream, client_stream_length])
  by_cases hframed : ∀ m ∈ ms, Framed finalMarker m
  · rw [client_stream_framed hframed] at hstream
    have hgrows : ∀ run : List (Event × Bytes), run.map Prod.fst = events →
        decodedBytes 0 run = stream finalMarker ms →
        (TailGrows ((decodedReads 0 run).map Prod.snd) ↔ TailGrows (chunksOf events)) := by
      rintro run rfl hbytes
      have hfirst := decoded_reads_chunks 0 run
      rw [← hfirst] at hstream ⊢
      exact tail_grows_decoded hprint hframed (decoded_reads_length 0 run) hstream hbytes
    rw [and_iff_right hframed, ← decoded_bytes_iff hprint hchunks hstream]
    constructor
    · intro h
      have hplain := (hrun (plainRun events) (by simp)).mp (h _ (by simp))
      exact ⟨(hgrows _ (by simp) hplain.1).mp hplain.2.2,
        fun run hevents => ((hrun run hevents).mp (h run hevents)).1⟩
    · rintro ⟨htail, hbytes⟩ run hevents
      exact (hrun run hevents).mpr
        ⟨hbytes run hevents, hframed, (hgrows run hevents (hbytes run hevents)).mpr htail⟩
  · refine iff_of_false (fun h => hframed ?_) fun h => hframed h.1
    exact ((hrun (plainRun events) (by simp)).mp (h _ (by simp))).2.1

/-- A keep-alive is text. -/
theorem keep_alive_printable : ∀ m ∈ [ascii "\\ka\\"], ∀ byte ∈ m, printable byte := by
  rw [List.forall_mem_singleton]
  exact List.all_eq_true.mp (by decide)

/-- A challenge is sent, then a keep-alive arrives in one chunk. -/
theorem gamestats_stream_keep_alive :
    ([(.send (ascii "\\lc\\1"), []), (.read (clientStream 0 [ascii "\\ka\\"]), [])].foldl
      Peer.step Peer.start).handled = [ascii "\\ka\\"] := by
  have hpending : pending finalMarker (clientStream 0 [ascii "\\ka\\"]) = [] := by decide
  refine (@gamestats_stream_iff [ascii "\\ka\\"]
    [.send (ascii "\\lc\\1"), .read (clientStream 0 [ascii "\\ka\\"])]
    keep_alive_printable (by decide) (by decide) (by decide)).mpr ⟨by decide, ?_, ?_, ?_⟩ _ rfl
  · rw [← kept_iff_tail_grows]
    exact ⟨.inl (by simpa using hpending), trivial⟩
  · intro chunk hmem
    obtain rfl : chunk = clientStream 0 [ascii "\\ka\\"] := by simpa [chunksOf] using hmem
    rw [hpending]
    exact fun ⟨u, hne, hu, _⟩ => hne (List.suffix_nil.mp hu)
  · intro before reply chunk after hsplit _
    cases before with
    | nil =>
        obtain ⟨hreply, -⟩ := List.cons.inj hsplit
        cases hreply
        decide
    | cons first before =>
        have := congrArg List.length (List.cons.inj hsplit).2
        simp at this
        omega

/-- A keep-alive of the server between the two halves of a message restarts the key. -/
theorem gamestats_stream_loses_key :
    ¬ ∀ (ms : List Bytes) (events : List Event), (∀ m ∈ ms, ∀ byte ∈ m, printable byte) →
      (∀ m ∈ ms, ¬ finalMarker <:+: m) → (∀ chunk ∈ chunksOf events, chunk ≠ []) →
      (chunksOf events).flatten = clientStream 0 ms →
      ∀ run : List (Event × Bytes), run.map Prod.fst = events →
        (run.foldl Peer.step Peer.start).handled = ms := by
  intro h
  have hrun := h [ascii "\\ka\\"]
    [.read [27, 10], .send (ascii "\\ka\\"), .read ([12, 57] ++ finalMarker)]
    keep_alive_printable (by decide) (by decide) (by decide)
    (plainRun [.read [27, 10], .send (ascii "\\ka\\"), .read ([12, 57] ++ finalMarker)]) rfl
  exact absurd hrun (by decide)

end OpenSpy.GS
