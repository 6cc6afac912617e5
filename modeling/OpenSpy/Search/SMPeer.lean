import OpenSpy.GP.KVProcessor

/-!
# Reads of the search peer, and the framing of GP and search

`SM::Peer::on_stream_read` runs the same loop as the GP processor on its own accumulator and
calls `handle_packet` on each partial string. `SM.handled_iff` and `KVProcessor.output_iff`
say exactly which segmentations of a message stream the two peers survive: the pending bytes
must not shrink from one cut to the next, because `last_pos` is a position in the joined text
but is compared with the size of the new chunk.
-/

namespace OpenSpy

open Delimited Bytes

namespace SM

/-- `MAX_UNPROCESSED_DATA` of `SMPeer.h`. -/
def maxUnprocessedData : Nat := 5000

/-- What a read uses and changes of a search peer; `handled` lists the arguments of
`handle_packet` so far. -/
structure Peer where
  kvAccumulator : Bytes
  deleteFlag : Bool
  handled : List Bytes
  deriving DecidableEq, Repr

/-- A peer that has read nothing. -/
def Peer.start : Peer := ⟨[], false, []⟩

/-- `SM::Peer::on_stream_read`. -/
def Peer.onStreamRead (peer : Peer) (chunk : Bytes) : Peer :=
  let read := readFinal peer.kvAccumulator chunk
  { kvAccumulator := read.2
    deleteFlag := if read.2.length > maxUnprocessedData then true else peer.deleteFlag
    handled := peer.handled ++ read.1 }

/-- Consecutive reads are those of the shared loop. -/
theorem Peer.reads_eq (peer : Peer) (chunks : List Bytes) :
    chunks.foldl onStreamRead peer =
      let read := readFinalAll maxUnprocessedData peer.kvAccumulator chunks
      { kvAccumulator := read.2.2
        deleteFlag := !read.2.1 || peer.deleteFlag
        handled := peer.handled ++ read.1 } := by
  induction chunks generalizing peer with
  | nil => simp [readFinalAll]
  | cons chunk rest ih =>
      simp only [List.foldl_cons, ih, readFinalAll, onStreamRead, List.append_assoc,
        Peer.mk.injEq, true_and, and_true]
      split
      · next hover => simp [decide_eq_true hover]
      · next hover => simp only [decide_eq_false hover, Bool.not_false, Bool.true_and]

end SM

/-- Let messages without `\final\` be sent, each followed by `\final\`, and cut into chunks
with at most `MAX_UNPROCESSED_DATA` bytes pending at every cut. The GP processor outputs
exactly the messages, returning true throughout, and the search peer handles exactly the
messages, not deleting itself, if and only if no message ends in `\final` and the pending
bytes are none or have grown at every cut. -/
theorem final_framing_iff {ms chunks : List Bytes}
    (hmessages : ∀ m ∈ ms, ¬ finalMarker <:+: m)
    (hstream : chunks.flatten = stream finalMarker ms)
    (hlimit : ∀ before after, chunks = before ++ after →
      (pending finalMarker before.flatten).length ≤ 5000) :
    (((KVProcessor.deserializeAll [] chunks).1 = ms ∧
        (KVProcessor.deserializeAll [] chunks).2.1 = true) ↔
      (∀ m ∈ ms, ¬ ascii "\\final" <:+ m) ∧ TailGrows chunks) ∧
    (((chunks.foldl SM.Peer.onStreamRead SM.Peer.start).handled = ms ∧
        (chunks.foldl SM.Peer.onStreamRead SM.Peer.start).deleteFlag = false) ↔
      (∀ m ∈ ms, ¬ ascii "\\final" <:+ m) ∧ TailGrows chunks) := by
  have hread := read_final_all_iff hmessages hstream hlimit
  refine ⟨?_, ?_⟩
  · rw [KVProcessor.deserialize_all_eq]
    exact hread
  · rw [SM.Peer.reads_eq, ← hread]
    simp [SM.Peer.start, SM.maxUnprocessedData]

/-- What is pending is part of the stream. -/
theorem pending_le_of_length {chunks : List Bytes} {n : Nat} (h : chunks.flatten.length ≤ n) :
    ∀ before after, chunks = before ++ after →
      (pending finalMarker before.flatten).length ≤ n := by
  rintro before after rfl
  have hle := pending_length_le final_marker_ne_nil before.flatten
  simp only [List.flatten_append, List.length_append] at h
  omega

/-- A keep-alive and half of a logout, then the other half. -/
theorem final_framing_two_chunks :
    (KVProcessor.deserializeAll [] [ascii "\\ka\\\\final\\\\log", ascii "out\\\\final\\"]).1 =
      [ascii "\\ka\\", ascii "\\logout\\"] := by
  have hgrows : TailGrows [ascii "\\ka\\\\final\\\\log", ascii "out\\\\final\\"] := by
    rw [← kept_iff_tail_grows]
    simp only [Kept]
    decide
  exact ((@final_framing_iff [ascii "\\ka\\", ascii "\\logout\\"]
    [ascii "\\ka\\\\final\\\\log", ascii "out\\\\final\\"] (by decide) (by decide)
    (pending_le_of_length (by decide))).1.mpr ⟨by decide, hgrows⟩).1

/-- Both peers lose `\b`: the two bytes that wait for their terminator are no more than the
two that waited before. -/
theorem final_framing_loses_tail :
    ¬ ∀ ms chunks : List Bytes, (∀ m ∈ ms, ¬ finalMarker <:+: m) → (∀ c ∈ chunks, c ≠ []) →
      chunks.flatten = stream finalMarker ms →
      (∀ before after, chunks = before ++ after →
        (pending finalMarker before.flatten).length ≤ 5000) →
      (KVProcessor.deserializeAll [] chunks).1 = ms ∧
        (chunks.foldl SM.Peer.onStreamRead SM.Peer.start).handled = ms := by
  intro h
  have hboth := h [ascii "\\a", ascii "\\b"]
    [ascii "\\a", ascii "\\final\\\\b", ascii "\\final\\"] (by decide) (by decide) (by decide)
    (pending_le_of_length (by decide))
  exact absurd hboth.1 (by decide)

end OpenSpy
