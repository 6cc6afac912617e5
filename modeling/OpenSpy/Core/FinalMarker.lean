import OpenSpy.Library.Ascii
import OpenSpy.Library.Reassembly

/-!
# The `\final\` terminator

GP, search and gamestats clients end each message with `\final\`. Their peers share one
loop: join the accumulator and the chunk, look for the terminator from `last_pos` on, hand
over the text before it and move `last_pos` past it. `splitFinal` is that loop with its
positions. `split_final_eq` says that it cuts the joined text as `Delimited.frames` does.
-/

namespace OpenSpy

open Delimited Bytes

/-- The text `"\\final\\"`. -/
def finalMarker : Bytes :=
  ascii "\\final\\"

/-- `recv_buf.find("\\final\\", last_pos)`. -/
def findFinal (recvBuf : Bytes) (lastPos : Nat) : Option Nat :=
  (findFirst finalMarker (recvBuf.drop lastPos)).map (lastPos + ·)

/-- The loop over the joined text: the partial strings in order and the final `last_pos`.
Each round moves `last_pos` by at least seven, so the text bounds the number of rounds. -/
def splitFinal (recvBuf : Bytes) : Nat → Nat → List Bytes × Nat
  | 0, lastPos => ([], lastPos)
  | fuel + 1, lastPos =>
      match findFinal recvBuf lastPos with
      | none => ([], lastPos)
      | some finalPos =>
          let rest := splitFinal recvBuf fuel (finalPos + 7)
          (substr recvBuf lastPos (finalPos - lastPos) :: rest.1, rest.2)

theorem final_marker_ne_nil : finalMarker ≠ [] := by decide

theorem final_marker_length : finalMarker.length = 7 := by decide

/-- The loop cuts what is left of the text, and stops where the pending bytes start. -/
theorem split_final_with (recvBuf : Bytes) (fuel lastPos : Nat) :
    (splitFinal recvBuf fuel lastPos).1 =
        (framesWith finalMarker fuel (recvBuf.drop lastPos)).1 ∧
      recvBuf.drop (splitFinal recvBuf fuel lastPos).2 =
        (framesWith finalMarker fuel (recvBuf.drop lastPos)).2 := by
  induction fuel generalizing lastPos with
  | zero => exact ⟨rfl, rfl⟩
  | succ fuel ih =>
      cases hfind : findFirst finalMarker (recvBuf.drop lastPos) with
      | none => simp [splitFinal, findFinal, framesWith, hfind]
      | some n =>
          have hnext : (recvBuf.drop lastPos).drop (n + finalMarker.length) =
              recvBuf.drop (lastPos + n + 7) := by
            rw [List.drop_drop, final_marker_length, Nat.add_assoc]
          have hpiece : lastPos + n - lastPos = n := by omega
          simp [splitFinal, findFinal, framesWith, hfind, hnext, hpiece, substr, ih]

/-- The loop started at the front delivers the complete messages of the joined text, and
its last position is where the pending bytes start. -/
theorem split_final_eq (recvBuf : Bytes) :
    (splitFinal recvBuf recvBuf.length 0).1 = (frames finalMarker recvBuf).1 ∧
      recvBuf.drop (splitFinal recvBuf recvBuf.length 0).2 = pending finalMarker recvBuf := by
  simpa [frames, pending] using split_final_with recvBuf recvBuf.length 0

/-- The loop never moves past the end of the text. -/
theorem split_final_le (recvBuf : Bytes) (fuel lastPos : Nat) (h : lastPos ≤ recvBuf.length) :
    (splitFinal recvBuf fuel lastPos).2 ≤ recvBuf.length := by
  induction fuel generalizing lastPos with
  | zero => exact h
  | succ fuel ih =>
      cases hfind : findFirst finalMarker (recvBuf.drop lastPos) with
      | none => simpa [splitFinal, findFinal, hfind] using h
      | some n =>
          have hsplit := congrArg List.length (find_first_split hfind).1
          simp only [List.length_append, List.length_drop, List.length_take,
            final_marker_length] at hsplit
          simpa [splitFinal, findFinal, hfind] using ih (lastPos + n + 7) (by omega)

/-- The last position is the length of the text without its pending bytes. -/
theorem split_final_pos (recvBuf : Bytes) :
    (splitFinal recvBuf recvBuf.length 0).2 + (pending finalMarker recvBuf).length =
      recvBuf.length := by
  have hle := split_final_le recvBuf recvBuf.length 0 (by omega)
  have hlen := congrArg List.length (split_final_eq recvBuf).2
  rw [List.length_drop] at hlen
  omega

/-- A terminator that starts before another one and overlaps it shares one byte with it. -/
theorem final_overlap {u : Bytes} (hne : u ≠ []) (hshort : u.length < 7)
    (hocc : finalMarker <+: u ++ finalMarker) : u = ascii "\\final" := by
  have hmark : finalMarker = [92, 102, 105, 110, 97, 108, 92] := by decide
  have htext : ascii "\\final" = [92, 102, 105, 110, 97, 108] := by decide
  rw [hmark] at hocc
  rw [htext]
  rcases u with _ | ⟨a, _ | ⟨b, _ | ⟨c, _ | ⟨e, _ | ⟨f, _ | ⟨g, _ | ⟨i, u⟩⟩⟩⟩⟩⟩⟩
  all_goals simp only [List.length_cons, List.length_nil] at hshort
  all_goals try omega
  all_goals simp [List.cons_prefix_cons] at hocc hne
  obtain ⟨rfl, rfl, rfl, rfl, rfl, rfl⟩ := hocc
  rfl

/-- A message without the terminator is cut off exactly unless it ends in `\final`, whose
last byte the terminator would lend. -/
theorem framed_final_iff {m : Bytes} (hm : ¬ finalMarker <:+: m) :
    Framed finalMarker m ↔ ¬ ascii "\\final" <:+ m := by
  rw [framed_iff]
  constructor
  · intro h hsuffix
    exact h _ hsuffix (by decide) (by decide)
  · intro h u hu hne hocc
    by_cases hshort : u.length < 7
    · exact h (final_overlap hne hshort hocc ▸ hu)
    · have hinside : finalMarker <+: u :=
        List.prefix_of_prefix_length_le hocc (List.prefix_append _ _)
          (by rw [final_marker_length]; omega)
      exact hm (hinside.isInfix.trans hu.isInfix)

/-- One read of a peer: the joined text is cut, and what is left over is put back into the
accumulator if `last_pos` is smaller than the size of the new chunk alone. -/
def readFinal (accumulator chunk : Bytes) : List Bytes × Bytes :=
  let recvBuf := accumulator ++ chunk
  let cut := splitFinal recvBuf recvBuf.length 0
  (cut.1, if cut.2 < chunk.length then recvBuf.drop cut.2 else [])

/-- Consecutive reads from an accumulator: all partial strings in order, whether no read
left more than `limit` bytes unprocessed, and the last accumulator. -/
def readFinalAll (limit : Nat) : Bytes → List Bytes → List Bytes × Bool × Bytes
  | accumulator, [] => ([], true, accumulator)
  | accumulator, chunk :: rest =>
      let now := readFinal accumulator chunk
      let later := readFinalAll limit now.2 rest
      (now.1 ++ later.1, !(now.2.length > limit) && later.2.1, later.2.2)

/-- What the comparison of `last_pos` with the chunk's size comes to: the pending bytes are
kept if there are more of them than the accumulator held. -/
def keepsTail (accumulator _chunk tail : Bytes) : Bool :=
  accumulator.length < tail.length

theorem read_final_eq (accumulator chunk : Bytes) :
    readFinal accumulator chunk = feed finalMarker keepsTail accumulator chunk := by
  obtain ⟨hcut, htail⟩ := split_final_eq (accumulator ++ chunk)
  have hpos := split_final_pos (accumulator ++ chunk)
  have hkeep : (splitFinal (accumulator ++ chunk) (accumulator ++ chunk).length 0).2 <
      chunk.length ↔ accumulator.length < (pending finalMarker (accumulator ++ chunk)).length := by
    simp only [List.length_append] at hpos ⊢
    omega
  simp only [readFinal, feed, keepsTail, hcut, htail, hkeep, decide_eq_true_eq]
  rfl

/-- Partial strings and accumulator are those of the reader that keeps growing tails only. -/
theorem read_final_all_eq (limit : Nat) (accumulator : Bytes) (chunks : List Bytes) :
    ((readFinalAll limit accumulator chunks).1, (readFinalAll limit accumulator chunks).2.2) =
      feedAll finalMarker keepsTail accumulator chunks := by
  induction chunks generalizing accumulator with
  | nil => rfl
  | cons chunk rest ih => simp only [readFinalAll, feedAll, read_final_eq, ← ih]

/-- While the pending bytes are kept and stay within the limit, so does the accumulator. -/
theorem read_final_all_within {limit : Nat} {accumulator : Bytes} {chunks : List Bytes}
    (hkept : Kept finalMarker keepsTail accumulator chunks)
    (hlimit : ∀ before after, chunks = before ++ after →
      (pending finalMarker (accumulator ++ before.flatten)).length ≤ limit) :
    (readFinalAll limit accumulator chunks).2.1 = true := by
  induction chunks generalizing accumulator with
  | nil => rfl
  | cons chunk rest ih =>
      obtain ⟨hnow, hrest⟩ := hkept
      have hread : readFinal accumulator chunk = frames finalMarker (accumulator ++ chunk) := by
        rw [read_final_eq, feed_kept hnow]
      have hfirst : (frames finalMarker (accumulator ++ chunk)).2.length ≤ limit := by
        simpa [pending] using hlimit [chunk] rest rfl
      have hlater := ih hrest fun before after h => by
        rw [← pending_append final_marker_ne_nil]
        simpa using hlimit (chunk :: before) after (by simp [h])
      rw [pending, ← hread] at hlater
      simp only [readFinalAll, Bool.and_eq_true]
      exact ⟨by simpa [hread] using hfirst, hlater⟩

/-- At every cut of the stream the bytes after the last complete terminator are none, or
more than at the cut before. -/
def TailGrows (chunks : List Bytes) : Prop :=
  ∀ before chunk after, chunks = before ++ chunk :: after →
    pending finalMarker (before ++ [chunk]).flatten = [] ∨
      (pending finalMarker before.flatten).length <
        (pending finalMarker (before ++ [chunk]).flatten).length

theorem kept_iff_tail_grows (chunks : List Bytes) :
    Kept finalMarker keepsTail [] chunks ↔ TailGrows chunks := by
  rw [kept_iff final_marker_ne_nil]
  simp [TailGrows, keepsTail]

/-- The messages of a stream are delivered exactly if none ends in `\final` and the pending
bytes grow at every cut; then the accumulator also stays within the limit. -/
theorem read_final_all_iff {limit : Nat} {ms chunks : List Bytes}
    (hmessages : ∀ m ∈ ms, ¬ finalMarker <:+: m)
    (hstream : chunks.flatten = stream finalMarker ms)
    (hlimit : ∀ before after, chunks = before ++ after →
      (pending finalMarker before.flatten).length ≤ limit) :
    ((readFinalAll limit [] chunks).1 = ms ∧ (readFinalAll limit [] chunks).2.1 = true) ↔
      (∀ m ∈ ms, ¬ ascii "\\final" <:+ m) ∧ TailGrows chunks := by
  have hframed : (∀ m ∈ ms, Framed finalMarker m) ↔ ∀ m ∈ ms, ¬ ascii "\\final" <:+ m :=
    forall₂_congr fun m hm => framed_final_iff (hmessages m hm)
  rw [← kept_iff_tail_grows, ← hframed,
    ← feed_all_delivers_iff final_marker_ne_nil hstream,
    ← congrArg Prod.fst (read_final_all_eq limit [] chunks)]
  refine and_iff_left_of_imp fun hdelivered => ?_
  rw [congrArg Prod.fst (read_final_all_eq limit [] chunks)] at hdelivered
  have hkept := ((feed_all_delivers_iff final_marker_ne_nil hstream).mp hdelivered).2
  exact read_final_all_within hkept (by simpa using hlimit)

end OpenSpy
