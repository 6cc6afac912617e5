import OpenSpy.Library.Delimited

/-!
# Reassembling messages from chunks

A reader of a byte stream sees it in chunks. It cuts the joined accumulator and chunk into
messages and keeps the pending bytes for the next chunk, if its `keep` rule says so. A reader
that always keeps them delivers the messages whatever the chunks are. `feed_all_delivers_iff`
says exactly when a reader with any other rule does: it never lets go of pending bytes.

The converse is a count. Bytes that are let go are missing at the end, so the messages that
were delivered cannot fill the stream.
-/

namespace Delimited

variable {α : Type*} [DecidableEq α]

/-- One read: the messages it completes and the next accumulator. -/
def feed (d : List α) (keep : List α → List α → List α → Bool) (acc chunk : List α) :
    List (List α) × List α :=
  let cut := frames d (acc ++ chunk)
  (cut.1, if keep acc chunk cut.2 then cut.2 else [])

/-- Consecutive reads: all messages in order and the last accumulator. -/
def feedAll (d : List α) (keep : List α → List α → List α → Bool) :
    List α → List (List α) → List (List α) × List α
  | acc, [] => ([], acc)
  | acc, chunk :: rest =>
      let now := feed d keep acc chunk
      let later := feedAll d keep now.2 rest
      (now.1 ++ later.1, later.2)

/-- In no read are pending bytes let go: `acc` are the pending bytes before the chunks. -/
def Kept (d : List α) (keep : List α → List α → List α → Bool) : List α → List (List α) → Prop
  | _, [] => True
  | acc, chunk :: rest =>
      (pending d (acc ++ chunk) = [] ∨ keep acc chunk (pending d (acc ++ chunk))) ∧
        Kept d keep (pending d (acc ++ chunk)) rest

variable {d : List α} {keep : List α → List α → List α → Bool}

/-- A read that keeps its pending bytes carries them over. -/
theorem feed_kept {acc chunk : List α}
    (h : pending d (acc ++ chunk) = [] ∨ keep acc chunk (pending d (acc ++ chunk))) :
    feed d keep acc chunk = frames d (acc ++ chunk) := by
  unfold pending at h
  rcases h with h | h
  · simp [feed, h, Prod.ext_iff]
  · simp [feed, h]

/-- Reads that keep all pending bytes cut the joined input. -/
theorem feed_all_kept (hd : d ≠ []) {acc : List α} {chunks : List (List α)}
    (hacc : findFirst d acc = none) (h : Kept d keep acc chunks) :
    feedAll d keep acc chunks = frames d (acc ++ chunks.flatten) := by
  induction chunks generalizing acc with
  | nil => simp [feedAll, frames_clean hacc]
  | cons chunk rest ih =>
      obtain ⟨hkeep, hrest⟩ := h
      have hlater := ih (pending_clean hd _) hrest
      rw [List.flatten_cons, ← List.append_assoc, frames_append hd, ← hlater]
      simp [feedAll, feed_kept hkeep, pending]

/-- Every delivered message is framed. -/
theorem feed_all_framed (hd : d ≠ []) (acc : List α) (chunks : List (List α)) :
    ∀ m ∈ (feedAll d keep acc chunks).1, Framed d m := by
  induction chunks generalizing acc with
  | nil => simp [feedAll]
  | cons chunk rest ih =>
      intro m hm
      rcases List.mem_append.mp hm with hm | hm
      · exact frames_framed hd _ m hm
      · exact ih _ m hm

/-- No byte is delivered twice: messages and accumulator fit into the input. -/
theorem feed_all_length_le (keep : List α → List α → List α → Bool) (hd : d ≠ [])
    (acc : List α) (chunks : List (List α)) :
    (stream d (feedAll d keep acc chunks).1).length + (feedAll d keep acc chunks).2.length ≤
      acc.length + chunks.flatten.length := by
  induction chunks generalizing acc with
  | nil => simp [feedAll]
  | cons chunk rest ih =>
      have hjoin := congrArg List.length (frames_join hd (acc ++ chunk))
      have hlater := ih (feed d keep acc chunk).2
      have hacc : (feed d keep acc chunk).2.length ≤ (frames d (acc ++ chunk)).2.length := by
        simp only [feed]
        split <;> simp
      simp only [feedAll, stream_append, List.length_append, List.flatten_cons] at *
      simp only [feed] at hlater hacc ⊢
      omega

/-- Reads that account for every byte have let none go. -/
theorem kept_of_length (hd : d ≠ []) {acc : List α} {chunks : List (List α)}
    (h : (stream d (feedAll d keep acc chunks).1).length +
      (feedAll d keep acc chunks).2.length = acc.length + chunks.flatten.length) :
    Kept d keep acc chunks := by
  induction chunks generalizing acc with
  | nil => trivial
  | cons chunk rest ih =>
      have hjoin := congrArg List.length (frames_join hd (acc ++ chunk))
      have hle := feed_all_length_le keep hd (feed d keep acc chunk).2 rest
      simp only [feedAll, stream_append, List.length_append, List.flatten_cons] at h hjoin
      have hsame : (feed d keep acc chunk).1 = (frames d (acc ++ chunk)).1 := rfl
      rw [hsame] at h
      have hkeep : pending d (acc ++ chunk) = [] ∨
          keep acc chunk (pending d (acc ++ chunk)) := by
        by_contra hlost
        simp only [not_or, pending] at hlost
        have hempty : (feed d keep acc chunk).2 = [] := by simp [feed, hlost.2]
        have := List.length_pos_of_ne_nil hlost.1
        simp only [hempty, List.length_nil] at hle h
        omega
      refine ⟨hkeep, ih ?_⟩
      have hcarry : (feed d keep acc chunk).2 = pending d (acc ++ chunk) :=
        congrArg Prod.snd (feed_kept hkeep)
      rw [hcarry] at h
      unfold pending at h ⊢
      omega

/-- A reader of as many elements as a stream has delivers its messages if and only if it read
this stream, each message is framed, and no read lets pending bytes go. -/
theorem feed_all_delivers_length (hd : d ≠ []) {ms chunks : List (List α)}
    (hlen : chunks.flatten.length = (stream d ms).length) :
    (feedAll d keep [] chunks).1 = ms ↔
      chunks.flatten = stream d ms ∧ (∀ m ∈ ms, Framed d m) ∧ Kept d keep [] chunks := by
  have hnil : findFirst d [] = none := by simp [findFirst, hd]
  constructor
  · intro h
    have hkept : Kept d keep [] chunks := by
      refine kept_of_length hd ?_
      have := feed_all_length_le keep hd [] chunks
      rw [h] at this ⊢
      simp only [List.length_nil] at this ⊢
      omega
    refine ⟨?_, fun m hm => feed_all_framed hd [] chunks m (h ▸ hm), hkept⟩
    rw [feed_all_kept hd hnil hkept, List.nil_append] at h
    have hjoin := frames_join hd chunks.flatten
    rw [h] at hjoin
    have hrest := congrArg List.length hjoin
    rw [List.length_append] at hrest
    rw [← hjoin, List.eq_nil_of_length_eq_zero (l := (frames d chunks.flatten).2) (by omega),
      List.append_nil]
  · rintro ⟨hstream, hframed, hkept⟩
    rw [feed_all_kept hd hnil hkept, List.nil_append, hstream, frames_stream hd hframed]

/-- A reader delivers exactly the messages of a stream if and only if each of them is framed
and no read lets pending bytes go. -/
theorem feed_all_delivers_iff (hd : d ≠ []) {ms chunks : List (List α)}
    (hstream : chunks.flatten = stream d ms) :
    (feedAll d keep [] chunks).1 = ms ↔ (∀ m ∈ ms, Framed d m) ∧ Kept d keep [] chunks := by
  rw [feed_all_delivers_length hd (congrArg List.length hstream)]
  exact and_iff_right hstream

/-- `Kept` in terms of the bytes read before each chunk. -/
theorem kept_iff (hd : d ≠ []) (chunks : List (List α)) :
    Kept d keep [] chunks ↔
      ∀ before chunk after, chunks = before ++ chunk :: after →
        pending d (before ++ [chunk]).flatten = [] ∨
          keep (pending d before.flatten) chunk (pending d (before ++ [chunk]).flatten) := by
  suffices ∀ read : List α, Kept d keep (pending d read) chunks ↔
      ∀ before chunk after, chunks = before ++ chunk :: after →
        pending d (read ++ (before ++ [chunk]).flatten) = [] ∨
          keep (pending d (read ++ before.flatten)) chunk
            (pending d (read ++ (before ++ [chunk]).flatten)) by
    have hnil : pending d [] = [] := by
      rw [pending, frames_clean (by simp [findFirst, hd])]
    simpa [hnil] using this []
  induction chunks with
  | nil => simp [Kept]
  | cons chunk rest ih =>
      intro read
      have hnext := ih (read ++ chunk)
      rw [pending_append hd read chunk] at hnext
      rw [Kept, hnext]
      constructor
      · rintro ⟨hnow, hlater⟩ before c after hsplit
        cases before with
        | nil =>
            obtain ⟨rfl, rfl⟩ : chunk = c ∧ rest = after := by simpa using hsplit
            simpa [pending_append hd read chunk] using hnow
        | cons first before =>
            obtain ⟨rfl, rfl⟩ : chunk = first ∧ rest = before ++ c :: after := by
              simpa using hsplit
            simpa using hlater before c after rfl
      · intro h
        refine ⟨by simpa [pending_append hd read chunk] using h [] chunk rest rfl, ?_⟩
        intro before c after hsplit
        simpa using h (chunk :: before) c after (by simp [hsplit])

end Delimited
