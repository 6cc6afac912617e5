import Mathlib.Data.List.Basic
import Mathlib.Tactic.Common

/-!
# Readers that take a chunk for a message

A reader that keeps nothing between two chunks of a stream sees each chunk as a whole message.
Where it cannot get a delivery out of fewer bytes than the message has, it delivers the messages
of a stream exactly if each chunk is one of them (`chunks_delivered_iff`): each delivery takes
as many bytes as its message, and no byte is left for another cut.
-/

namespace Chunks

variable {α β μ : Type*} {read : List α → Option β} {encode : μ → List α}
  {deliver : μ → Option β} {chunks : List (List α)} {messages : List μ}

/-- Where something is read of every value of a list, it is read of each. -/
theorem eq_some_of_filterMap_eq_map {f : α → Option β} {g : α → β} {values : List α}
    (h : values.filterMap f = values.map g) {value : α} (hmem : value ∈ values) :
    f value = some (g value) := by
  induction values with
  | nil => cases hmem
  | cons first rest ih =>
      cases hfirst : f first with
      | none =>
          have hlength := congrArg List.length h
          rw [List.filterMap_cons_none hfirst, List.length_map, List.length_cons] at hlength
          have hle := List.length_filterMap_le f rest
          omega
      | some read =>
          rw [List.filterMap_cons_some hfirst, List.map_cons] at h
          obtain ⟨rfl, hrest⟩ := List.cons.inj h
          rcases List.mem_cons.mp hmem with rfl | hmem
          · exact hfirst
          · exact ih hrest hmem

/-- What is delivered chunk by chunk took as many bytes as its messages have, and where it took
no more, each chunk was as long as its message. -/
theorem length_le_of_delivered
    (hshort : ∀ message ∈ messages, ∀ chunk value, deliver message = some value →
      read chunk = some value → (encode message).length ≤ chunk.length)
    (hdeliver : ∀ message ∈ messages, (deliver message).isSome)
    (hne : ∀ chunk ∈ chunks, chunk ≠ [])
    (h : chunks.filterMap read = messages.filterMap deliver) :
    (messages.map encode).flatten.length ≤ chunks.flatten.length ∧
      ((messages.map encode).flatten.length = chunks.flatten.length →
        (messages.map encode).map List.length = chunks.map List.length) := by
  induction chunks generalizing messages with
  | nil =>
      cases messages with
      | nil => simp
      | cons message messages =>
          obtain ⟨value, hvalue⟩ := Option.isSome_iff_exists.mp (hdeliver message (by simp))
          simp [hvalue] at h
  | cons chunk chunks ih =>
      have hchunk : 0 < chunk.length := List.length_pos_iff.mpr (hne chunk (by simp))
      have hrest : ∀ chunk ∈ chunks, chunk ≠ [] :=
        fun chunk hmem => hne chunk (List.mem_cons_of_mem _ hmem)
      cases hread : read chunk with
      | none =>
          rw [List.filterMap_cons_none hread] at h
          obtain ⟨hle, -⟩ := ih hshort hdeliver hrest h
          rw [List.flatten_cons, List.length_append]
          exact ⟨by omega, fun heq => by omega⟩
      | some value =>
          rw [List.filterMap_cons_some hread] at h
          cases messages with
          | nil => simp at h
          | cons message messages =>
              obtain ⟨other, hother⟩ :=
                Option.isSome_iff_exists.mp (hdeliver message (by simp))
              rw [List.filterMap_cons_some hother] at h
              obtain ⟨rfl, htail⟩ := List.cons.inj h
              have hlen := hshort message (by simp) chunk value hother hread
              obtain ⟨hle, heq⟩ := ih
                (fun message hmem => hshort message (List.mem_cons_of_mem _ hmem))
                (fun message hmem => hdeliver message (List.mem_cons_of_mem _ hmem)) hrest htail
              simp only [List.map_cons, List.flatten_cons, List.length_append, List.cons.injEq]
              refine ⟨by omega, fun htotal => ⟨by omega, heq (by omega)⟩⟩

/-- The messages of a stream are delivered exactly if each chunk is one of them. -/
theorem chunks_delivered_iff
    (hread : ∀ message ∈ messages, read (encode message) = deliver message)
    (hshort : ∀ message ∈ messages, ∀ chunk value, deliver message = some value →
      read chunk = some value → (encode message).length ≤ chunk.length)
    (hdeliver : ∀ message ∈ messages, (deliver message).isSome)
    (hne : ∀ chunk ∈ chunks, chunk ≠ [])
    (hstream : chunks.flatten = (messages.map encode).flatten) :
    chunks.filterMap read = messages.filterMap deliver ↔ chunks = messages.map encode := by
  constructor
  · intro h
    obtain ⟨-, hlengths⟩ := length_le_of_delivered hshort hdeliver hne h
    exact List.eq_iff_flatten_eq.mpr ⟨hstream, (hlengths (by rw [hstream])).symm⟩
  · rintro rfl
    rw [List.filterMap_map]
    exact List.filterMap_congr hread

end Chunks
