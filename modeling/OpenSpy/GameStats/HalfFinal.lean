import OpenSpy.GameStats.XorKey

/-!
# Buffers that end in half a terminator

Whether `gamespy3dxor` decodes a chunk as it should depends on the memory behind the chunk
exactly if the chunk's unfinished part ends in the beginning of a `\final\`. A sequence of
chunks that do not can be decoded one by one.
-/

namespace OpenSpy.GS

open Delimited Bytes

/-- A text ends in the beginning of a terminator whose end is missing. -/
def EndsInHalfFinal (text : Bytes) : Prop :=
  ∃ u, u ≠ [] ∧ u <:+ text ∧ u <+: finalMarker ∧ u ≠ finalMarker

/-- No terminator starts in a text that has none and does not end in half of one. -/
theorem no_final_starts {text : Bytes} (hclean : findFirst finalMarker text = none)
    (hhalf : ¬ EndsInHalfFinal text) {u : Bytes} (hu : u <:+ text) (hne : u ≠ [])
    (more : Bytes) : ¬ finalMarker <+: u ++ more := by
  intro hocc
  by_cases hshort : u.length < finalMarker.length
  · refine hhalf ⟨u, hne, hu, ?_, ?_⟩
    · exact List.prefix_of_prefix_length_le (List.prefix_append u more) hocc (by omega)
    · rintro rfl
      omega
  · have hinside : finalMarker <+: u :=
      List.prefix_of_prefix_length_le hocc (List.prefix_append u more) (by omega)
    exact find_first_none_iff.mp hclean (hinside.isInfix.trans hu.isInfix)

/-- A suffix of two texts is one of the second, or it begins in the first. -/
theorem suffix_append_cases {u text more : Bytes} (h : u <:+ text ++ more) :
    u <:+ more ∨ ∃ v, v ≠ [] ∧ v <:+ text ∧ u = v ++ more := by
  obtain ⟨w, hw⟩ := h
  rcases List.append_eq_append_iff.mp hw with ⟨v, htext, hu⟩ | ⟨v, -, hmore⟩
  · by_cases hv : v = []
    · exact .inl (by simp [hu, hv])
    · exact .inr ⟨v, hv, ⟨w, htext.symm⟩, hu⟩
  · exact .inl ⟨v, hmore.symm⟩

/-- Bytes that are pending without half a terminator do not change where the next message is
cut. -/
theorem framed_append_pending {text more : Bytes} (hclean : findFirst finalMarker text = none)
    (hhalf : ¬ EndsInHalfFinal text) (hmore : Framed finalMarker more) :
    Framed finalMarker (text ++ more) := by
  rw [framed_iff]
  rintro u hu hne hocc
  rcases suffix_append_cases hu with h | ⟨v, hv, hvtext, rfl⟩
  · exact framed_iff.mp hmore u h hne hocc
  · rw [List.append_assoc] at hocc
    exact no_final_starts hclean hhalf hvtext hv _ hocc

/-- Nor do they complete a terminator. -/
theorem clean_append_pending {text more : Bytes} (hclean : findFirst finalMarker text = none)
    (hhalf : ¬ EndsInHalfFinal text) (hmore : findFirst finalMarker more = none) :
    findFirst finalMarker (text ++ more) = none := by
  rw [find_first_none_iff] at hmore ⊢
  rintro ⟨before, after, hsplit⟩
  have hu : finalMarker ++ after <:+ text ++ more := ⟨before, by rw [← hsplit]; simp⟩
  rcases suffix_append_cases hu with h | ⟨v, hv, hvtext, heq⟩
  · exact hmore ((List.prefix_append _ _).isInfix.trans h.isInfix)
  · exact no_final_starts hclean hhalf hvtext hv more (heq ▸ List.prefix_append _ _)

/-- Joined texts do not end in half a terminator if neither does. -/
theorem not_half_final_append {text more : Bytes} (hclean : findFirst finalMarker text = none)
    (hhalf : ¬ EndsInHalfFinal text) (hmore : ¬ EndsInHalfFinal (pending finalMarker more)) :
    ¬ EndsInHalfFinal (pending finalMarker (text ++ more)) := by
  induction more using frames_rec final_marker_ne_nil with
  | clean more h =>
      rw [pending, frames_clean h] at hmore
      rw [pending, frames_clean (clean_append_pending hclean hhalf h)]
      rintro ⟨u, hne, hu, hfinal, hwhole⟩
      rcases suffix_append_cases hu with h | ⟨v, hv, hvtext, rfl⟩
      · exact hmore ⟨u, hne, h, hfinal, hwhole⟩
      · have hshort := hfinal.length_le
        refine hhalf ⟨v, hv, hvtext, (List.prefix_append v more).trans hfinal, ?_⟩
        rintro rfl
        rw [List.length_append] at hshort
        obtain rfl : more = [] := List.eq_nil_of_length_eq_zero (by omega)
        exact hwhole (List.append_nil _)
  | cut f more h _ =>
      have hframed := framed_append_pending hclean hhalf h
      have hjoin : text ++ (f ++ finalMarker ++ more) = (text ++ f) ++ finalMarker ++ more := by
        simp
      rw [pending, frames_cut final_marker_ne_nil h] at hmore
      rwa [hjoin, pending, frames_cut final_marker_ne_nil hframed]

/-- What is pending after chunks of which none ends in half a terminator does not either. -/
theorem not_half_final_flatten {chunks : List Bytes}
    (h : ∀ chunk ∈ chunks, ¬ EndsInHalfFinal (pending finalMarker chunk)) :
    ¬ EndsInHalfFinal (pending finalMarker chunks.flatten) := by
  induction chunks using List.reverseRecOn with
  | nil =>
      rw [List.flatten_nil, pending, frames_clean (by decide)]
      rintro ⟨u, hne, hu, -, -⟩
      exact hne (List.suffix_nil.mp hu)
  | append_singleton chunks chunk ih =>
      rw [List.flatten_append, List.flatten_singleton, pending_append final_marker_ne_nil]
      exact not_half_final_append (pending_clean final_marker_ne_nil _)
        (ih fun c hc => h c (by simp [hc])) (h chunk (by simp))

/-- The memory behind a chunk that ends in half a terminator decides how it is decoded. -/
theorem half_final_differs {chunk : Bytes} {gs : Nat} (hgs : gs < 9)
    (h : EndsInHalfFinal (pending finalMarker chunk)) :
    ∃ beyond, (gamespy3dxor beyond gs chunk).1 ≠ (gamespy3dxor [] gs chunk).1 := by
  induction chunk using frames_rec final_marker_ne_nil generalizing gs with
  | clean chunk hclean =>
      rw [pending, frames_clean hclean] at h
      obtain ⟨u, hne, hu, ⟨missing, hmissing⟩, -⟩ := h
      have hplain : gamespy3dxor [] gs chunk = (xorFrom gs chunk, (gs + chunk.length) % 9) := by
        refine gamespy3dxor_clean hgs fun v hv _ hocc => ?_
        rw [List.append_nil] at hocc
        exact find_first_none_iff.mp hclean (hocc.isInfix.trans hv.isInfix)
      refine ⟨missing, ?_⟩
      rw [hplain]
      exact gamespy3dxor_completed hgs ⟨u, hu, hne, by rw [hmissing]⟩
  | cut f more hf ih =>
      rw [pending, frames_cut final_marker_ne_nil hf] at h
      obtain ⟨beyond, hbeyond⟩ := ih (show 0 < 9 by omega) h
      refine ⟨beyond, ?_⟩
      rw [gamespy3dxor_cut hgs hf, gamespy3dxor_cut hgs hf]
      simpa using hbeyond

/-- A reply leaves the key at its start, unless it ends in `\final`. -/
theorem reply_index {reply : Bytes} {gs : Nat} (hgs : gs < 9) (beyond : Bytes)
    (h : ¬ ascii "\\final" <:+ pending finalMarker reply) :
    (gamespy3dxor beyond gs (reply ++ finalMarker)).2 = 0 := by
  induction reply using frames_rec final_marker_ne_nil generalizing gs with
  | clean reply hclean =>
      rw [pending, frames_clean hclean] at h
      have hframed := (framed_final_iff (find_first_none_iff.mp hclean)).mpr h
      rw [← List.append_nil (reply ++ finalMarker), gamespy3dxor_cut hgs hframed]
      rfl
  | cut f more hf ih =>
      rw [pending, frames_cut final_marker_ne_nil hf] at h
      rw [List.append_assoc, gamespy3dxor_cut hgs hf]
      exact ih (by omega) h

/-- Behind a reply that ends in `\final`, the key position depends on the memory. -/
theorem reply_index_final {reply : Bytes} {gs : Nat} (hgs : gs < 9)
    (h : ascii "\\final" <:+ pending finalMarker reply) :
    (gamespy3dxor [] gs (reply ++ finalMarker)).2 = 6 ∧
      (gamespy3dxor (ascii "final\\") gs (reply ++ finalMarker)).2 = 0 := by
  induction reply using frames_rec final_marker_ne_nil generalizing gs with
  | clean reply hclean =>
      rw [pending, frames_clean hclean] at h
      obtain ⟨text, rfl⟩ := h
      have hinfix := find_first_none_iff.mp hclean
      have hframed : Framed finalMarker text := by
        refine (framed_final_iff fun hocc => ?_).mpr ?_
        · exact hinfix (hocc.trans (List.prefix_append _ _).isInfix)
        · rintro ⟨start, rfl⟩
          refine hinfix ⟨start, ascii "final", ?_⟩
          rw [List.append_assoc, List.append_assoc]
          rfl
      have hjoin : text ++ ascii "\\final" ++ finalMarker =
          text ++ finalMarker ++ ascii "final\\" := by
        rw [List.append_assoc, List.append_assoc]
        rfl
      rw [hjoin, gamespy3dxor_cut hgs hframed, gamespy3dxor_cut hgs hframed]
      show (gamespy3dxor [] 0 (ascii "final\\")).2 = 6 ∧
        (gamespy3dxor (ascii "final\\") 0 (ascii "final\\")).2 = 0
      decide
  | cut f more hf ih =>
      rw [pending, frames_cut final_marker_ne_nil hf] at h
      rw [List.append_assoc, gamespy3dxor_cut hgs hf, gamespy3dxor_cut hgs hf]
      exact ih (by omega) h

end OpenSpy.GS
