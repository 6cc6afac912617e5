import OpenSpy.Core.FinalMarker
import OpenSpy.Library.StreamCipher

/-!
# The gamestats XOR key

`gamespy3dxor` combines the bytes of a buffer with the key `GameSpy3D`, starting at the key
position that the last call left. It leaves each `\final\` in clear and restarts the key
behind it. Its `strncmp` looks at seven bytes even where fewer are left, so what it does near
the end of a buffer depends on the memory behind it, `beyond`.

`xorFrom` is the key stream alone. `gamespy3dxor_clean` and `gamespy3dxor_cut` say how the loop
runs along the cut of the buffer at `\final\`. `gamespy3dxor_undoes_itself` is about the streams
of printable messages.
-/

namespace OpenSpy.GS

open Delimited Bytes StreamCipher

/-- The key of `gamespy3dxor`. -/
def gamespy : Bytes :=
  ascii "GameSpy3D"

/-- `*gs` at a position of the key; its string ends in a NUL. -/
def keyByte (gs : Nat) : UInt8 :=
  gamespy.getD gs 0

/-- `gs++` and the wrap at the end of the key. -/
def nextKey (gs : Nat) : Nat :=
  if keyByte (gs + 1) = 0 then 0 else gs + 1

/-- The loop of `gamespy3dxor` over the bytes still to be done: the changed bytes and the last
key position. -/
def xorLoop (beyond : Bytes) : Nat → Nat → Bytes → Bytes × Nat
  | _, gs, [] => ([], gs)
  | 0, gs, data => (data, gs)
  | fuel + 1, gs, byte :: data =>
      if finalMarker <+: byte :: data ++ beyond then
        let rest := xorLoop beyond fuel 0 (data.drop 6)
        (byte :: data.take 6 ++ rest.1, rest.2)
      else
        let rest := xorLoop beyond fuel (nextKey gs) data
        ((byte ^^^ keyByte gs) :: rest.1, rest.2)

/-- `GS::Peer::gamespy3dxor` on a buffer, with the memory behind it. -/
def gamespy3dxor (beyond : Bytes) (xorIndex : Nat) (data : Bytes) : Bytes × Nat :=
  xorLoop beyond data.length xorIndex data

/-- The key stream from a position on, without regard to terminators. -/
def xorFrom : Nat → Bytes → Bytes
  | _, [] => []
  | i, byte :: data => (byte ^^^ keyByte (i % 9)) :: xorFrom (i + 1) data

@[simp] theorem xor_from_length (i : Nat) (data : Bytes) :
    (xorFrom i data).length = data.length := by
  induction data generalizing i with
  | nil => rfl
  | cons byte data ih => simp [xorFrom, ih]

/-- The key has nine positions, and none of its bytes is zero. -/
theorem key_byte_ne_zero {gs : Nat} (h : gs < 9) : keyByte gs ≠ 0 := by
  have : ∀ gs : Fin 9, keyByte gs ≠ 0 := by decide
  exact this ⟨gs, h⟩

/-- The nine bytes of the key differ. -/
theorem key_byte_inj {gs other : Nat} (h : gs < 9) (hother : other < 9)
    (heq : keyByte gs = keyByte other) : gs = other := by
  have : ∀ gs other : Fin 9, keyByte gs = keyByte other → gs = other := by decide
  exact congrArg Fin.val (this ⟨gs, h⟩ ⟨other, hother⟩ heq)

theorem next_key_eq {gs : Nat} (h : gs < 9) : nextKey gs = (gs + 1) % 9 := by
  have : ∀ gs : Fin 9, nextKey gs = (gs + 1) % 9 := by decide
  exact this ⟨gs, h⟩

/-- A byte changes under the key. -/
theorem xor_key_byte_ne {gs : Nat} (h : gs < 9) (byte : UInt8) : byte ^^^ keyByte gs ≠ byte := by
  intro heq
  refine key_byte_ne_zero h ?_
  have := congrArg (byte ^^^ ·) heq
  simpa [← UInt8.xor_assoc] using this

/-- The key stream undoes itself. -/
theorem xor_from_xor_from (i : Nat) (data : Bytes) : xorFrom i (xorFrom i data) = data := by
  induction data generalizing i with
  | nil => rfl
  | cons byte data ih => rw [xorFrom, xorFrom, ih, xor_xor_self]

theorem xor_from_append (i : Nat) (data more : Bytes) :
    xorFrom i (data ++ more) = xorFrom i data ++ xorFrom (i + data.length) more := by
  induction data generalizing i with
  | nil => rfl
  | cons byte data ih =>
      simp only [List.cons_append, xorFrom, ih, List.length_cons, Nat.add_right_comm,
        Nat.add_assoc]

/-- Only the position within the key matters. -/
theorem xor_from_mod (i : Nat) (data : Bytes) : xorFrom (i % 9) data = xorFrom i data := by
  induction data generalizing i with
  | nil => rfl
  | cons byte data ih =>
      rw [xorFrom, xorFrom, Nat.mod_mod, ← ih (i % 9 + 1), ← ih (i + 1)]
      simp [Nat.add_mod]

/-- The loop does not need more rounds than it has bytes. -/
theorem xor_loop_fuel (beyond : Bytes) (fuel gs : Nat) (data : Bytes) (h : data.length ≤ fuel) :
    xorLoop beyond fuel gs data = gamespy3dxor beyond gs data := by
  suffices ∀ fuel fuel' gs data, data.length ≤ fuel → data.length ≤ fuel' →
      xorLoop beyond fuel gs data = xorLoop beyond fuel' gs data from this _ _ _ _ h le_rfl
  clear h data gs fuel
  intro fuel
  induction fuel with
  | zero =>
      intro fuel' gs data hdata _
      obtain rfl : data = [] := by simpa using hdata
      simp [xorLoop]
  | succ fuel ih =>
      intro fuel' gs data hdata hdata'
      cases data with
      | nil => simp [xorLoop]
      | cons byte data =>
          cases fuel' with
          | zero => simp at hdata'
          | succ fuel' =>
              simp only [List.length_cons, Nat.add_le_add_iff_right] at hdata hdata'
              rw [xorLoop, xorLoop, ih fuel' (nextKey gs) data hdata hdata',
                ih fuel' 0 (data.drop 6) (by simp; omega) (by simp; omega)]

/-- A round that sees a terminator. -/
theorem gamespy3dxor_final {beyond data : Bytes} {byte : UInt8} (gs : Nat)
    (h : finalMarker <+: byte :: data ++ beyond) :
    gamespy3dxor beyond gs (byte :: data) =
      (byte :: data.take 6 ++ (gamespy3dxor beyond 0 (data.drop 6)).1,
        (gamespy3dxor beyond 0 (data.drop 6)).2) := by
  rw [gamespy3dxor, List.length_cons, xorLoop, if_pos h,
    xor_loop_fuel beyond data.length 0 (data.drop 6) (by simp)]

/-- A round that combines a byte with the key. -/
theorem gamespy3dxor_key {beyond data : Bytes} {byte : UInt8} (gs : Nat)
    (h : ¬ finalMarker <+: byte :: data ++ beyond) :
    gamespy3dxor beyond gs (byte :: data) =
      ((byte ^^^ keyByte gs) :: (gamespy3dxor beyond (nextKey gs) data).1,
        (gamespy3dxor beyond (nextKey gs) data).2) := by
  rw [gamespy3dxor, List.length_cons, xorLoop, if_neg h]
  rfl

@[simp] theorem gamespy3dxor_nil (beyond : Bytes) (gs : Nat) :
    gamespy3dxor beyond gs [] = ([], gs) := rfl

/-- Text in which no terminator starts is combined with the key stream. -/
theorem gamespy3dxor_clean {beyond data : Bytes} {gs : Nat} (hgs : gs < 9)
    (h : ∀ u, u <:+ data → u ≠ [] → ¬ finalMarker <+: u ++ beyond) :
    gamespy3dxor beyond gs data = (xorFrom gs data, (gs + data.length) % 9) := by
  induction data generalizing gs with
  | nil => simp [xorFrom, Nat.mod_eq_of_lt hgs]
  | cons byte data ih =>
      rw [gamespy3dxor_key gs (h _ List.suffix_rfl (by simp)), next_key_eq hgs,
        ih (Nat.mod_lt _ (by omega)) fun u hu => h u (hu.trans (List.suffix_cons byte data))]
      simp only [xorFrom, List.length_cons, Nat.mod_eq_of_lt hgs, xor_from_mod, Prod.mk.injEq,
        true_and]
      omega

/-- A framed text and its terminator: the key restarts behind the terminator. -/
theorem gamespy3dxor_cut {beyond text more : Bytes} {gs : Nat} (hgs : gs < 9)
    (h : Framed finalMarker text) :
    gamespy3dxor beyond gs (text ++ finalMarker ++ more) =
      (xorFrom gs text ++ finalMarker ++ (gamespy3dxor beyond 0 more).1,
        (gamespy3dxor beyond 0 more).2) := by
  induction text generalizing gs with
  | nil =>
      have hmark : finalMarker = 92 :: finalMarker.tail := by decide
      have hmore : ∀ rest, (finalMarker.tail ++ rest).drop 6 = rest := fun rest =>
        List.drop_left' (by decide)
      have htail : ∀ rest, (finalMarker.tail ++ rest).take 6 = finalMarker.tail := fun rest =>
        List.take_left' (by decide)
      conv_lhs => rw [List.nil_append, hmark, List.cons_append]
      rw [gamespy3dxor_final gs (by rw [← List.cons_append, ← hmark, List.append_assoc]; simp),
        hmore, htail]
      conv_rhs => rw [hmark]
      simp [xorFrom]
  | cons byte text ih =>
      have hne : ¬ finalMarker <+: byte :: (text ++ finalMarker ++ more) ++ beyond := by
        intro hocc
        refine framed_iff.mp h _ List.suffix_rfl (by simp) ?_
        have hcut : byte :: text ++ finalMarker <+:
            byte :: (text ++ finalMarker ++ more) ++ beyond := by simp
        exact List.prefix_of_prefix_length_le hocc hcut (by simp; omega)
      rw [List.cons_append, List.cons_append, gamespy3dxor_key gs hne, next_key_eq hgs,
        ih (Nat.mod_lt _ (by omega)) (h.suffix (List.suffix_cons byte text))]
      simp [xorFrom, Nat.mod_eq_of_lt hgs, xor_from_mod]

@[simp] theorem gamespy3dxor_length (beyond : Bytes) (gs : Nat) (data : Bytes) :
    (gamespy3dxor beyond gs data).1.length = data.length := by
  induction hlen : data.length using Nat.strong_induction_on generalizing gs data with
  | _ n ih =>
      cases data with
      | nil => simpa using hlen
      | cons byte data =>
          simp only [List.length_cons] at hlen
          by_cases h : finalMarker <+: byte :: data ++ beyond
          · have hrest := ih (data.drop 6).length (by simp; omega) 0 (data.drop 6) rfl
            rw [gamespy3dxor_final gs h]
            simp only [List.length_cons, List.length_append, List.length_take, hrest,
              List.length_drop]
            omega
          · have hrest := ih data.length (by omega) (nextKey gs) data rfl
            rw [gamespy3dxor_key gs h]
            simp only [List.length_cons, hrest]
            omega

/-- The key position stays inside the key. -/
theorem gamespy3dxor_index (beyond : Bytes) {gs : Nat} (hgs : gs < 9) (data : Bytes) :
    (gamespy3dxor beyond gs data).2 < 9 := by
  induction hlen : data.length using Nat.strong_induction_on generalizing gs data with
  | _ n ih =>
      cases data with
      | nil => simpa using hgs
      | cons byte data =>
          simp only [List.length_cons] at hlen
          by_cases h : finalMarker <+: byte :: data ++ beyond
          · rw [gamespy3dxor_final gs h]
            exact ih (data.drop 6).length (by simp; omega) (by omega) (data.drop 6) rfl
          · rw [gamespy3dxor_key gs h, next_key_eq hgs]
            exact ih data.length (by omega) (Nat.mod_lt _ (by omega)) data rfl

/-- Where the memory behind the buffer completes a terminator, the loop leaves a byte as it is
that the key stream changes. -/
theorem gamespy3dxor_completed {beyond data : Bytes} {gs : Nat} (hgs : gs < 9)
    (h : ∃ u, u <:+ data ∧ u ≠ [] ∧ finalMarker <+: u ++ beyond) :
    (gamespy3dxor beyond gs data).1 ≠ xorFrom gs data := by
  induction data generalizing gs with
  | nil =>
      obtain ⟨u, hu, hne, -⟩ := h
      exact absurd (List.suffix_nil.mp hu) hne
  | cons byte data ih =>
      by_cases hhere : finalMarker <+: byte :: data ++ beyond
      · rw [gamespy3dxor_final gs hhere, xorFrom, Nat.mod_eq_of_lt hgs]
        intro heq
        exact xor_key_byte_ne hgs byte (List.cons.inj heq).1.symm
      · obtain ⟨u, hu, hne, hocc⟩ := h
        have hlater : u <:+ data := by
          rcases List.suffix_cons_iff.mp hu with rfl | hu
          · exact absurd hocc hhere
          · exact hu
        rw [gamespy3dxor_key gs hhere, next_key_eq hgs, xorFrom, Nat.mod_eq_of_lt hgs]
        intro heq
        refine ih (Nat.mod_lt (gs + 1) (by omega)) ⟨u, hlater, hne, hocc⟩ ?_
        rw [xor_from_mod]
        exact (List.cons.inj heq).2

/-- A printable ASCII byte. -/
def printable (byte : UInt8) : Bool :=
  32 ≤ byte && byte ≤ 126

/-- Five bytes in a row that encode `\fina` do not come from printable bytes. -/
theorem five_bytes_not_printable {i : Nat} {data : Bytes}
    (hdata : ∀ byte ∈ data, printable byte) : ¬ ascii "\\fina" <+: xorFrom i data := by
  have htext : ascii "\\fina" = [92, 102, 105, 110, 97] := by decide
  have hkey : ∀ k : Fin 9, ¬ (printable (92 ^^^ keyByte k) ∧
      printable (102 ^^^ keyByte ((k + 1 : Nat) % 9)) ∧
      printable (105 ^^^ keyByte ((k + 2 : Nat) % 9)) ∧
      printable (110 ^^^ keyByte ((k + 3 : Nat) % 9)) ∧
      printable (97 ^^^ keyByte ((k + 4 : Nat) % 9))) := by decide
  intro hocc
  rw [htext] at hocc
  have hplain : ∀ {byte code key : UInt8}, code = byte ^^^ key → code ^^^ key = byte := by
    rintro byte _ key rfl
    exact xor_xor_self byte key
  rcases data with _ | ⟨a, _ | ⟨b, _ | ⟨c, _ | ⟨e, _ | ⟨f, data⟩⟩⟩⟩⟩
  all_goals simp [xorFrom, List.cons_prefix_cons] at hocc
  obtain ⟨ha, hb, hc, he, hf⟩ := hocc
  refine hkey ⟨i % 9, Nat.mod_lt _ (by omega)⟩ ?_
  simp only [Nat.mod_add_mod]
  rw [hplain ha, hplain hb, hplain hc, hplain he, hplain hf]
  simp [hdata]

/-- The encoded text of a printable message never looks like a terminator, also not together
with the terminator that follows it. -/
theorem xor_from_framed (i : Nat) {message : Bytes} (h : ∀ byte ∈ message, printable byte) :
    Framed finalMarker (xorFrom i message) := by
  rw [framed_iff]
  rintro u ⟨v, hsplit⟩ hne hocc
  -- `u` encodes the end of the message.
  have hlen := congrArg List.length hsplit
  rw [List.length_append, xor_from_length] at hlen
  have hend : u = xorFrom (i + v.length) (message.drop v.length) := by
    have hparts := xor_from_append i (message.take v.length) (message.drop v.length)
    have htake : (message.take v.length).length = v.length := by simp; omega
    rw [List.take_append_drop, htake, ← hsplit] at hparts
    exact (List.append_inj hparts (by simp; omega)).2
  have hfive : ascii "\\fina" <+: u := by
    by_cases hshort : u.length < 7
    · rw [final_overlap hne hshort hocc]
      decide
    · have hinside : finalMarker <+: u :=
        List.prefix_of_prefix_length_le hocc (List.prefix_append _ _)
          (by rw [final_marker_length]; omega)
      exact List.IsPrefix.trans (by decide) hinside
  rw [hend] at hfive
  exact five_bytes_not_printable (fun byte hmem => h byte (List.mem_of_mem_drop hmem)) hfive

/-- The bodies of a stream combined with the key, the first from a key position on and each later
one from the start of the key. -/
def encodedBodies : Nat → List Bytes → List Bytes
  | _, [] => []
  | gs, message :: messages => xorFrom gs message :: encodedBodies 0 messages

/-- The key position behind a stream. -/
def keyBehind (gs : Nat) (messages : List Bytes) : Nat :=
  if messages = [] then gs else 0

@[simp] theorem encoded_bodies_eq_nil {gs : Nat} {messages : List Bytes} :
    encodedBodies gs messages = [] ↔ messages = [] := by
  cases messages <;> simp [encodedBodies]

theorem encoded_bodies_lengths (gs : Nat) (messages : List Bytes) :
    (encodedBodies gs messages).map List.length = messages.map List.length := by
  induction messages generalizing gs with
  | nil => rfl
  | cons message messages ih => simp [encodedBodies, ih]

/-- Combining the bodies twice gives them back. -/
theorem encoded_bodies_twice (gs : Nat) (messages : List Bytes) :
    encodedBodies gs (encodedBodies gs messages) = messages := by
  induction messages generalizing gs with
  | nil => rfl
  | cons message messages ih => rw [encodedBodies, encodedBodies, xor_from_xor_from, ih]

/-- The encoded bodies of printable messages are framed. -/
theorem encoded_bodies_framed (gs : Nat) {messages : List Bytes}
    (h : ∀ message ∈ messages, ∀ byte ∈ message, printable byte) :
    ∀ code ∈ encodedBodies gs messages, Framed finalMarker code := by
  induction messages generalizing gs with
  | nil => simp [encodedBodies]
  | cons message messages ih =>
      rw [encodedBodies]
      exact List.forall_mem_cons.mpr ⟨xor_from_framed gs (h message (by simp)),
        ih 0 fun other hmem => h other (by simp [hmem])⟩

/-- A stream of framed bodies: each is combined with the key, and the terminators stay. -/
theorem gamespy3dxor_stream (beyond : Bytes) {gs : Nat} (hgs : gs < 9) {messages : List Bytes}
    (h : ∀ message ∈ messages, Framed finalMarker message) :
    gamespy3dxor beyond gs (stream finalMarker messages) =
      (stream finalMarker (encodedBodies gs messages), keyBehind gs messages) := by
  induction messages generalizing gs with
  | nil => simp [encodedBodies, keyBehind]
  | cons message messages ih =>
      have hkey : keyBehind 0 messages = 0 := ite_self _
      rw [stream_cons, gamespy3dxor_cut hgs (h message (by simp)),
        ih (by omega) fun other hmem => h other (by simp [hmem]), hkey, encodedBodies, stream_cons]
      rfl

/-- What is framed holds no terminator. -/
theorem framed_no_final {body : Bytes} (h : Framed finalMarker body) :
    ¬ finalMarker <:+: body := by
  rintro ⟨before, after, hsplit⟩
  have hsuffix : finalMarker ++ after <:+ body := ⟨before, by rw [← hsplit, List.append_assoc]⟩
  exact framed_iff.mp h _ hsuffix (by simp [final_marker_ne_nil])
    (by rw [List.append_assoc]; exact List.prefix_append _ _)

/-- On a stream of printable messages in which `\final\` only stands behind each of them,
`gamespy3dxor` undoes itself from every key position, whatever stands behind the buffer, and leaves
the same key position both times. No encoded body holds `\final\`. -/
theorem gamespy3dxor_undoes_itself {gs : Nat} (hgs : gs < 9) {messages : List Bytes}
    (hprint : ∀ message ∈ messages, ∀ byte ∈ message, printable byte)
    (hframed : ∀ message ∈ messages, Framed finalMarker message) (beyond beyond' : Bytes) :
    gamespy3dxor beyond' gs (gamespy3dxor beyond gs (stream finalMarker messages)).1 =
        (stream finalMarker messages,
          (gamespy3dxor beyond gs (stream finalMarker messages)).2) ∧
      ∃ codes : List Bytes,
        (gamespy3dxor beyond gs (stream finalMarker messages)).1 = stream finalMarker codes ∧
          codes.map List.length = messages.map List.length ∧
            ∀ code ∈ codes, ¬ finalMarker <:+: code := by
  have hcodes := encoded_bodies_framed gs hprint
  rw [gamespy3dxor_stream beyond hgs hframed]
  refine ⟨?_, encodedBodies gs messages, rfl, encoded_bodies_lengths gs messages, ?_⟩
  · rw [gamespy3dxor_stream beyond' hgs hcodes, encoded_bodies_twice]
    simp only [keyBehind, encoded_bodies_eq_nil]
  · intro code hcode
    exact framed_no_final (hcodes code hcode)

/-- Two messages from the last position of the key. -/
theorem gamespy3dxor_undoes_two :
    gamespy3dxor [] 8 (gamespy3dxor [] 8
        (stream finalMarker [ascii "\\ka\\", ascii "\\lc\\1"])).1 =
      (stream finalMarker [ascii "\\ka\\", ascii "\\lc\\1"],
        (gamespy3dxor [] 8 (stream finalMarker [ascii "\\ka\\", ascii "\\lc\\1"])).2) := by
  have hprint : ∀ message ∈ [ascii "\\ka\\", ascii "\\lc\\1"],
      ∀ byte ∈ message, printable byte := by
    simp only [List.forall_mem_cons]
    exact ⟨List.all_eq_true.mp (by decide), List.all_eq_true.mp (by decide), by simp⟩
  exact (gamespy3dxor_undoes_itself (by decide) hprint (by decide) [] []).1

end OpenSpy.GS
