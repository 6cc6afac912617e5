import Mathlib.Data.List.Basic
import Mathlib.Data.UInt
import Mathlib.Tactic.Common

/-!
# Stream ciphers

A stream cipher goes through its text with a state: each step changes one byte and the state.
What one step undoes, a run undoes, and both runs leave the same state. A step may be
undefined, and then the run that comes to it is.
-/

namespace StreamCipher

variable {σ α β : Type*}

/-- A cipher's run over a text. -/
def run (step : σ → α → β × σ) : σ → List α → List β × σ
  | state, [] => ([], state)
  | state, a :: text =>
      let (b, next) := step state a
      let (rest, last) := run step next text
      (b :: rest, last)

/-- A cipher's run over a text if its steps may be undefined. -/
def tryRun (step : σ → α → Option (β × σ)) : σ → List α → Option (List β × σ)
  | state, [] => some ([], state)
  | state, a :: text =>
      (step state a).bind fun (b, next) =>
        (tryRun step next text).map fun (rest, last) => (b :: rest, last)

/-- The step that combines a byte with the next byte of a key stream. -/
def xorStep (next : σ → UInt8 × σ) (state : σ) (byte : UInt8) : UInt8 × σ :=
  (byte ^^^ (next state).1, (next state).2)

/-- The step that combines a byte with the next byte of a key stream which may be undefined. -/
def tryXorStep (next : σ → Option (UInt8 × σ)) (state : σ) (byte : UInt8) :
    Option (UInt8 × σ) :=
  (next state).map fun (key, after) => (byte ^^^ key, after)

/-- Combining with one byte twice changes nothing. -/
theorem xor_xor_self (byte key : UInt8) : byte ^^^ key ^^^ key = byte := by
  rw [UInt8.xor_assoc, UInt8.xor_self, UInt8.xor_zero]

@[simp] theorem run_length (step : σ → α → β × σ) (state : σ) (text : List α) :
    (run step state text).1.length = text.length := by
  induction text generalizing state with
  | nil => rfl
  | cons a text ih => simp [run, ih]

/-- If a step is undone by another from the same state, and both leave the same state, then so
are the runs. -/
theorem run_inverse {encrypt : σ → α → β × σ} {decrypt : σ → β → α × σ}
    (h : ∀ state a, decrypt state (encrypt state a).1 = (a, (encrypt state a).2))
    (state : σ) (text : List α) :
    run decrypt state (run encrypt state text).1 = (text, (run encrypt state text).2) := by
  induction text generalizing state with
  | nil => rfl
  | cons a text ih => simp [run, h, ih]

/-- A key stream undoes itself. -/
theorem run_xor_xor (next : σ → UInt8 × σ) (state : σ) (text : List UInt8) :
    run (xorStep next) state (run (xorStep next) state text).1 =
      (text, (run (xorStep next) state text).2) :=
  run_inverse (fun _ _ => Prod.ext (xor_xor_self _ _) rfl) state text

/-- If every defined step is undone by another, then so is every defined run. -/
theorem try_run_inverse {encrypt : σ → α → Option (β × σ)} {decrypt : σ → β → Option (α × σ)}
    (h : ∀ state a b next, encrypt state a = some (b, next) → decrypt state b = some (a, next))
    {state last : σ} {text : List α} {cipher : List β}
    (hrun : tryRun encrypt state text = some (cipher, last)) :
    tryRun decrypt state cipher = some (text, last) := by
  induction text generalizing state cipher with
  | nil =>
      obtain ⟨rfl, rfl⟩ : [] = cipher ∧ state = last := by simpa [tryRun] using hrun
      rfl
  | cons a text ih =>
      simp only [tryRun, Option.bind_eq_some_iff, Option.map_eq_some_iff, Prod.exists,
        Prod.mk.injEq] at hrun
      obtain ⟨b, next, hstep, rest, after, hrest, rfl, rfl⟩ := hrun
      simp [tryRun, h state a b next hstep, ih hrest]

/-- A defined key stream undoes itself. -/
theorem try_run_xor_xor {next : σ → Option (UInt8 × σ)} {state last : σ}
    {text cipher : List UInt8}
    (h : tryRun (tryXorStep next) state text = some (cipher, last)) :
    tryRun (tryXorStep next) state cipher = some (text, last) := by
  refine try_run_inverse ?_ h
  intro state byte changed after hstep
  obtain ⟨key, hnext, rfl⟩ : ∃ key, next state = some (key, after) ∧ byte ^^^ key = changed := by
    simpa [tryXorStep] using hstep
  rw [tryXorStep, hnext]
  exact congrArg (fun plain => some (plain, after)) (xor_xor_self byte key)

/-- A defined run leaves the length as it is. -/
theorem try_run_length {step : σ → α → Option (β × σ)} {state last : σ} {text : List α}
    {cipher : List β} (h : tryRun step state text = some (cipher, last)) :
    cipher.length = text.length := by
  induction text generalizing state cipher with
  | nil =>
      obtain ⟨rfl, -⟩ : [] = cipher ∧ state = last := by simpa [tryRun] using h
      rfl
  | cons a text ih =>
      simp only [tryRun, Option.bind_eq_some_iff, Option.map_eq_some_iff, Prod.exists,
        Prod.mk.injEq] at h
      obtain ⟨b, next, -, rest, after, hrest, rfl, rfl⟩ := h
      simp [ih hrest]

/-- A defined run goes on from where it is. -/
theorem try_run_append {step : σ → α → Option (β × σ)} {state last : σ} {text : List α}
    {cipher : List β} (h : tryRun step state text = some (cipher, last)) (more : List α) :
    tryRun step state (text ++ more) =
      (tryRun step last more).map fun rest => (cipher ++ rest.1, rest.2) := by
  induction text generalizing state cipher with
  | nil =>
      obtain ⟨rfl, rfl⟩ : [] = cipher ∧ state = last := by simpa [tryRun] using h
      simp
  | cons a text ih =>
      simp only [tryRun, Option.bind_eq_some_iff, Option.map_eq_some_iff, Prod.exists,
        Prod.mk.injEq] at h
      obtain ⟨b, next, hstep, rest, after, hrest, rfl, rfl⟩ := h
      rw [List.cons_append, tryRun, hstep, Option.bind_some]
      show (tryRun step next (text ++ more)).map _ = _
      rw [ih hrest, Option.map_map]
      rfl

/-- How long a key stream lasts: if a measure of the state says how many steps are left, the
run over a text is defined exactly if the text has no more bytes. -/
theorem try_run_is_some_iff {next : σ → Option (UInt8 × σ)} {Left : σ → Nat → Prop}
    (hstep : ∀ state n, Left state (n + 1) → ∃ key after, next state = some (key, after) ∧
      Left after n)
    (hend : ∀ state, Left state 0 → next state = none)
    {state : σ} {n : Nat} (h : Left state n) (text : List UInt8) :
    (tryRun (tryXorStep next) state text).isSome ↔ text.length ≤ n := by
  induction text generalizing state n with
  | nil => simp [tryRun]
  | cons byte text ih =>
      cases n with
      | zero => simp [tryRun, tryXorStep, hend state h]
      | succ n =>
          obtain ⟨key, after, hnext, hleft⟩ := hstep state n h
          simp [tryRun, tryXorStep, hnext, ih hleft]

/-- Two key streams that make the same bytes, for as many steps as a relation of their states says,
are one cipher on texts of at most so many bytes. -/
theorem try_run_eq {τ : Type*} {next : σ → Option (UInt8 × σ)} {other : τ → Option (UInt8 × τ)}
    {Agree : Nat → σ → τ → Prop}
    (hstep : ∀ n s t, Agree (n + 1) s t → ∃ key s' t', next s = some (key, s') ∧
      other t = some (key, t') ∧ Agree n s' t')
    {n : Nat} {s : σ} {t : τ} (h : Agree n s t) {text : List UInt8} (hlen : text.length ≤ n) :
    (tryRun (tryXorStep next) s text).map Prod.fst =
      (tryRun (tryXorStep other) t text).map Prod.fst := by
  induction text generalizing n s t with
  | nil => rfl
  | cons byte text ih =>
      obtain ⟨n, rfl⟩ : ∃ m, n = m + 1 := Nat.exists_eq_succ_of_ne_zero (by simp at hlen; omega)
      obtain ⟨key, s', t', hnext, hother, hagree⟩ := hstep n s t h
      have hrest := ih hagree (by simpa using hlen)
      simp only [tryRun, tryXorStep, hnext, hother, Option.map_some, Option.bind_some,
        Option.map_map]
      have hcons := congrArg (Option.map ((byte ^^^ key) :: ·)) hrest
      rw [Option.map_map, Option.map_map] at hcons
      exact hcons

/-- A key stream that never ends gives a run over every text. -/
theorem try_run_is_some {next : σ → Option (UInt8 × σ)} {holds : σ → Prop}
    (hstep : ∀ s, holds s → ∃ key s', next s = some (key, s') ∧ holds s') {s : σ} (h : holds s)
    (text : List UInt8) : (tryRun (tryXorStep next) s text).isSome := by
  induction text generalizing s with
  | nil => rfl
  | cons byte text ih =>
      obtain ⟨key, s', hnext, hs'⟩ := hstep s h
      simpa [tryRun, tryXorStep, hnext] using ih hs'

/-- A run over two texts is the run over the first and then over the second. -/
theorem run_append (step : σ → α → β × σ) (state : σ) (text more : List α) :
    run step state (text ++ more) =
      ((run step state text).1 ++ (run step (run step state text).2 more).1,
        (run step (run step state text).2 more).2) := by
  induction text generalizing state with
  | nil => rfl
  | cons a text ih => simp [run, ih]

/-- What each step keeps, a run keeps. -/
theorem run_keeps {step : σ → α → β × σ} {holds : σ → Prop}
    (hstep : ∀ state a, holds state → holds (step state a).2) {state : σ} (h : holds state)
    (text : List α) : holds (run step state text).2 := by
  induction text generalizing state with
  | nil => exact h
  | cons a text ih => exact ih (hstep state a h)

/-- A function on texts applied to the pieces of a text, one after the other. -/
def overPieces (cipher : σ → List α → List β × σ) : σ → List (List α) → List (List β) × σ
  | state, [] => ([], state)
  | state, piece :: pieces =>
      let (done, next) := cipher state piece
      let (rest, last) := overPieces cipher next pieces
      (done :: rest, last)

/-- It does not matter how a text is cut. -/
theorem over_pieces_flatten (step : σ → α → β × σ) (state : σ) (pieces : List (List α)) :
    ((overPieces (run step) state pieces).1.flatten, (overPieces (run step) state pieces).2) =
      run step state pieces.flatten := by
  induction pieces generalizing state with
  | nil => rfl
  | cons piece pieces ih =>
      have hrest := ih (run step state piece).2
      rw [List.flatten_cons, run_append, ← hrest]
      rfl

/-- What is undone step by step is undone however the one side cuts the plain text and the
other side the text that comes to it. -/
theorem over_pieces_inverse {encrypt : σ → α → β × σ} {decrypt : σ → β → α × σ}
    (h : ∀ state a, decrypt state (encrypt state a).1 = (a, (encrypt state a).2))
    (state : σ) {plain : List (List α)} {cipher : List (List β)}
    (hcut : cipher.flatten = (overPieces (run encrypt) state plain).1.flatten) :
    (overPieces (run decrypt) state cipher).1.flatten = plain.flatten ∧
      (overPieces (run decrypt) state cipher).2 = (overPieces (run encrypt) state plain).2 := by
  obtain ⟨htext, hstate⟩ :
      (overPieces (run encrypt) state plain).1.flatten = (run encrypt state plain.flatten).1 ∧
        (overPieces (run encrypt) state plain).2 = (run encrypt state plain.flatten).2 :=
    Prod.ext_iff.mp (over_pieces_flatten encrypt state plain)
  have hundone :
      ((overPieces (run decrypt) state cipher).1.flatten,
        (overPieces (run decrypt) state cipher).2) =
      (plain.flatten, (overPieces (run encrypt) state plain).2) := by
    rw [over_pieces_flatten, hcut, htext, run_inverse h, hstate]
  exact Prod.ext_iff.mp hundone

end StreamCipher
