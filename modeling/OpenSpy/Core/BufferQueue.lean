import OpenSpy.Core.BufferStorage

/-!
# A buffer as a queue

A run writes values to a buffer of its own and reads them again, in any order of calls in which a
read asks for the type of the value that is next. `values_in_order_iff` says when the values come
back in the order in which they were written and the read cursor stays at the next one: where a
block grows, as many bytes have to be left as were read.
-/

namespace OpenSpy

open Bytes Commands Runs

/-- A call: a write, with what the memory holds behind the block if it has to grow, or a read. -/
inductive BufferCall where
  | write (value : BufferValue) (fresh : Bytes)
  | read (call : BufferRead)
  deriving DecidableEq

/-- The value that a call writes. -/
def BufferCall.written : BufferCall → Option BufferValue
  | .write value _ => some value
  | .read _ => none

/-- The call is a read. -/
def BufferCall.isRead : BufferCall → Bool
  | .write _ _ => false
  | .read _ => true

/-- A read asks for the type of the value that is next, where the calls before it are these. -/
def BufferCall.asksNext (before : List BufferCall) : BufferCall → Bool
  | .write _ _ => true
  | .read call =>
      ((before.filterMap BufferCall.written)[before.countP BufferCall.isRead]?).any call.asksFor

/-- The reads of a run ask for what was written, one value after the other. -/
def AsksInOrder (run : List BufferCall) : Prop :=
  AtEvery (fun before call => call.asksNext before) run

instance (run : List BufferCall) : Decidable (AsksInOrder run) :=
  decidable_of_iff _ at_every_iff.symm

/-- A buffer in use: the values that were written and the values that were read. A read that does
not come to an end leaves it stuck. -/
structure BufferUse where
  storage : Storage
  written : List BufferValue
  valuesRead : List BufferValue
  stuck : Bool
  deriving DecidableEq

namespace BufferUse

/-- A new buffer. -/
def start (memory : Bytes) (allocSize : Nat) : BufferUse :=
  ⟨.ofSize memory allocSize, [], [], false⟩

/-- A call. -/
def step (s : BufferUse) : BufferCall → BufferUse
  | .write value fresh =>
      if s.stuck then s
      else { s with storage := s.storage.write fresh value, written := s.written ++ [value] }
  | .read call =>
      if s.stuck then s
      else
        match s.storage.read call with
        | none => { s with stuck := true }
        | some (value, storage) =>
            { s with storage := storage, valuesRead := s.valuesRead ++ [value] }

variable (s : BufferUse)

/-- The values that are still to be read. -/
def pending : List BufferValue :=
  s.written.drop s.valuesRead.length

/-- A read asks for the type of the value that is next in this state. -/
def AsksNext : BufferCall → Prop
  | .write _ _ => True
  | .read call => ∃ value, s.pending.head? = some value ∧ call.asksFor value

/-- Where the block grows, half of what was written has been read. A string that is read ends at
its NUL. -/
def InStep : BufferCall → Prop
  | .write value _ =>
      s.storage.Grows value.bytes.length →
        s.storage.bytesWritten = 2 * s.storage.readCursor
  | .read _ => ∀ value ∈ s.pending.head?, value.endsAtNul

instance (call : BufferCall) : Decidable (s.InStep call) := by
  unfold InStep
  split <;> infer_instance

/-- The values that were read are those that were written first, and what is left to read are the
bytes of the others. -/
structure InOrder : Prop where
  going : s.stuck = false
  values : s.valuesRead = s.written.take s.valuesRead.length
  unread : s.storage.view.unread = s.pending.flatMap BufferValue.bytes

/-- The same with a block that the buffer owns. -/
structure Queue : Prop extends s.InOrder where
  owning : s.storage.Owning

variable {s}

/-- The value that is next stands at the read cursor. -/
theorem InOrder.next (h : s.InOrder) {value : BufferValue} (hnext : s.pending.head? = some value) :
    ∃ rest, s.pending = value :: rest ∧
      s.storage.view.unread = value.bytes ++ rest.flatMap BufferValue.bytes ∧
        s.written.take (s.valuesRead.length + 1) = s.valuesRead ++ [value] ∧
          s.written.drop (s.valuesRead.length + 1) = rest := by
  obtain ⟨rest, hrest⟩ : ∃ rest, s.pending = value :: rest := by
    cases hpending : s.pending with
    | nil => simp [hpending] at hnext
    | cons first rest =>
        rw [hpending, List.head?_cons, Option.some.injEq] at hnext
        exact ⟨rest, by rw [hnext]⟩
  have hwritten : s.written = s.valuesRead ++ value :: rest := by
    conv_lhs => rw [← List.take_append_drop s.valuesRead.length s.written]
    rw [← h.values]
    exact congrArg (s.valuesRead ++ ·) hrest
  refine ⟨rest, hrest, by rw [h.unread, hrest, List.flatMap_cons], ?_, ?_⟩
  · rw [hwritten, List.take_append]
    simp
  · rw [hwritten, List.drop_append]
    simp

/-- A read of the value that is next. -/
theorem read_next {storage : Storage} (h : storage.Ordered) {value : BufferValue}
    {call : BufferRead} {rest : Bytes} (hasks : call.asksFor value) (hends : value.endsAtNul)
    (hunread : storage.view.unread = value.bytes ++ rest) :
    storage.read call = some (value, storage.incReadCursor value.bytes.length) := by
  cases value with
  | byte value =>
      cases call with
      | byte =>
          have hone : storage.view.unread = LittleEndian.toBytes 1 value.toNat ++ rest := by
            simpa [BufferValue.bytes, LittleEndian.toBytes] using hunread
          have hread := h.read_number value.toNat_lt hone
          simp [Storage.read, Storage.readByte, hread, BufferValue.bytes]
      | _ => simp [BufferRead.asksFor] at hasks
  | short value =>
      cases call with
      | short =>
          have hread := h.read_number value.toNat_lt hunread
          simp [Storage.read, Storage.readShort, hread, BufferValue.bytes]
      | _ => simp [BufferRead.asksFor] at hasks
  | int value =>
      cases call with
      | int =>
          have hread := h.read_number value.toNat_lt hunread
          simp [Storage.read, Storage.readInt, hread, BufferValue.bytes]
      | _ => simp [BufferRead.asksFor] at hasks
  | long value =>
      cases call with
      | long =>
          have hread := h.read_number value.toNat_lt hunread
          simp [Storage.read, Storage.readLong, hread, BufferValue.bytes]
      | _ => simp [BufferRead.asksFor] at hasks
  | float bits =>
      cases call with
      | float =>
          have hread := h.read_number bits.toNat_lt hunread
          simp [Storage.read, Storage.readFloat, hread, BufferValue.bytes]
      | _ => simp [BufferRead.asksFor] at hasks
  | double bits =>
      cases call with
      | double =>
          have hread := h.read_number bits.toNat_lt hunread
          simp [Storage.read, Storage.readDouble, hread, BufferValue.bytes]
      | _ => simp [BufferRead.asksFor] at hasks
  | nts str =>
      cases call with
      | nts =>
          have hnext : storage.view.unread = str ++ 0 :: rest := by
            simpa [BufferValue.bytes] using hunread
          simp [Storage.read, h.read_nts hends hnext, BufferValue.bytes]
      | _ => simp [BufferRead.asksFor] at hasks
  | buffer bytes =>
      cases call with
      | buffer out =>
          have hlen : out.length = bytes.length := by simpa [BufferRead.asksFor] using hasks
          simp [Storage.read, h.read_buffer hlen hunread, BufferValue.bytes]
      | _ => simp [BufferRead.asksFor] at hasks

/-- What a write adds to the values that are still to be read. -/
theorem pending_write (h : s.valuesRead = s.written.take s.valuesRead.length)
    (value : BufferValue) :
    (s.written ++ [value]).drop s.valuesRead.length = s.pending ++ [value] := by
  have hle : s.valuesRead.length ≤ s.written.length := by
    have hlen := congrArg List.length h
    rw [List.length_take] at hlen
    omega
  rw [pending, List.drop_append_of_le_length hle]

/-- A call that meets the condition leaves a queue a queue. -/
theorem Queue.step (h : s.Queue) {call : BufferCall} (hasks : s.AsksNext call)
    (hstep : s.InStep call) : (s.step call).Queue := by
  cases call with
  | write value fresh =>
      obtain ⟨howning, -⟩ := h.owning.write fresh value
      rw [BufferUse.step, if_neg (by simp [h.going])]
      refine ⟨⟨h.going, ?_, ?_⟩, howning⟩
      · have hlen := congrArg List.length h.values
        rw [List.length_take] at hlen
        show s.valuesRead = (s.written ++ [value]).take s.valuesRead.length
        rw [List.take_append_of_le_length (by omega)]
        exact h.values
      · have hview := h.owning.view_write fresh hstep
        show (s.storage.write fresh value).view.unread =
          ((s.written ++ [value]).drop s.valuesRead.length).flatMap BufferValue.bytes
        rw [hview, pending_write h.values, List.flatMap_append, List.flatMap_singleton]
        show s.storage.view.unread ++ value.bytes = _
        rw [h.unread]
  | read call =>
      obtain ⟨value, hnext, hcall⟩ := hasks
      obtain ⟨rest, hpending, hunread, htake, hdrop⟩ := h.next hnext
      have hordered := h.owning.toOrdered
      have hread := read_next hordered hcall (hstep value hnext) hunread
      have hlen : value.bytes.length ≤ s.storage.view.unread.length := by
        rw [hunread, List.length_append]
        exact Nat.le_add_right _ _
      obtain ⟨hmoved, hview⟩ := hordered.inc_read_cursor hlen
      rw [BufferUse.step, if_neg (by simp [h.going]), hread]
      refine ⟨⟨h.going, ?_, ?_⟩, ⟨hmoved, h.owning.owner, h.owning.room⟩⟩
      · show s.valuesRead ++ [value] = s.written.take (s.valuesRead ++ [value]).length
        rw [List.length_append, List.length_singleton, htake]
      · show (s.storage.incReadCursor value.bytes.length).view.unread =
          (s.written.drop (s.valuesRead ++ [value]).length).flatMap BufferValue.bytes
        rw [hview, List.length_append, List.length_singleton, hdrop]
        show s.storage.view.unread.drop value.bytes.length = _
        rw [hunread, List.drop_left' rfl]

/-- A call that leaves a queue in order meets the condition. -/
theorem Queue.in_step (h : s.Queue) {call : BufferCall} (hasks : s.AsksNext call)
    (hshown : (s.step call).InOrder) : s.InStep call := by
  cases call with
  | write value fresh =>
      intro hgrows
      have hunread := hshown.unread
      rw [BufferUse.step, if_neg (by simp [h.going])] at hunread
      have hlen := congrArg List.length hunread
      have hbefore := congrArg List.length h.unread
      have hle := h.owning.read
      rw [h.owning.toOrdered.unread_length] at hbefore
      rw [h.owning.write_unread_length, if_pos hgrows, pending, pending_write h.values,
        List.flatMap_append, List.length_append, ← hbefore, List.flatMap_singleton] at hlen
      show s.storage.writeCursor = _
      omega
  | read call =>
      intro value hnext
      cases value with
      | nts str =>
          obtain ⟨other, hother, hcall⟩ := hasks
          obtain rfl : .nts str = other := Option.some.inj (hnext.symm.trans hother)
          obtain ⟨rest, hpending, hunread, htake, -⟩ := h.next hnext
          cases call with
          | nts =>
              have hnul : 0 ∈ s.storage.view.unread := by
                simp [hunread, BufferValue.bytes]
              obtain ⟨ret, hread, hret, -⟩ := h.owning.toOrdered.read_nts_stops hnul
              have hvalues := hshown.values
              rw [BufferUse.step, if_neg (by simp [h.going]), Storage.read, hread] at hvalues
              have hsame : s.valuesRead ++ [.nts ret] = s.valuesRead ++ [.nts str] := by
                rw [← htake]
                simpa using hvalues
              have hstr : BufferValue.nts ret = .nts str := by simpa using hsame
              rw [← BufferValue.nts.inj hstr]
              exact hret
          | _ => simp [BufferRead.asksFor] at hcall
      | _ => trivial

theorem start_queue (memory : Bytes) (allocSize : Nat) : (start memory allocSize).Queue where
  going := rfl
  values := rfl
  unread := rfl
  owning := ⟨⟨le_rfl, Nat.zero_le _⟩, rfl, Nat.zero_le _⟩

/-- A use that is not stuck has written what its calls write, and read once for each read. -/
theorem after_use (memory : Bytes) (allocSize : Nat) (run : List BufferCall)
    (hgoing : (after step (start memory allocSize) run).stuck = false) :
    (after step (start memory allocSize) run).written = run.filterMap BufferCall.written ∧
      (after step (start memory allocSize) run).valuesRead.length =
        run.countP BufferCall.isRead := by
  induction run using List.reverseRecOn with
  | nil => exact ⟨rfl, rfl⟩
  | append_singleton run call ih =>
      rw [after_concat] at hgoing ⊢
      have hbefore : (after step (start memory allocSize) run).stuck = false := by
        cases hstuck : (after step (start memory allocSize) run).stuck with
        | false => rfl
        | true => cases call <;> simp [step, hstuck] at hgoing
      obtain ⟨hwritten, hread⟩ := ih hbefore
      cases call with
      | write value fresh =>
          simp [step, hbefore, hwritten, hread, List.filterMap_append, BufferCall.written,
            BufferCall.isRead]
      | read call =>
          simp only [step, hbefore, Bool.false_eq_true, if_false] at hgoing ⊢
          cases hresult : (after step (start memory allocSize) run).storage.read call with
          | none => simp [hresult] at hgoing
          | some result =>
              simp [hwritten, hread, List.filterMap_append, BufferCall.written, BufferCall.isRead]

end BufferUse

/-- The values that the reads of a run return are those that were written first, in order, and what
is left to read are the bytes of the others. -/
structure ReadsInOrder (memory : Bytes) (allocSize : Nat) (run : List BufferCall) : Prop where
  going : (after BufferUse.step (.start memory allocSize) run).stuck = false
  values : (after BufferUse.step (.start memory allocSize) run).valuesRead =
    (run.filterMap BufferCall.written).take (run.countP BufferCall.isRead)
  unread : (after BufferUse.step (.start memory allocSize) run).storage.view.unread =
    ((run.filterMap BufferCall.written).drop (run.countP BufferCall.isRead)).flatMap
      BufferValue.bytes

theorem reads_in_order_iff (memory : Bytes) (allocSize : Nat) (run : List BufferCall) :
    ReadsInOrder memory allocSize run ↔
      (after BufferUse.step (.start memory allocSize) run).InOrder := by
  constructor
  · intro h
    obtain ⟨hwritten, hread⟩ := BufferUse.after_use memory allocSize run h.going
    exact ⟨h.going, by rw [hwritten, hread, h.values], by
      rw [BufferUse.pending, hwritten, hread, h.unread]⟩
  · intro h
    obtain ⟨hwritten, hread⟩ := BufferUse.after_use memory allocSize run h.going
    refine ⟨h.going, ?_, ?_⟩
    · rw [← hwritten, ← hread]
      exact h.values
    · rw [← hwritten, ← hread]
      exact h.unread

/-- While the run is not stuck, its reads ask for what is pending. -/
theorem AsksInOrder.asks_next {run : List BufferCall} (h : AsksInOrder run) (memory : Bytes)
    (allocSize : Nat) :
    AtEach BufferUse.step (.start memory allocSize)
      (fun s call => s.stuck = false → s.AsksNext call) run := by
  intro before call rest heq hgoing
  have hasks := h before call rest heq
  obtain ⟨hwritten, hread⟩ := BufferUse.after_use memory allocSize before hgoing
  cases call with
  | write value fresh => trivial
  | read call =>
      rw [BufferCall.asksNext, ← hwritten, ← hread, Option.any_eq_true] at hasks
      obtain ⟨value, hvalue, hcall⟩ := hasks
      exact ⟨value, by rw [BufferUse.pending, List.head?_drop, hvalue], hcall⟩

/-- In a run on a buffer of its own, whose reads ask for the type that was written next, the values
that are read are at every point those that were written first, and what is left to read the bytes
of the others, if and only if each write that has to grow the block finds half of what was written
read, and each string that is read has no NUL. -/
theorem values_in_order_iff (memory : Bytes) (allocSize : Nat) {run : List BufferCall}
    (hasks : AsksInOrder run) :
    (∀ before, before <+: run → ReadsInOrder memory allocSize before) ↔
      AtEach BufferUse.step (.start memory allocSize) BufferUse.InStep run := by
  rw [← shown_throughout_iff_of_allowed (hasks.asks_next memory allocSize)
    (BufferUse.start_queue memory allocSize) (fun _ h => h.toInOrder)
    (fun _ _ hnext h => h.step (hnext h.going)) (fun _ _ hnext h => h.in_step (hnext h.going))]
  exact forall₂_congr fun before _ => reads_in_order_iff memory allocSize before

/-- A block of four bytes grows when one of two bytes has been read. -/
theorem values_in_order_of_string :
    ReadsInOrder (ascii "xxxx") 4 [.write (.byte 7) [], .write (.byte 8) [], .read .byte,
      .write (.nts (ascii "a")) [], .read .byte, .read .nts] :=
  (values_in_order_iff (ascii "xxxx") 4 (by decide)).mpr (by decide) _ List.prefix_rfl

/-- The block grows before anything is read, and the reader is at its end. -/
theorem grown_reads_nothing :
    ¬ ∀ (memory : Bytes) (allocSize : Nat) (run : List BufferCall), AsksInOrder run →
      ∀ before, before <+: run → ReadsInOrder memory allocSize before := by
  intro h
  have hvalues := (h (ascii "xx") 2 [.write (.byte 7) [], .write (.byte 8) [], .read .byte]
    (by decide) _ List.prefix_rfl).values
  exact absurd hvalues (by decide)

end OpenSpy
