import OpenSpy.Library.Ascii
import OpenSpy.Library.Runs

/-!
# The send buffer of a peer

`INetPeer::append_send_buffer` queues a buffer from any thread and wakes the loop up, which hands
what is queued to `uv_write` in one request. One flag on the peer stands for a buffer that was
appended with `close_after`, and whatever write completes next closes the socket. Each buffer in
the queue and each write in flight holds a reference, and so does each handle that is closed. The
call tests the flags before it locks the mutex, so that the socket may be closed in between.
`sends_right_iff` says when all of this comes out even.
-/

namespace OpenSpy.Net

open Bytes Runs

/-- The members of `INetPeer` that sending uses. The reference of the driver keeps the count above
zero, so that no callback deletes the peer itself. -/
structure INetPeer where
  sendBuffer : List Bytes
  closeWhenSendbufferEmpty : Bool
  deleteFlag : Bool
  socketDeleted : Bool
  refCount : Int
  deriving DecidableEq

namespace INetPeer

variable (peer : INetPeer)

/-- The test of `append_send_buffer`, without the mutex: a call on a peer that is gone returns at
once. -/
def appendTest : Bool :=
  !(peer.deleteFlag || peer.socketDeleted)

/-- What `append_send_buffer` does with the mutex locked. -/
def appendLocked (buffer : Bytes) : INetPeer :=
  { peer with sendBuffer := peer.sendBuffer ++ [buffer], refCount := peer.refCount + 1 }

/-- What `append_send_buffer` does with the mutex unlocked, but for `uv_async_send`. -/
def appendUnlocked (closeAfter : Bool) : INetPeer :=
  if closeAfter then { peer with closeWhenSendbufferEmpty := true } else peer

/-- `clear_send_buffer`, with the buffers that it hands to `uv_write`. Whether that takes them
makes no difference to the peer. -/
def clearSendBuffer : INetPeer × List Bytes :=
  if peer.sendBuffer.isEmpty then (peer, [])
  else
    ({ peer with
        sendBuffer := []
        refCount := peer.refCount - peer.sendBuffer.length + 1 },
      peer.sendBuffer)

/-- `CloseSocket`, with the number of handles that are closed. -/
def closeSocket : INetPeer × Nat :=
  if peer.socketDeleted then (peer, 0)
  else ({ peer with socketDeleted := true, refCount := peer.refCount + 1 + 1 }, 2)

/-- `write_callback`, with the number of handles that are closed. Every `Delete` sets the flag. -/
def writeCallback : INetPeer × Nat :=
  let peer := { peer with refCount := peer.refCount - 1 }
  if peer.closeWhenSendbufferEmpty then
    let closed := peer.closeSocket
    ({ closed.1 with deleteFlag := true }, closed.2)
  else (peer, 0)

/-- `close_callback`. -/
def closeCallback : INetPeer :=
  { peer with refCount := peer.refCount - 1 }

end INetPeer

/-- A write that libuv has taken, and whether one of its buffers was appended with `close_after`,
which the code does not know. -/
structure WriteRequest where
  buffers : List Bytes
  closes : Bool
  deriving DecidableEq

/-- A peer and the loop: the writes in flight, whether a wake-up is pending, the number of handles
being closed, and the calls of `append_send_buffer`: those that have passed the test but not locked
the mutex (`entered`), and those that have unlocked it but not sent their wake-up (`calls`), each
with its `close_after`. The rest records what happened: the buffers that were appended and handed
over, whether one with `close_after` is queued, and whether the write of one has completed. -/
structure NetSystem where
  peer : INetPeer
  inFlight : List WriteRequest
  wakeUp : Bool
  closing : Nat
  entered : List (Bytes × Bool)
  calls : List Bool
  appended : List Bytes
  handed : List Bytes
  closeQueued : Bool
  closeWritten : Bool

/-- What happens to a peer: `NetSystem.step` says how. -/
inductive NetEvent where
  | append (buffer : Bytes) (closeAfter : Bool)
  | push (entry : Nat)
  | finish (call : Nat)
  | clear (accepted : Bool)
  | complete (write : Nat)
  | closed

namespace NetSystem

/-- A peer that nothing was sent on, with the references that it has. -/
def start (refCount : Int) : NetSystem :=
  { peer := ⟨[], false, false, false, refCount⟩
    inFlight := [], wakeUp := false, closing := 0, entered := [], calls := []
    appended := [], handed := [], closeQueued := false, closeWritten := false }

variable (s : NetSystem)

/-- A thread calls `append_send_buffer`, up to locking the mutex. -/
def append (buffer : Bytes) (closeAfter : Bool) : NetSystem :=
  if s.peer.appendTest then { s with entered := s.entered ++ [(buffer, closeAfter)] } else s

/-- A call that has passed the test goes on up to unlocking the mutex. -/
def push (entry : Nat) : NetSystem :=
  match s.entered[entry]? with
  | none => s
  | some (buffer, closeAfter) =>
      { s with
        peer := s.peer.appendLocked buffer
        entered := s.entered.eraseIdx entry
        calls := s.calls ++ [closeAfter]
        appended := s.appended ++ [buffer]
        closeQueued := s.closeQueued || closeAfter }

/-- A call goes on to its end, `uv_async_send`. -/
def finish (call : Nat) : NetSystem :=
  match s.calls[call]? with
  | none => s
  | some closeAfter =>
      { s with
        peer := s.peer.appendUnlocked closeAfter
        wakeUp := true
        calls := s.calls.eraseIdx call }

/-- The loop runs `clear_send_buffer`, and `uv_write` returns zero or not. The callback of a
handle that is being closed does not run. -/
def clear (accepted : Bool) : NetSystem :=
  if s.wakeUp = true ∧ s.peer.socketDeleted = false then
    let cleared := s.peer.clearSendBuffer
    { s with
      peer := cleared.1
      wakeUp := false
      handed := s.handed ++ cleared.2
      closeQueued := false
      inFlight :=
        if cleared.2 ≠ [] ∧ accepted = true then s.inFlight ++ [⟨cleared.2, s.closeQueued⟩]
        else s.inFlight }
  else s

/-- A write in flight completes. -/
def complete (write : Nat) : NetSystem :=
  match s.inFlight[write]? with
  | none => s
  | some request =>
      let written := s.peer.writeCallback
      { s with
        peer := written.1
        inFlight := s.inFlight.eraseIdx write
        closing := s.closing + written.2
        closeWritten := s.closeWritten || request.closes }

/-- A handle that is being closed is closed. -/
def closed : NetSystem :=
  if s.closing = 0 then s
  else { s with peer := s.peer.closeCallback, closing := s.closing - 1 }

/-- One event. -/
def step : NetEvent → NetSystem
  | .append buffer closeAfter => s.append buffer closeAfter
  | .push entry => s.push entry
  | .finish call => s.finish call
  | .clear accepted => s.clear accepted
  | .complete write => s.complete write
  | .closed => s.closed

/-- What is appended is handed over in order, each buffer once: what is missing is queued, and
will be served. The socket is closed only once a write has completed that held a buffer appended
with `close_after`. Every reference beyond those at the start belongs to a buffer in the queue, a
write in flight or a handle being closed, so that none is left when these are gone. -/
structure SendsRight (refCount : Int) : Prop where
  order : s.appended = s.handed ++ s.peer.sendBuffer
  served : s.peer.sendBuffer ≠ [] →
    s.peer.socketDeleted = false ∧ (s.wakeUp = true ∨ s.calls ≠ [])
  close : s.peer.socketDeleted = true → s.closeWritten = true
  refs : s.peer.refCount =
    refCount + s.peer.sendBuffer.length + s.inFlight.length + s.closing

/-- A write that completes and finds the flag set on an open socket: one with a `close_after`
buffer has been written by then, and nothing is queued. -/
def ClosesInTime (write : WriteRequest) : Prop :=
  s.peer.closeWhenSendbufferEmpty = true → s.peer.socketDeleted = false →
    (s.closeWritten = true ∨ write.closes = true) ∧ s.peer.sendBuffer = []

/-- `uv_write` refuses nothing, no write closes the socket too early, and no call queues its buffer
when the socket has been closed behind its test. -/
def Lossless : NetEvent → Prop
  | .push entry => entry < s.entered.length → s.peer.socketDeleted = false
  | .clear accepted =>
      s.wakeUp = true → s.peer.socketDeleted = false → s.peer.sendBuffer ≠ [] → accepted = true
  | .complete write => ∀ request ∈ s.inFlight[write]?, s.ClosesInTime request
  | .append .. | .finish _ | .closed => True

variable {s : NetSystem} {refCount : Int}

/-- The test of a call does nothing to the peer. -/
theorem SendsRight.append (h : s.SendsRight refCount) (buffer : Bytes) (closeAfter : Bool) :
    (s.append buffer closeAfter).SendsRight refCount := by
  unfold NetSystem.append
  split
  · exact ⟨h.order, h.served, h.close, h.refs⟩
  · exact h

/-- A call gets its buffer into the queue, and has a wake-up before it. On a socket that is closed
the buffer stays there. -/
theorem SendsRight.push_iff (h : s.SendsRight refCount) (entry : Nat) :
    (s.push entry).SendsRight refCount ↔ s.Lossless (.push entry) := by
  unfold NetSystem.push Lossless
  cases hentry : s.entered[entry]? with
  | none =>
      have hlength := List.getElem?_eq_none_iff.mp hentry
      exact iff_of_true h fun hlt => absurd hlt (by omega)
  | some call =>
      obtain ⟨buffer, closeAfter⟩ := call
      have hlt := (List.getElem?_eq_some_iff.mp hentry).1
      have hrefs := h.refs
      constructor
      · exact fun hafter _ => (hafter.served (by simp [INetPeer.appendLocked])).1
      · intro hopen
        refine ⟨by simp [INetPeer.appendLocked, h.order],
          fun _ => ⟨hopen hlt, .inr (by simp)⟩, h.close, ?_⟩
        simp only [INetPeer.appendLocked, List.length_append, List.length_singleton]
        omega

/-- The end of a call wakes the loop up. -/
theorem SendsRight.finish (h : s.SendsRight refCount) (call : Nat) :
    (s.finish call).SendsRight refCount := by
  unfold NetSystem.finish
  split
  · exact h
  · rename_i closeAfter _
    cases closeAfter <;>
      exact ⟨h.order, fun hne => ⟨(h.served hne).1, .inl rfl⟩, h.close, h.refs⟩

/-- The loop hands everything over. The reference that it takes for the write is one too many if
`uv_write` refuses. -/
theorem SendsRight.clear_iff (h : s.SendsRight refCount) (accepted : Bool) :
    (s.clear accepted).SendsRight refCount ↔ s.Lossless (.clear accepted) := by
  unfold NetSystem.clear Lossless
  by_cases hruns : s.wakeUp = true ∧ s.peer.socketDeleted = false
  · obtain ⟨hwake, hopen⟩ := hruns
    rw [if_pos ⟨hwake, hopen⟩]
    extract_lets cleared
    have hrefs := h.refs
    by_cases hempty : s.peer.sendBuffer = []
    · have hcleared : cleared = (s.peer, []) := by simp [cleared, INetPeer.clearSendBuffer, hempty]
      refine iff_of_true ?_ fun _ _ hne => absurd hempty hne
      rw [hcleared]
      exact ⟨by simpa using h.order, fun hne => absurd hempty hne, h.close, by simpa using hrefs⟩
    · have hcleared : cleared =
          ({ s.peer with
              sendBuffer := []
              refCount := s.peer.refCount - s.peer.sendBuffer.length + 1 },
            s.peer.sendBuffer) := by
        simp [cleared, INetPeer.clearSendBuffer, hempty]
      rw [hcleared]
      constructor
      · intro hafter _ _ _
        by_contra hrefused
        have hrefs' := hafter.refs
        simp only [hrefused, and_false, if_false, List.length_nil] at hrefs'
        omega
      · intro haccepted
        have haccepted := haccepted hwake hopen hempty
        refine ⟨by simpa using h.order, fun hne => absurd rfl hne, ?_, ?_⟩
        · exact fun hclosed => absurd hclosed (by simp [hopen])
        · simp only [haccepted, ne_eq, hempty, not_false_eq_true, and_self, if_true,
            List.length_append, List.length_singleton, List.length_nil]
          omega
  · rw [if_neg hruns]
    exact iff_of_true h fun hwake hopen => absurd ⟨hwake, hopen⟩ hruns

/-- Without the flag a write only gives its reference back. -/
theorem write_callback_stays {peer : INetPeer} (hflag : peer.closeWhenSendbufferEmpty = false) :
    peer.writeCallback = ({ peer with refCount := peer.refCount - 1 }, 0) := by
  simp [INetPeer.writeCallback, hflag]

/-- On a socket that is closed already, too. -/
theorem write_callback_closed {peer : INetPeer} (hflag : peer.closeWhenSendbufferEmpty = true)
    (hgone : peer.socketDeleted = true) :
    peer.writeCallback = ({ peer with refCount := peer.refCount - 1, deleteFlag := true }, 0) := by
  simp [INetPeer.writeCallback, INetPeer.closeSocket, hflag, hgone]

/-- An open one is closed. -/
theorem write_callback_closes {peer : INetPeer} (hflag : peer.closeWhenSendbufferEmpty = true)
    (hopen : peer.socketDeleted = false) :
    peer.writeCallback =
      ({ peer with
          refCount := peer.refCount - 1 + 1 + 1, socketDeleted := true, deleteFlag := true },
        2) := by
  simp [INetPeer.writeCallback, INetPeer.closeSocket, hflag, hopen]

/-- A write takes its reference along, and the handles that it closes have theirs. -/
theorem SendsRight.complete_iff (h : s.SendsRight refCount) (write : Nat) :
    (s.complete write).SendsRight refCount ↔
      ∀ request ∈ s.inFlight[write]?, s.ClosesInTime request := by
  unfold NetSystem.complete
  cases hrequest : s.inFlight[write]? with
  | none => exact iff_of_true h (by simp)
  | some request =>
      have hlength : (s.inFlight.eraseIdx write).length + 1 = s.inFlight.length := by
        have hlt := (List.getElem?_eq_some_iff.mp hrequest).1
        rw [List.length_eraseIdx_of_lt hlt]
        omega
      have hrefs := h.refs
      simp only [Option.mem_some_iff, forall_eq']
      cases hflag : s.peer.closeWhenSendbufferEmpty with
      | false =>
          rw [write_callback_stays hflag]
          refine iff_of_true ⟨h.order, h.served, fun hgone => by simp [h.close hgone], ?_⟩ ?_
          · simp only
            omega
          · exact fun hset => absurd hset (by simp [hflag])
      | true =>
          cases hgone : s.peer.socketDeleted with
          | true =>
              rw [write_callback_closed hflag hgone]
              refine iff_of_true ⟨h.order, h.served, fun hgone => by simp [h.close hgone], ?_⟩ ?_
              · simp only
                omega
              · exact fun _ hopen => absurd hopen (by simp [hgone])
          | false =>
              rw [write_callback_closes hflag hgone]
              constructor
              · intro hafter _ _
                refine ⟨by simpa using hafter.close rfl, ?_⟩
                by_contra hne
                exact absurd (hafter.served hne).1 (by simp)
              · intro hintime
                obtain ⟨hclose, hempty⟩ := hintime hflag hgone
                refine ⟨h.order, fun hne => absurd hempty hne, fun _ => by simpa using hclose, ?_⟩
                simp only
                omega

/-- A closed handle gives its reference back. -/
theorem SendsRight.closed (h : s.SendsRight refCount) : s.closed.SendsRight refCount := by
  unfold NetSystem.closed
  split
  · exact h
  · refine ⟨h.order, h.served, h.close, ?_⟩
    have hrefs := h.refs
    simp only [INetPeer.closeCallback]
    omega

/-- One event keeps everything even exactly if it loses nothing. -/
theorem step_right_iff (h : s.SendsRight refCount) (event : NetEvent) :
    (s.step event).SendsRight refCount ↔ s.Lossless event := by
  cases event with
  | append buffer closeAfter => exact iff_of_true (h.append buffer closeAfter) trivial
  | push entry => exact h.push_iff entry
  | finish call => exact iff_of_true (h.finish call) trivial
  | clear accepted => exact h.clear_iff accepted
  | complete write => exact h.complete_iff write
  | closed => exact iff_of_true h.closed trivial

/-- What was appended is sent before the close and the references come out even, in every state
of a run, exactly if `uv_write` refuses no buffer of the run, every write that closes the socket
comes behind the one with the `close_after` buffer and finds nothing queued, and nothing is queued
behind it by a call that has passed its test before. -/
theorem sends_right_iff (refCount : Int) (run : List NetEvent) :
    (∀ before, before <+: run → (after step (start refCount) before).SendsRight refCount) ↔
      AtEach step (start refCount) Lossless run := by
  have hstart : (start refCount).SendsRight refCount :=
    ⟨rfl, fun hne => absurd rfl hne, by simp [start], by simp [start]⟩
  exact @throughout_iff _ _ step _ (SendsRight · refCount) Lossless hstart
    (fun _ event h => step_right_iff h event) run

/-- A buffer is on its way when another is appended that is to close the socket. -/
def closedEarly : List NetEvent :=
  [.append (ascii "first") false, .push 0, .finish 0, .clear true, .append (ascii "last") true,
    .push 0, .finish 0, .complete 0]

theorem first_write_closes :
    ¬ ∀ (refCount : Int) (run : List NetEvent),
      (after step (start refCount) run).SendsRight refCount := by
  intro h
  have hclose := (h 1 closedEarly).close
  revert hclose
  decide

end NetSystem

end OpenSpy.Net
