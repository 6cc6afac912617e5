import OpenSpy.Core.NetPeer

/-!
# The life of a peer

A `TCPDriver` lists the peers that it accepts and holds a reference to each. Every task for a peer
holds one, every buffer in the queue, every write in flight and every handle that is being closed.
`LLIterator_TickOrDeleteClient` takes a peer that is to be deleted off the list once the driver's
reference is the last one and closes its handles. The last handle's callback deletes the peer.

The events are those of the loop and of the threads that run tasks, in any order. A thread that
runs a task is in `append_send_buffer` while others go on, in front of the mutex or behind it; it
has its reference until it comes out. The loop's own calls are one event: only the loop closes the
socket, and what a thread does in between comes as if behind the call.
A subclass may have handles of its own that `CloseSocket` closes, too (`ownHandles`).
`Ledger` is the invariant: where the references are, and that the peer is deleted when there are
none.
-/

namespace OpenSpy.Net

open Runs

/-- A peer with what refers to it: the writes in flight, the handles that are being closed, the
references of tasks and the driver's list. A wake-up may be pending, and calls of
`append_send_buffer` that have passed its test but not locked the mutex (`entered`) or that have
unlocked it but not sent their wake-up (`calls`), each with its `close_after`. The rest records what
happened: how many writes `uv_write` has refused, how often the peer was deleted, and whether it
was used when it was deleted already. -/
structure ServedPeer where
  peer : INetPeer
  inFlight : Nat
  wakeUp : Bool
  entered : List (Bytes × Bool)
  calls : List Bool
  closing : Nat
  tasks : Nat
  listed : Bool
  refused : Nat
  deletes : Nat
  misused : Bool

/-- What happens to a peer. `send` is a call of `append_send_buffer` by the loop, `append`, `push`
and `finish` are the parts of one by a task. -/
inductive PeerEvent where
  | send (buffer : Bytes) (closeAfter : Bool)
  | append (buffer : Bytes) (closeAfter : Bool)
  | push (entry : Nat)
  | finish (call : Nat)
  | takeRef
  | dropRef
  | delete
  | tick
  | clear (accepted : Bool)
  | complete
  | closed

namespace ServedPeer

/-- A peer that `on_new_connection` has added to the list. -/
def accepted : ServedPeer :=
  { peer := ⟨[], false, false, false, 1⟩
    inFlight := 0, wakeUp := false, entered := [], calls := [], closing := 0, tasks := 0
    listed := true, refused := 0, deletes := 0, misused := false }

section Model

variable (ownHandles : Nat) (s : ServedPeer)

/-- Something that is done to the peer, which must not have been deleted. -/
def use (action : ServedPeer → ServedPeer) : ServedPeer :=
  if s.deletes = 0 then action s else { s with misused := true }

/-- `IncRef` and `DecRef`. -/
def addRef (n : Int) : ServedPeer :=
  { s with peer := { s.peer with refCount := s.peer.refCount + n } }

/-- `append_send_buffer` until it locks the mutex. -/
def append (buffer : Bytes) (closeAfter : Bool) : ServedPeer :=
  if s.peer.appendTest then { s with entered := s.entered ++ [(buffer, closeAfter)] } else s

/-- `append_send_buffer` with the mutex locked. -/
def push (entry : Nat) : ServedPeer :=
  match s.entered[entry]? with
  | none => s
  | some (buffer, closeAfter) =>
      { s with
        peer := s.peer.appendLocked buffer
        entered := s.entered.eraseIdx entry
        calls := s.calls ++ [closeAfter] }

/-- The rest of `append_send_buffer`. -/
def finish (call : Nat) : ServedPeer :=
  match s.calls[call]? with
  | none => s
  | some closeAfter =>
      { s with
        peer := s.peer.appendUnlocked closeAfter
        wakeUp := true
        calls := s.calls.eraseIdx call }

/-- `append_send_buffer`. -/
def send (buffer : Bytes) (closeAfter : Bool) : ServedPeer :=
  if s.peer.appendTest then
    { s with peer := (s.peer.appendLocked buffer).appendUnlocked closeAfter, wakeUp := true }
  else s

/-- `clear_send_buffer`, where `uv_write` returns zero or not. -/
def clear (accepted : Bool) : ServedPeer :=
  let cleared := s.peer.clearSendBuffer
  if cleared.2.isEmpty then { s with wakeUp := false }
  else if accepted then
    { s with peer := cleared.1, wakeUp := false, inFlight := s.inFlight + 1 }
  else { s with peer := cleared.1, wakeUp := false, refused := s.refused + 1 }

/-- `CloseSocket`. -/
def closeSocket : ServedPeer :=
  if s.peer.socketDeleted then
    if s.peer.refCount = 0 then { s with deletes := s.deletes + 1 } else s
  else
    let closed := s.peer.closeSocket
    ({ s with peer := closed.1, closing := s.closing + closed.2 + ownHandles }).addRef ownHandles

/-- `Delete`. -/
def delete : ServedPeer :=
  { s with peer := { s.peer with deleteFlag := true } }

/-- `write_callback`. -/
def complete : ServedPeer :=
  let s := ({ s with inFlight := s.inFlight - 1 }).addRef (-1)
  if s.peer.closeWhenSendbufferEmpty then (s.closeSocket ownHandles).use delete else s

/-- `close_callback`. -/
def closed : ServedPeer :=
  let s := ({ s with closing := s.closing - 1 }).addRef (-1)
  if s.peer.refCount = 0 then { s with deletes := s.deletes + 1 } else s

/-- `LLIterator_TickOrDeleteClient`. What a peer does in `think` are events of their own. -/
def tickOrDeleteClient : ServedPeer :=
  if s.peer.refCount = 0 then s
  else if s.peer.deleteFlag && s.peer.refCount == 1 then
    (({ s with listed := false }).addRef (-1)).closeSocket ownHandles
  else s

/-- One event. The loop comes to a peer from the list and from the callbacks of its handles, which
are not called any more when they are being closed, and a task has its reference to do so. -/
def step : PeerEvent → ServedPeer
  | .send buffer closeAfter => if s.listed then s.use (·.send buffer closeAfter) else s
  | .append buffer closeAfter =>
      if s.entered.length + s.calls.length < s.tasks then s.use (·.append buffer closeAfter) else s
  | .push entry => if entry < s.entered.length then s.use (·.push entry) else s
  | .finish call => if call < s.calls.length then s.use (·.finish call) else s
  | .takeRef =>
      if s.listed ∨ 0 < s.tasks then
        s.use fun s => ({ s with tasks := s.tasks + 1 }).addRef 1
      else s
  | .dropRef =>
      if s.entered.length + s.calls.length < s.tasks then
        s.use fun s => ({ s with tasks := s.tasks - 1 }).addRef (-1)
      else s
  | .delete => if s.listed ∨ 0 < s.tasks then s.use delete else s
  | .tick => if s.listed then s.use (tickOrDeleteClient ownHandles) else s
  | .clear accepted =>
      if s.wakeUp ∧ s.peer.socketDeleted = false then s.use (·.clear accepted) else s
  | .complete => if 0 < s.inFlight then s.use (complete ownHandles) else s
  | .closed => if 0 < s.closing then s.use closed else s

end Model

/-- Where the references to a peer are. Once the driver has taken it off the list only handles that
are being closed refer to it, and with the last of them it is deleted. -/
structure Ledger (s : ServedPeer) : Prop where
  refs : s.deletes = 0 → s.peer.refCount = s.listed.toNat + s.peer.sendBuffer.length + s.inFlight +
    s.closing + s.tasks + s.refused
  unlisted : s.listed = false → s.peer.deleteFlag = true ∧ s.peer.socketDeleted = true ∧
    s.peer.sendBuffer = [] ∧ s.inFlight = 0 ∧ s.tasks = 0 ∧ s.refused = 0
  deleted : s.deletes = if s.listed = false ∧ s.closing = 0 then 1 else 0
  pinned : s.entered.length + s.calls.length ≤ s.tasks
  served : s.peer.sendBuffer ≠ [] → s.peer.socketDeleted = false →
    s.wakeUp = true ∨ s.calls ≠ []
  clean : s.misused = false

/-- No reference is lost: `uv_write` has refused nothing, and the socket was not closed with
buffers in the queue, or with a call that is to queue one. -/
def Kept (s : ServedPeer) : Prop :=
  s.refused = 0 ∧ (s.peer.socketDeleted = true → s.peer.sendBuffer = [] ∧ s.entered = [])

/-- The events that lose no reference. -/
def KeepsReferences (s : ServedPeer) : PeerEvent → Prop
  | .clear accepted =>
      s.wakeUp = true → s.peer.socketDeleted = false → s.peer.sendBuffer ≠ [] → accepted = true
  | .complete =>
      0 < s.inFlight → s.peer.closeWhenSendbufferEmpty = true → s.peer.socketDeleted = false →
        s.peer.sendBuffer = [] ∧ s.entered = []
  | .send .. | .append .. | .push _ | .finish _ | .takeRef | .dropRef | .delete | .tick
  | .closed => True

/-- How much there is to be done until the peer is deleted. -/
def left (ownHandles : Nat) (s : ServedPeer) : Nat :=
  4 * s.entered.length + s.calls.length + 2 * s.peer.sendBuffer.length + s.inFlight + s.closing +
    s.tasks + s.listed.toNat + (!s.peer.deleteFlag).toNat +
      (!s.peer.socketDeleted).toNat * (3 + ownHandles)

variable {ownHandles : Nat} {s : ServedPeer}

@[simp] theorem use_alive (h : s.deletes = 0) (action : ServedPeer → ServedPeer) :
    s.use action = action s :=
  if_pos h

/-- A peer that something refers to has not been deleted. -/
theorem Ledger.alive (h : s.Ledger) (hused : s.listed = true ∨ 0 < s.closing) : s.deletes = 0 := by
  rw [h.deleted, if_neg]
  rintro ⟨hlisted, hclosing⟩
  simp [hlisted, hclosing] at hused

/-- Tasks, writes and calls are there for listed peers only. -/
theorem Ledger.listed_of_used (h : s.Ledger)
    (hused : 0 < s.tasks ∨ 0 < s.inFlight ∨ s.peer.socketDeleted = false) : s.listed = true := by
  by_contra hnot
  obtain ⟨-, hgone, -, hwrites, htasks, -⟩ := h.unlisted (by simpa using hnot)
  simp [hgone, hwrites, htasks] at hused

theorem Ledger.append (h : s.Ledger) (hcalls : s.entered.length + s.calls.length < s.tasks)
    (buffer : Bytes) (closeAfter : Bool) : (s.append buffer closeAfter).Ledger := by
  unfold ServedPeer.append
  split
  · refine ⟨h.refs, h.unlisted, h.deleted, ?_, h.served, h.clean⟩
    simp only [List.length_append, List.length_singleton]
    omega
  · exact h

/-- A call that passes on from the front of the mutex to behind it. -/
theorem erase_entered {entry : Nat} (hentry : entry < s.entered.length) :
    (s.entered.eraseIdx entry).length + 1 = s.entered.length := by
  rw [List.length_eraseIdx_of_lt hentry]
  omega

theorem Ledger.push (h : s.Ledger) (hlisted : s.listed = true) {entry : Nat}
    (hentry : entry < s.entered.length) : (s.push entry).Ledger := by
  have hlength := erase_entered hentry
  have hpinned := h.pinned
  rw [ServedPeer.push, List.getElem?_eq_getElem hentry]
  refine ⟨fun halive => ?_, fun hnot => by simp [hlisted] at hnot, h.deleted, ?_, ?_, h.clean⟩
  · have hrefs := h.refs halive
    simp only [INetPeer.appendLocked, List.length_append, List.length_singleton]
    omega
  · simp only [List.length_append, List.length_singleton]
    omega
  · exact fun _ _ => .inr (by simp)

theorem Ledger.finish (h : s.Ledger) {call : Nat} (hcall : call < s.calls.length) :
    (s.finish call).Ledger := by
  obtain ⟨closeAfter, hget⟩ : ∃ closeAfter, s.calls[call]? = some closeAfter :=
    ⟨_, List.getElem?_eq_getElem hcall⟩
  have hlength : (s.calls.eraseIdx call).length + 1 = s.calls.length := by
    rw [List.length_eraseIdx_of_lt hcall]
    omega
  have hpinned := h.pinned
  rw [ServedPeer.finish, hget]
  cases closeAfter <;>
    exact ⟨h.refs, h.unlisted, h.deleted, by simp only; omega, fun _ _ => .inl rfl, h.clean⟩

theorem Ledger.send (h : s.Ledger) (hlisted : s.listed = true) (buffer : Bytes)
    (closeAfter : Bool) : (s.send buffer closeAfter).Ledger := by
  unfold ServedPeer.send
  split
  · refine ⟨fun halive => ?_, fun hnot => by simp [hlisted] at hnot, h.deleted, h.pinned,
      fun _ _ => .inl rfl, h.clean⟩
    have hrefs := h.refs halive
    cases closeAfter <;> simp [INetPeer.appendLocked, INetPeer.appendUnlocked] <;> omega
  · exact h

/-- Without a buffer there is nothing to write. -/
theorem clear_empty (hempty : s.peer.sendBuffer = []) (accepted : Bool) :
    s.clear accepted = { s with wakeUp := false } := by
  simp [ServedPeer.clear, INetPeer.clearSendBuffer, hempty]

/-- The references of the buffers become one of the write. -/
theorem clear_some (hne : s.peer.sendBuffer ≠ []) (accepted : Bool) :
    s.clear accepted =
      { s with
        peer := { s.peer with
          sendBuffer := []
          refCount := s.peer.refCount - s.peer.sendBuffer.length + 1 }
        wakeUp := false
        inFlight := s.inFlight + accepted.toNat
        refused := s.refused + (!accepted).toNat } := by
  cases accepted <;> simp [ServedPeer.clear, INetPeer.clearSendBuffer, hne]

theorem Ledger.clear (h : s.Ledger) (hopen : s.peer.socketDeleted = false) (accepted : Bool) :
    (s.clear accepted).Ledger := by
  have hlisted := h.listed_of_used (.inr (.inr hopen))
  have hrefs := h.refs (h.alive (.inl hlisted))
  by_cases hempty : s.peer.sendBuffer = []
  · rw [clear_empty hempty]
    exact ⟨h.refs, h.unlisted, h.deleted, h.pinned, fun hne => absurd hempty hne, h.clean⟩
  · rw [clear_some hempty]
    refine ⟨fun _ => ?_, fun hnot => by simp [hlisted] at hnot, h.deleted, h.pinned,
      fun hnone => absurd rfl hnone, h.clean⟩
    cases accepted <;> simp only [List.length_nil, Bool.toNat_true, Bool.toNat_false,
      Bool.not_true, Bool.not_false] <;> omega

/-- An open socket is closed, with every handle of the peer. -/
theorem close_socket_open (hopen : s.peer.socketDeleted = false) :
    s.closeSocket ownHandles =
      { s with
        peer := { s.peer with
          socketDeleted := true, refCount := s.peer.refCount + 1 + 1 + ownHandles }
        closing := s.closing + 2 + ownHandles } := by
  simp [ServedPeer.closeSocket, INetPeer.closeSocket, addRef, hopen]

/-- A socket that is closed already is left as it is while something refers to the peer. -/
theorem close_socket_closed (hgone : s.peer.socketDeleted = true) (href : s.peer.refCount ≠ 0) :
    s.closeSocket ownHandles = s := by
  simp [ServedPeer.closeSocket, hgone, href]

/-- What a write does that completes. -/
theorem Ledger.complete_eq (h : s.Ledger) (hwrites : 0 < s.inFlight) :
    s.complete ownHandles =
      if s.peer.closeWhenSendbufferEmpty then
        if s.peer.socketDeleted then
          { s with
            peer := { s.peer with refCount := s.peer.refCount - 1, deleteFlag := true }
            inFlight := s.inFlight - 1 }
        else
          { s with
            peer := { s.peer with
              refCount := s.peer.refCount - 1 + 1 + 1 + ownHandles
              deleteFlag := true
              socketDeleted := true }
            inFlight := s.inFlight - 1
            closing := s.closing + 2 + ownHandles }
      else
        { s with
          peer := { s.peer with refCount := s.peer.refCount - 1 }
          inFlight := s.inFlight - 1 } := by
  have hlisted := h.listed_of_used (.inr (.inl hwrites))
  have halive := h.alive (.inl hlisted)
  have hrefs := h.refs halive
  obtain ⟨written, hwritten⟩ : ∃ written : ServedPeer, written = { s with
      peer := { s.peer with refCount := s.peer.refCount - 1 }, inFlight := s.inFlight - 1 } :=
    ⟨_, rfl⟩
  have hcomplete : s.complete ownHandles =
      if written.peer.closeWhenSendbufferEmpty then (written.closeSocket ownHandles).use delete
      else written := by
    rw [hwritten]
    rfl
  have hflag : written.peer.closeWhenSendbufferEmpty = s.peer.closeWhenSendbufferEmpty := by
    rw [hwritten]
  have hgone : written.peer.socketDeleted = s.peer.socketDeleted := by rw [hwritten]
  have halive' : written.deletes = 0 := by rw [hwritten, halive]
  have href : written.peer.refCount ≠ 0 := by
    rw [hlisted, Bool.toNat_true] at hrefs
    rw [hwritten]
    show s.peer.refCount - 1 ≠ 0
    omega
  rw [hcomplete, hflag]
  split
  · split
    · next hset =>
      rw [close_socket_closed (hgone.trans hset) href, use_alive halive', hwritten]
      rfl
    · next hset =>
      rw [close_socket_open (hgone.trans (by simpa using hset)), use_alive (by exact halive'),
        hwritten]
      rfl
  · exact hwritten

theorem Ledger.complete (h : s.Ledger) (hwrites : 0 < s.inFlight) :
    (s.complete ownHandles).Ledger := by
  have hlisted := h.listed_of_used (.inr (.inl hwrites))
  have hrefs := h.refs (h.alive (.inl hlisted))
  rw [h.complete_eq hwrites]
  split
  · split
    · refine ⟨fun _ => ?_, fun hnot => by simp [hlisted] at hnot, h.deleted, h.pinned, h.served,
        h.clean⟩
      simp only
      omega
    · refine ⟨fun _ => ?_, fun hnot => by simp [hlisted] at hnot, ?_, h.pinned,
        fun _ hopen => by simp at hopen, h.clean⟩
      · simp only
        omega
      · have hdeleted := h.deleted
        simpa [hlisted] using hdeleted
  · refine ⟨fun _ => ?_, fun hnot => by simp [hlisted] at hnot, h.deleted, h.pinned, h.served,
      h.clean⟩
    simp only
    omega

/-- What the callback of a closed handle does. -/
theorem closed_eq :
    s.closed =
      if s.peer.refCount - 1 = 0 then
        { s with
          peer := { s.peer with refCount := s.peer.refCount - 1 }
          closing := s.closing - 1
          deletes := s.deletes + 1 }
      else
        { s with
          peer := { s.peer with refCount := s.peer.refCount - 1 }, closing := s.closing - 1 } :=
  rfl

theorem Ledger.closed (h : s.Ledger) (hclosing : 0 < s.closing) : s.closed.Ledger := by
  have hrefs := h.refs (h.alive (.inr hclosing))
  have hdeleted := h.deleted
  rw [if_neg (by omega)] at hdeleted
  rw [closed_eq]
  by_cases hlisted : s.listed = true
  · rw [hlisted, Bool.toNat_true] at hrefs
    rw [if_neg (by omega)]
    refine ⟨fun _ => ?_, fun hnot => by simp [hlisted] at hnot, ?_, h.pinned, h.served, h.clean⟩
    · simp only [hlisted, Bool.toNat_true]
      omega
    · simpa [hlisted] using hdeleted
  · have hoff : s.listed = false := by simpa using hlisted
    obtain ⟨hflag, hgone, hbuffer, hwrites, htasks, hrefused⟩ := h.unlisted hoff
    simp only [hoff, hbuffer, hwrites, htasks, hrefused, Bool.toNat_false, List.length_nil,
      Nat.cast_zero, Int.add_zero, Int.zero_add] at hrefs
    split
    · next hlast =>
      refine ⟨fun hzero => by simp at hzero, h.unlisted, ?_, h.pinned, h.served, h.clean⟩
      simp only [hoff, hdeleted]
      rw [if_pos ⟨trivial, by omega⟩]
    · next hmore =>
      refine ⟨fun _ => ?_, h.unlisted, ?_, h.pinned, h.served, h.clean⟩
      · simp only [hoff, hbuffer, hwrites, htasks, hrefused, Bool.toNat_false, List.length_nil]
        omega
      · simp only [hoff, hdeleted]
        rw [if_neg (by omega)]

/-- A tick leaves a peer as it is unless the driver's reference is the last one and it is to be
deleted. Then it takes it off the list, and deletes it at once if its socket is closed already. -/
theorem Ledger.tick_eq (h : s.Ledger) (hlisted : s.listed = true) :
    s.tickOrDeleteClient ownHandles =
      if s.peer.deleteFlag = true ∧ s.peer.refCount = 1 then
        if s.peer.socketDeleted then
          { s with
            peer := { s.peer with refCount := 0 }, listed := false, deletes := s.deletes + 1 }
        else
          { s with
            peer := { s.peer with
              refCount := 1 + 1 + ownHandles, socketDeleted := true }
            listed := false
            closing := s.closing + 2 + ownHandles }
      else s := by
  have hrefs := h.refs (h.alive (.inl hlisted))
  rw [hlisted, Bool.toNat_true] at hrefs
  rw [ServedPeer.tickOrDeleteClient, if_neg (by omega)]
  by_cases hlast : s.peer.deleteFlag = true ∧ s.peer.refCount = 1
  · obtain ⟨hflag, hone⟩ := hlast
    rw [if_pos (by simp [hflag, hone]), if_pos ⟨hflag, hone⟩]
    obtain ⟨off, hoff⟩ : ∃ off : ServedPeer,
        off = { s with peer := { s.peer with refCount := 0 }, listed := false } := ⟨_, rfl⟩
    have htaken : ({ s with listed := false }).addRef (-1) = off := by
      rw [hoff]
      simp [addRef, hone]
    have hgone : off.peer.socketDeleted = s.peer.socketDeleted := by rw [hoff]
    rw [htaken]
    split
    · next hset =>
      have hzero : off.peer.refCount = 0 := by rw [hoff]
      rw [ServedPeer.closeSocket, if_pos (hgone.trans hset), if_pos hzero, hoff]
    · next hset =>
      rw [close_socket_open (hgone.trans (by simpa using hset)), hoff]
      simp
  · rw [if_neg (by simpa using hlast), if_neg hlast]

theorem Ledger.tick (h : s.Ledger) (hlisted : s.listed = true) :
    (s.tickOrDeleteClient ownHandles).Ledger := by
  have hrefs := h.refs (h.alive (.inl hlisted))
  have hdeleted := h.deleted
  rw [if_neg (by simp [hlisted])] at hdeleted
  rw [h.tick_eq hlisted]
  split
  · next hlast =>
    obtain ⟨hflag, hone⟩ := hlast
    rw [hlisted, Bool.toNat_true, hone] at hrefs
    have hbuffer : s.peer.sendBuffer = [] := List.eq_nil_of_length_eq_zero (by omega)
    have hwrites : s.inFlight = 0 := by omega
    have hclosing : s.closing = 0 := by omega
    have htasks : s.tasks = 0 := by omega
    have hrefused : s.refused = 0 := by omega
    split
    · next hset =>
      refine ⟨fun hzero => by simp at hzero, fun _ => ⟨hflag, hset, hbuffer, hwrites, htasks,
        hrefused⟩, by simp [hdeleted, hclosing], h.pinned, h.served, h.clean⟩
    · refine ⟨fun _ => ?_, fun _ => ⟨hflag, rfl, hbuffer, hwrites, htasks, hrefused⟩, ?_, h.pinned,
        fun hne => absurd hbuffer hne, h.clean⟩
      · simp only [hbuffer, hwrites, hclosing, htasks, hrefused, Bool.toNat_false,
          List.length_nil]
        omega
      · simpa using hdeleted
  · exact h

theorem Ledger.add_ref (h : s.Ledger) (hlisted : s.listed = true) {tasks : Nat}
    (hpinned : s.entered.length + s.calls.length ≤ tasks) :
    (({ s with tasks := tasks }).addRef (tasks - s.tasks)).Ledger := by
  have hrefs := h.refs (h.alive (.inl hlisted))
  refine ⟨fun _ => ?_, fun hnot => by simp [addRef, hlisted] at hnot, h.deleted, hpinned, h.served,
    h.clean⟩
  simp only [addRef]
  omega

theorem Ledger.delete (h : s.Ledger) : (ServedPeer.delete s).Ledger :=
  ⟨h.refs, fun hoff => ⟨rfl, (h.unlisted hoff).2⟩, h.deleted, h.pinned, h.served, h.clean⟩

/-- Every event keeps the ledger. -/
theorem Ledger.step (h : s.Ledger) (event : PeerEvent) : (s.step ownHandles event).Ledger := by
  have halive : s.listed = true → s.deletes = 0 := fun hlisted => h.alive (.inl hlisted)
  cases event with
  | send buffer closeAfter =>
      rw [ServedPeer.step]
      split
      · next hlisted =>
        rw [use_alive (halive hlisted)]
        exact h.send hlisted buffer closeAfter
      · exact h
  | append buffer closeAfter =>
      rw [ServedPeer.step]
      split
      · next hcalls =>
        rw [use_alive (halive (h.listed_of_used (.inl (by omega))))]
        exact h.append hcalls buffer closeAfter
      · exact h
  | push entry =>
      rw [ServedPeer.step]
      split
      · next hentry =>
        have hpinned := h.pinned
        have hlisted := h.listed_of_used (.inl (by omega))
        rw [use_alive (halive hlisted)]
        exact h.push hlisted hentry
      · exact h
  | finish call =>
      rw [ServedPeer.step]
      split
      · next hcall =>
        have hpinned := h.pinned
        rw [use_alive (halive (h.listed_of_used (.inl (by omega))))]
        exact h.finish hcall
      · exact h
  | takeRef =>
      rw [ServedPeer.step]
      split
      · next hheld =>
        have hlisted : s.listed = true := hheld.elim id fun htasks => h.listed_of_used (.inl htasks)
        rw [use_alive (halive hlisted)]
        have hpinned := h.pinned
        have hadded := @Ledger.add_ref s h hlisted (s.tasks + 1) (by omega)
        have hone : ((s.tasks + 1 : Nat) : Int) - s.tasks = 1 := by omega
        rwa [hone] at hadded
      · exact h
  | dropRef =>
      rw [ServedPeer.step]
      split
      · next hcalls =>
        have hlisted := h.listed_of_used (.inl (by omega))
        rw [use_alive (halive hlisted)]
        have hadded := @Ledger.add_ref s h hlisted (s.tasks - 1) (by omega)
        have hone : ((s.tasks - 1 : Nat) : Int) - s.tasks = -1 := by omega
        rwa [hone] at hadded
      · exact h
  | delete =>
      rw [ServedPeer.step]
      split
      · next hheld =>
        have hlisted : s.listed = true := hheld.elim id fun htasks => h.listed_of_used (.inl htasks)
        rw [use_alive (halive hlisted)]
        exact h.delete
      · exact h
  | tick =>
      rw [ServedPeer.step]
      split
      · next hlisted =>
        rw [use_alive (halive hlisted)]
        exact h.tick hlisted
      · exact h
  | clear accepted =>
      rw [ServedPeer.step]
      split
      · next hruns =>
        rw [use_alive (halive (h.listed_of_used (.inr (.inr hruns.2))))]
        exact h.clear hruns.2 accepted
      · exact h
  | complete =>
      rw [ServedPeer.step]
      split
      · next hwrites =>
        rw [use_alive (halive (h.listed_of_used (.inr (.inl hwrites))))]
        exact h.complete hwrites
      · exact h
  | closed =>
      rw [ServedPeer.step]
      split
      · next hclosing =>
        rw [use_alive (h.alive (.inr hclosing))]
        exact h.closed hclosing
      · exact h

theorem accepted_ledger : accepted.Ledger :=
  ⟨fun _ => rfl, fun hoff => absurd hoff (by decide), rfl, Nat.le_refl 0, fun hne => absurd rfl hne,
    rfl⟩

theorem kept_of_eq {s' : ServedPeer} (hrefused : s'.refused = s.refused)
    (hsocket : s'.peer.socketDeleted = s.peer.socketDeleted)
    (hbuffer : s'.peer.sendBuffer = s.peer.sendBuffer) (hentered : s'.entered = s.entered) :
    s'.Kept ↔ s.Kept := by
  rw [Kept, Kept, hrefused, hsocket, hbuffer, hentered]

/-- A call passes the test on an open socket only. -/
theorem open_of_append_test {peer : INetPeer} (htest : peer.appendTest = true) :
    peer.socketDeleted = false := by
  simp only [INetPeer.appendTest, Bool.not_eq_true', Bool.or_eq_false_iff] at htest
  exact htest.2

theorem kept_of_open (hopen : s.peer.socketDeleted = false) : s.Kept ↔ s.refused = 0 := by
  simp [Kept, hopen]

/-- What is lost stays lost. -/
theorem step_kept_iff (h : s.Ledger) (event : PeerEvent) :
    (s.step ownHandles event).Kept ↔ s.Kept ∧ s.KeepsReferences event := by
  have halive : s.listed = true → s.deletes = 0 := fun hlisted => h.alive (.inl hlisted)
  cases event with
  | send buffer closeAfter =>
      rw [ServedPeer.step, KeepsReferences, and_true]
      split
      · next hlisted =>
        rw [use_alive (halive hlisted), ServedPeer.send]
        split
        · next htest =>
          have hopen := open_of_append_test htest
          rw [kept_of_open hopen, kept_of_open]
          cases closeAfter <;> exact hopen
        · exact Iff.rfl
      · exact Iff.rfl
  | append buffer closeAfter =>
      rw [ServedPeer.step, KeepsReferences, and_true]
      split
      · next hcalls =>
        rw [use_alive (halive (h.listed_of_used (.inl (by omega)))), ServedPeer.append]
        split
        · next htest =>
          have hopen := open_of_append_test htest
          rw [kept_of_open hopen, kept_of_open (by exact hopen)]
        · exact Iff.rfl
      · exact Iff.rfl
  | push entry =>
      rw [ServedPeer.step, KeepsReferences, and_true]
      split
      · next hentry =>
        have hpinned := h.pinned
        have hne := List.ne_nil_of_length_pos (Nat.zero_lt_of_lt hentry)
        rw [use_alive (halive (h.listed_of_used (.inl (by omega)))), ServedPeer.push,
          List.getElem?_eq_getElem hentry]
        -- on a closed socket the reference was lost before
        simp [Kept, INetPeer.appendLocked, hne]
      · exact Iff.rfl
  | finish call =>
      rw [ServedPeer.step, KeepsReferences, and_true]
      split
      · next hcall =>
        have hpinned := h.pinned
        rw [use_alive (halive (h.listed_of_used (.inl (by omega)))), ServedPeer.finish]
        split
        · exact Iff.rfl
        · next closeAfter hget => cases closeAfter <;> exact kept_of_eq rfl rfl rfl rfl
      · exact Iff.rfl
  | takeRef =>
      rw [ServedPeer.step, KeepsReferences, and_true]
      split
      · next hheld =>
        rw [use_alive (halive (hheld.elim id fun htasks => h.listed_of_used (.inl htasks)))]
        exact kept_of_eq rfl rfl rfl rfl
      · exact Iff.rfl
  | dropRef =>
      rw [ServedPeer.step, KeepsReferences, and_true]
      split
      · next hcalls =>
        rw [use_alive (halive (h.listed_of_used (.inl (by omega))))]
        exact kept_of_eq rfl rfl rfl rfl
      · exact Iff.rfl
  | delete =>
      rw [ServedPeer.step, KeepsReferences, and_true]
      split
      · next hheld =>
        rw [use_alive (halive (hheld.elim id fun htasks => h.listed_of_used (.inl htasks)))]
        exact kept_of_eq rfl rfl rfl rfl
      · exact Iff.rfl
  | tick =>
      rw [ServedPeer.step, KeepsReferences, and_true]
      split
      · next hlisted =>
        have hrefs := h.refs (halive hlisted)
        rw [use_alive (halive hlisted), h.tick_eq hlisted]
        split
        · next hlast =>
          rw [hlisted, Bool.toNat_true, hlast.2] at hrefs
          have hbuffer : s.peer.sendBuffer = [] := List.eq_nil_of_length_eq_zero (by omega)
          have hrefused : s.refused = 0 := by omega
          have hpinned := h.pinned
          have hentered : s.entered = [] := List.eq_nil_of_length_eq_zero (by omega)
          have hkept : s.Kept := ⟨hrefused, fun _ => ⟨hbuffer, hentered⟩⟩
          split
          · exact iff_of_true ⟨hrefused, fun _ => ⟨hbuffer, hentered⟩⟩ hkept
          · exact iff_of_true ⟨hrefused, fun _ => ⟨hbuffer, hentered⟩⟩ hkept
        · exact Iff.rfl
      · exact Iff.rfl
  | clear accepted =>
      rw [ServedPeer.step, KeepsReferences]
      split
      · next hruns =>
        obtain ⟨hwake, hopen⟩ := hruns
        rw [use_alive (halive (h.listed_of_used (.inr (.inr hopen))))]
        by_cases hempty : s.peer.sendBuffer = []
        · rw [clear_empty hempty]
          refine (kept_of_eq (s := s) rfl rfl rfl rfl).trans ?_
          simp [hempty]
        · rw [clear_some hempty, kept_of_open hopen, kept_of_open (by exact hopen)]
          cases accepted <;> simp [hwake, hopen, hempty]
      · next hruns =>
        exact ⟨fun hkept => ⟨hkept, fun hwake hopen => absurd ⟨hwake, hopen⟩ hruns⟩, And.left⟩
  | complete =>
      rw [ServedPeer.step, KeepsReferences]
      split
      · next hwrites =>
        rw [use_alive (halive (h.listed_of_used (.inr (.inl hwrites)))), h.complete_eq hwrites]
        split
        · next hflag =>
          split
          · next hgone =>
            refine (kept_of_eq (s := s) rfl rfl rfl rfl).trans ?_
            simp [hgone]
          · next hgone =>
            have hopen : s.peer.socketDeleted = false := by simpa using hgone
            rw [kept_of_open hopen, Kept]
            simp [hwrites, hflag, hopen]
        · next hflag =>
          refine (kept_of_eq (s := s) rfl rfl rfl rfl).trans ?_
          simp [hflag]
      · next hwrites => simp [hwrites]
  | closed =>
      rw [ServedPeer.step, KeepsReferences, and_true]
      split
      · next hclosing =>
        rw [use_alive (h.alive (.inr hclosing)), closed_eq]
        split <;> exact kept_of_eq rfl rfl rfl rfl
      · exact Iff.rfl

/-- No reference was lost in a run exactly if none of its events loses one. -/
theorem kept_after_iff (run : List PeerEvent) :
    (after (step ownHandles) accepted run).Kept ↔
      AtEach (step ownHandles) accepted KeepsReferences run := by
  induction run using List.reverseRecOn with
  | nil => exact iff_of_true ⟨rfl, fun _ => ⟨rfl, rfl⟩⟩ at_each_nil
  | append_singleton run event ih =>
      have hledger : (after (step ownHandles) accepted run).Ledger :=
        invariant accepted_ledger (fun _ event h => Ledger.step h event) run
      rw [after_concat, step_kept_iff hledger, at_each_concat, ih]

/-- A peer that was deleted has lost no reference. -/
theorem Ledger.kept (h : s.Ledger) (hdeleted : s.deletes ≠ 0) : s.Kept := by
  have hoff : s.listed = false := by
    by_contra hlisted
    exact hdeleted (h.alive (.inl (by simpa using hlisted)))
  obtain ⟨-, -, hbuffer, -, htasks, hrefused⟩ := h.unlisted hoff
  have hpinned := h.pinned
  exact ⟨hrefused, fun _ => ⟨hbuffer, List.eq_nil_of_length_eq_zero (by omega)⟩⟩

/-- A write that completes leaves less to do. -/
theorem Ledger.left_complete (h : s.Ledger) (hwrites : 0 < s.inFlight) :
    (s.complete ownHandles).left ownHandles < s.left ownHandles := by
  rw [h.complete_eq hwrites]
  split
  · split
    · simp only [left, Bool.not_true, Bool.toNat_false]
      omega
    · next hgone =>
      have hopen : s.peer.socketDeleted = false := by simpa using hgone
      simp only [left, hopen, Bool.not_true, Bool.not_false, Bool.toNat_false, Bool.toNat_true]
      omega
  · simp only [left]
    omega

/-- A peer that is not deleted yet, with all references accounted for, is brought nearer to it by
some event. -/
theorem Ledger.progress (h : s.Ledger) (hkept : s.Kept) (halive : s.deletes = 0) :
    ∃ event, (s.step ownHandles event).Kept ∧
      (s.step ownHandles event).left ownHandles < s.left ownHandles := by
  have hkeeps : ∀ event, s.KeepsReferences event → (s.step ownHandles event).Kept :=
    fun event hevent => (step_kept_iff h event).mpr ⟨hkept, hevent⟩
  have hpinned := h.pinned
  by_cases hentered : s.entered = []
  swap
  · have hentry : 0 < s.entered.length := List.length_pos_of_ne_nil hentered
    refine ⟨.push 0, hkeeps _ trivial, ?_⟩
    have hlength := erase_entered hentry
    rw [ServedPeer.step, if_pos hentry, use_alive halive, ServedPeer.push,
      List.getElem?_eq_getElem hentry]
    simp only [left, INetPeer.appendLocked, List.length_append, List.length_singleton]
    omega
  by_cases hcalls : s.calls = []
  swap
  · have hcall : 0 < s.calls.length := List.length_pos_of_ne_nil hcalls
    refine ⟨.finish 0, hkeeps _ trivial, ?_⟩
    rw [ServedPeer.step, if_pos hcall, use_alive halive, ServedPeer.finish,
      List.getElem?_eq_getElem hcall]
    have hlength : (s.calls.eraseIdx 0).length + 1 = s.calls.length := by
      rw [List.length_eraseIdx_of_lt hcall]
      omega
    cases s.calls[0] <;> simp only [left, INetPeer.appendUnlocked, Bool.false_eq_true, if_false,
      if_true] <;> omega
  by_cases hbuffer : s.peer.sendBuffer = []
  swap
  · have hopen : s.peer.socketDeleted = false := by
      by_contra hgone
      exact hbuffer (hkept.2 (by simpa using hgone)).1
    have hwake : s.wakeUp = true :=
      (h.served hbuffer hopen).resolve_right fun hne => hne hcalls
    have hlength := List.length_pos_of_ne_nil hbuffer
    refine ⟨.clear true, hkeeps _ fun _ _ _ => rfl, ?_⟩
    rw [ServedPeer.step, if_pos ⟨hwake, hopen⟩, use_alive halive, clear_some hbuffer]
    simp only [left, List.length_nil, Bool.toNat_true]
    omega
  by_cases hwrites : 0 < s.inFlight
  · refine ⟨.complete, hkeeps _ fun _ _ _ => ⟨hbuffer, hentered⟩, ?_⟩
    rw [ServedPeer.step, if_pos hwrites, use_alive halive]
    exact h.left_complete hwrites
  by_cases htasks : 0 < s.tasks
  · refine ⟨.dropRef, hkeeps _ trivial, ?_⟩
    rw [ServedPeer.step, if_pos (by rw [hentered, hcalls]; exact htasks), use_alive halive]
    simp only [left, addRef]
    omega
  by_cases hclosing : 0 < s.closing
  · refine ⟨.closed, hkeeps _ trivial, ?_⟩
    rw [ServedPeer.step, if_pos hclosing, use_alive halive, closed_eq]
    split <;> simp only [left] <;> omega
  -- only the driver's reference is left
  have hlisted : s.listed = true := by
    have hdeleted := h.deleted
    by_contra hoff
    rw [halive, if_pos ⟨by simpa using hoff, by omega⟩] at hdeleted
    cases hdeleted
  have hone : s.peer.refCount = 1 := by
    have hrefs := h.refs halive
    rw [hlisted, hbuffer, hkept.1, Bool.toNat_true, List.length_nil] at hrefs
    omega
  by_cases hflag : s.peer.deleteFlag = true
  · refine ⟨.tick, hkeeps _ trivial, ?_⟩
    rw [ServedPeer.step, if_pos hlisted, use_alive halive, h.tick_eq hlisted,
      if_pos ⟨hflag, hone⟩]
    split
    · simp only [left, hlisted, Bool.toNat_true, Bool.toNat_false]
      omega
    · next hgone =>
      have hopen : s.peer.socketDeleted = false := by simpa using hgone
      simp only [left, hlisted, hopen, Bool.not_true, Bool.not_false, Bool.toNat_true,
        Bool.toNat_false]
      omega
  · have hunset : s.peer.deleteFlag = false := by simpa using hflag
    refine ⟨.delete, hkeeps _ trivial, ?_⟩
    rw [ServedPeer.step, if_pos (.inl hlisted), use_alive halive]
    simp only [left, ServedPeer.delete, hunset, Bool.not_true, Bool.not_false, Bool.toNat_true,
      Bool.toNat_false]
    omega

/-- While all references are accounted for there is a way to the end. -/
theorem Ledger.deleted_in_time {s : ServedPeer} (h : s.Ledger) (hkept : s.Kept) :
    ∃ more, (after (ServedPeer.step ownHandles) s more).deletes = 1 := by
  by_cases halive : s.deletes = 0
  · obtain ⟨event, hnext, hless⟩ := @Ledger.progress ownHandles s h hkept halive
    obtain ⟨more, hmore⟩ := (h.step event).deleted_in_time hnext
    exact ⟨event :: more, hmore⟩
  · refine ⟨[], ?_⟩
    have hdeleted := h.deleted
    rw [after_nil]
    split at hdeleted
    · exact hdeleted
    · exact absurd hdeleted halive
termination_by s.left ownHandles
decreasing_by exact hless

/-- Whatever the loop and the tasks do in whatever order, a peer is deleted at most once and is not
used afterwards. When it is deleted no buffer, write, handle or task refers to it, and it is not on
the driver's list. -/
theorem deleted_once (ownHandles : Nat) (run : List PeerEvent) :
    let s := after (step ownHandles) accepted run
    s.misused = false ∧ s.deletes ≤ 1 ∧
      (s.deletes = 1 → s.listed = false ∧ s.tasks = 0 ∧ s.inFlight = 0 ∧ s.closing = 0 ∧
        s.entered = [] ∧ s.calls = [] ∧ s.peer.sendBuffer = []) := by
  intro s
  have h : s.Ledger := invariant accepted_ledger (fun _ event h => Ledger.step h event) run
  have hdeleted := h.deleted
  refine ⟨h.clean, by split at hdeleted <;> omega, fun hone => ?_⟩
  rw [hone] at hdeleted
  split at hdeleted
  · next hend =>
    obtain ⟨hoff, hclosing⟩ := hend
    obtain ⟨-, -, hbuffer, hwrites, htasks, -⟩ := h.unlisted hoff
    have hpinned := h.pinned
    rw [htasks] at hpinned
    exact ⟨hoff, htasks, hwrites, hclosing, List.eq_nil_of_length_eq_zero (by omega),
      List.eq_nil_of_length_eq_zero (by omega), hbuffer⟩
  · cases hdeleted

/-- After any run a peer can still come to be deleted exactly if `uv_write` has refused no buffers
of it and no write has closed its socket over buffers in the queue or a call that is to queue one.
Otherwise it stays for good. -/
theorem deleted_in_time_iff (ownHandles : Nat) (run : List PeerEvent) :
    (∃ more, (after (step ownHandles) accepted (run ++ more)).deletes = 1) ↔
      AtEach (step ownHandles) accepted KeepsReferences run := by
  have hledger : ∀ run, (after (step ownHandles) accepted run).Ledger := fun run =>
    invariant accepted_ledger (fun _ event h => Ledger.step h event) run
  constructor
  · rintro ⟨more, hone⟩
    have hall := (kept_after_iff (run ++ more)).mp ((hledger (run ++ more)).kept (by omega))
    exact hall.of_prefix (List.prefix_append run more)
  · intro hkeeps
    obtain ⟨more, hone⟩ := (hledger run).deleted_in_time ((kept_after_iff run).mpr hkeeps)
    exact ⟨more, by rw [after_append]; exact hone⟩

end ServedPeer

end OpenSpy.Net
