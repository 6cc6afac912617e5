import Mathlib.Data.List.Nodup
import OpenSpy.Library.Runs

/-!
# The pending requests of a browser

A request that has to wait for the games of its peer is put on the pending list and the loop is
signalled. `uv_async_send` only marks the handle, so one flush may answer several signals, and a
flush may come between the push of a request and its signal. The pending list is a stack:
`served_in_order_iff` says that requests are submitted in the order of their calls exactly if no
flush finds more than one.
-/

namespace OpenSpy.ServerBrowsing

open Runs

/-- A call of `AddRequest` for the pending list, with its number among these calls. -/
structure PendingCall (Request : Type) where
  number : Nat
  request : Request

/-- What is handed to `uv_queue_work`: a request that skipped the pending list, or one of it. -/
inductive MMWorkData (Request : Type) where
  | skipped (request : Request)
  | pending (call : PendingCall Request)

/-- The call of a request that was pending. -/
def MMWorkData.call? {Request : Type} : MMWorkData Request → Option (PendingCall Request)
  | .skipped _ => none
  | .pending call => some call

/-- A peer: its references, the pending list with its top first, whether the handle of the flush
is marked, and what has been handed to `uv_queue_work`. `calls` are the calls for the pending list
so far, and `unsent` counts those that have not come to `uv_async_send`. -/
structure PendingPeer (Request : Type) where
  refCount : Nat
  pendingRequestList : List (PendingCall Request)
  signalled : Bool
  workQueue : List (MMWorkData Request)
  calls : List (PendingCall Request)
  unsent : Nat

/-- What goes on at a peer. `push` and `send` are the two halves of an `AddRequest` for the pending
list, and `flush` is a turn of the loop. -/
inductive PendingEvent (Request : Type) where
  | skip (request : Request)
  | push (request : Request)
  | send
  | flush

namespace PendingPeer

variable {Request : Type} (peer : PendingPeer Request)

/-- A peer with nothing to do. -/
def start (refCount : Nat) : PendingPeer Request :=
  ⟨refCount, [], false, [], [], 0⟩

/-- `IncRef` and `uv_queue_work`. -/
def submit (work : MMWorkData Request) : PendingPeer Request :=
  { peer with
    refCount := peer.refCount + 1
    workQueue := peer.workQueue ++ [work] }

/-- The push of `AddRequest`. -/
def push (request : Request) : PendingPeer Request :=
  let call := ⟨peer.calls.length, request⟩
  { peer with
    pendingRequestList := call :: peer.pendingRequestList
    calls := peer.calls ++ [call]
    unsent := peer.unsent + 1 }

/-- `uv_async_send` at the end of `AddRequest`. -/
def send : PendingPeer Request :=
  if peer.unsent = 0 then peer else { peer with unsent := peer.unsent - 1, signalled := true }

/-- The loop of `Peer::FlushPendingRequests`, which takes the top of the stack until it is
empty. -/
def flushPendingRequests : PendingPeer Request :=
  peer.pendingRequestList.foldl (fun peer call => peer.submit (.pending call))
    { peer with pendingRequestList := [] }

/-- A turn of the loop: a marked handle is unmarked, and `flush_pending_requests` is called. -/
def flush : PendingPeer Request :=
  if peer.signalled then flushPendingRequests { peer with signalled := false } else peer

/-- One event. -/
def step : PendingEvent Request → PendingPeer Request
  | .skip request => peer.submit (.skipped request)
  | .push request => peer.push request
  | .send => peer.send
  | .flush => peer.flush

/-- The pending calls that have been submitted, in the order of their submission. -/
def served : List (PendingCall Request) :=
  peer.workQueue.filterMap MMWorkData.call?

/-- What is submitted are the first calls, each once and in their order, and no call is left once
all signals have been sent and answered. -/
structure ServedInOrder : Prop where
  ordered : peer.served <+: peer.calls
  complete : peer.unsent = 0 → peer.signalled = false → peer.served = peer.calls

/-- A flush finds no more than one pending request. -/
def FindsOne : PendingEvent Request → Prop
  | .flush => peer.signalled = true → peer.pendingRequestList.length ≤ 1
  | _ => True

instance (event : PendingEvent Request) : Decidable (peer.FindsOne event) := by
  unfold FindsOne
  split <;> infer_instance

/-- What is kept while every flush finds at most one request: the calls are the submitted ones and
behind them the pending ones, and a pending one has its signal before it or waits for its flush. -/
structure Waits : Prop where
  calls : peer.calls = peer.served ++ peer.pendingRequestList.reverse
  numbered : peer.calls.map PendingCall.number = List.range peer.calls.length
  signal : peer.pendingRequestList ≠ [] → peer.unsent ≠ 0 ∨ peer.signalled = true

variable {peer}

theorem served_submit (work : MMWorkData Request) :
    (peer.submit work).served = peer.served ++ work.call?.toList := by
  cases work <;> simp [submit, served, MMWorkData.call?]

/-- A flush submits the stack from its top. -/
theorem flush_pending_requests_spec (peer : PendingPeer Request) :
    peer.flushPendingRequests =
      { peer with
        refCount := peer.refCount + peer.pendingRequestList.length
        workQueue := peer.workQueue ++ peer.pendingRequestList.map .pending
        pendingRequestList := [] } := by
  have hloop : ∀ (pending : List (PendingCall Request)) (peer : PendingPeer Request),
      pending.foldl (fun peer call => peer.submit (.pending call)) peer =
        { peer with
          refCount := peer.refCount + pending.length
          workQueue := peer.workQueue ++ pending.map .pending } := by
    intro pending
    induction pending with
    | nil => simp
    | cons call pending ih =>
        intro peer
        rw [List.foldl_cons, ih]
        simp [submit, Nat.add_assoc, Nat.add_comm 1]
  exact hloop _ _

theorem served_flush_pending_requests (peer : PendingPeer Request) :
    peer.flushPendingRequests.served = peer.served ++ peer.pendingRequestList := by
  have hpending : ∀ pending : List (PendingCall Request),
      (pending.map MMWorkData.pending).filterMap MMWorkData.call? = pending := by
    intro pending
    simp [List.filterMap_map, Function.comp_def, MMWorkData.call?]
  rw [flush_pending_requests_spec, served, List.filterMap_append, hpending]
  rfl

theorem waits_start (refCount : Nat) : (start refCount : PendingPeer Request).Waits where
  calls := rfl
  numbered := rfl
  signal := fun h => absurd rfl h

theorem Waits.served_in_order (h : peer.Waits) : peer.ServedInOrder where
  ordered := ⟨_, h.calls.symm⟩
  complete := by
    intro hunsent hsignalled
    have hempty : peer.pendingRequestList = [] := by
      by_contra hne
      cases h.signal hne with
      | inl hsome => exact hsome hunsent
      | inr hmarked => exact Bool.false_ne_true (hsignalled.symm.trans hmarked)
    rw [h.calls, hempty, List.reverse_nil, List.append_nil]

theorem Waits.push (h : peer.Waits) (request : Request) : (peer.push request).Waits where
  calls := by
    simp only [PendingPeer.push, List.reverse_cons, ← List.append_assoc]
    rw [h.calls]
    rfl
  numbered := by
    simp only [PendingPeer.push, List.map_append, h.numbered, List.length_append,
      List.length_singleton, List.range_succ]
    rfl
  signal := fun _ => .inl (Nat.succ_ne_zero _)

theorem Waits.send (h : peer.Waits) : peer.send.Waits := by
  unfold PendingPeer.send
  split
  · exact h
  · exact ⟨h.calls, h.numbered, fun _ => .inr rfl⟩

theorem Waits.skip (h : peer.Waits) (request : Request) :
    (peer.submit (.skipped request)).Waits where
  calls := by
    rw [served_submit]
    simpa [MMWorkData.call?, submit] using h.calls
  numbered := h.numbered
  signal := h.signal

/-- A list of at most one element is its own reverse. -/
theorem reverse_of_length_le_one {α : Type} {list : List α} (h : list.length ≤ 1) :
    list.reverse = list := by
  match list, h with
  | [], _ => rfl
  | [_], _ => rfl

/-- A list without duplicates that starts like its reverse has at most one element. -/
theorem length_le_one_of_prefix_reverse {α : Type} {list : List α} (hnodup : list.Nodup)
    (h : list <+: list.reverse) : list.length ≤ 1 := by
  have hreverse : list = list.reverse := h.eq_of_length (by simp)
  by_contra hlong
  have hpos : 0 < list.length := by omega
  have hfirst : list[0] = list[list.length - 1] := by
    rw [List.getElem_of_eq hreverse hpos, List.getElem_reverse]
    rfl
  have hindex := (List.Nodup.getElem_inj_iff hnodup).mp hfirst
  omega

theorem Waits.flush (h : peer.Waits)
    (hone : peer.signalled = true → peer.pendingRequestList.length ≤ 1) : peer.flush.Waits := by
  unfold PendingPeer.flush
  split
  · next hsignalled =>
      refine ⟨?_, ?_, ?_⟩
      · rw [served_flush_pending_requests, flush_pending_requests_spec]
        simpa [served, reverse_of_length_le_one (hone hsignalled)] using h.calls
      · rw [flush_pending_requests_spec]
        exact h.numbered
      · rw [flush_pending_requests_spec]
        exact fun hne => absurd rfl hne
  · exact h

/-- A flush that finds more submits a later call first. -/
theorem Waits.finds_one (h : peer.Waits) (hserved : peer.flush.ServedInOrder)
    (hsignalled : peer.signalled = true) : peer.pendingRequestList.length ≤ 1 := by
  have hordered := hserved.ordered
  rw [PendingPeer.flush, if_pos hsignalled, served_flush_pending_requests,
    flush_pending_requests_spec] at hordered
  have hcalls : peer.served ++ peer.pendingRequestList <+:
      peer.served ++ peer.pendingRequestList.reverse := by
    rw [← h.calls]
    exact hordered
  have hnodup : peer.calls.Nodup :=
    List.Nodup.of_map PendingCall.number (h.numbered ▸ List.nodup_range)
  rw [h.calls] at hnodup
  have hpending := List.nodup_reverse.mp (List.nodup_append.mp hnodup).2.1
  exact length_le_one_of_prefix_reverse hpending ((List.prefix_append_right_inj _).mp hcalls)

/-- Whatever the flushes find, every call is submitted once or still pending. -/
theorem served_once (refCount : Nat) (run : List (PendingEvent Request)) :
    ((after step (start refCount) run).served ++
      (after step (start refCount) run).pendingRequestList).Perm
        (after step (start refCount) run).calls := by
  have hstart : ((start refCount : PendingPeer Request).served ++
      (start refCount : PendingPeer Request).pendingRequestList).Perm
        (start refCount : PendingPeer Request).calls := List.Perm.refl []
  refine @invariant _ _ step _
    (fun peer => (peer.served ++ peer.pendingRequestList).Perm peer.calls) hstart ?_ run
  intro peer event h
  cases event with
  | skip request =>
      show ((peer.submit (.skipped request)).served ++ peer.pendingRequestList).Perm peer.calls
      rw [served_submit, MMWorkData.call?, Option.toList_none, List.append_nil]
      exact h
  | push request =>
      have hlast : (PendingCall.mk peer.calls.length request :: peer.calls).Perm
          (peer.calls ++ [⟨peer.calls.length, request⟩]) :=
        (List.perm_append_singleton _ _).symm
      exact (List.perm_middle.trans (h.cons _)).trans hlast
  | send =>
      show (peer.send.served ++ peer.send.pendingRequestList).Perm peer.send.calls
      unfold PendingPeer.send
      split <;> exact h
  | flush =>
      show (peer.flush.served ++ peer.flush.pendingRequestList).Perm peer.flush.calls
      unfold PendingPeer.flush
      split
      · rw [served_flush_pending_requests, flush_pending_requests_spec, List.append_nil]
        exact h
      · exact h

/-- Along a run, what is submitted are always the first calls in their order, and all of them once
the signals are answered, if and only if no flush finds more than one pending request. -/
theorem served_in_order_iff (refCount : Nat) (run : List (PendingEvent Request)) :
    (∀ before, before <+: run → (after step (start refCount) before).ServedInOrder) ↔
      AtEach step (start refCount) FindsOne run := by
  refine @shown_throughout_iff _ _ step _ _ Waits _ ServedInOrder (waits_start refCount)
    (fun _ h => h.served_in_order) ?_ ?_
  · intro peer event _ h hone
    cases event with
    | skip request => exact h.skip request
    | push request => exact h.push request
    | send => exact h.send
    | flush => exact h.flush hone
  · intro peer event _ h hserved
    cases event with
    | flush => exact h.finds_one hserved
    | _ => trivial

/-- Two requests wait when the loop gets to their signals, and the second is submitted first. -/
theorem second_request_first :
    ¬ ∀ (refCount : Nat) (run : List (PendingEvent Nat)),
      ∀ before, before <+: run → (after step (start refCount) before).ServedInOrder := by
  intro h
  have hserved := h 1 [.push 7, .send, .push 8, .send, .flush] _ (List.prefix_refl _)
  have hcalls := congrArg (List.map PendingCall.request) (hserved.complete rfl rfl)
  exact absurd hcalls (by decide)

end PendingPeer

end OpenSpy.ServerBrowsing
