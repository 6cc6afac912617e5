import Mathlib.Data.List.Nodup
import OpenSpy.Library.Runs

/-!
# The request queue of a chat peer

`Peer::AddTaskRequest` hands a request to the thread pool, except for a key request while
`m_pending_request` is set, which it queues. `Peer::ProcessNextTask` runs when a request is
completed and hands over the next one of the queue. No request is lost and the queue is drained
(`requests_not_lost`). One flag stands for all requests in flight, so the first of them to be
completed lets a key request through that was added after the others
(`key_request_overtakes`, `key_requests_wait_iff`).
-/

namespace OpenSpy.Peerchat.TaskQueue

open Commands Runs

/-- `EPeerchatRequestType`. -/
inductive EPeerchatRequestType where
  | setUserDetails | sendMessageToTarget | lookupUserDetailsByName | lookupChannelDetails
  | userJoinChannel | userPartChannel | updateChannelModes | updateUserModes | listChannels
  | setChannelUserKeys | getChannelUserKeys | setUserKeys | getUserKeys | setChannelKeys
  | getChannelKeys | userKickChannel | setBroadcastToVisibleUsers
  | setBroadcastToVisibleUsersSendSummary | setBroadcastToVisibleUsersSkipSource | deleteUser
  | keepaliveUser | userJoinEvents | createUserMode | listUserModes | listUserModesCacheLookup
  | deleteUserMode | setChanProps | listChanProps | deleteChanProps | lookupGameInfo
  | lookupGlobalUsermode | remoteKillByName | updateChannelModesBanMask | operCheck
  | countServerUsers
  deriving DecidableEq

/-- A request with the number of the `AddTaskRequest` call that it came by. -/
structure PeerchatBackendRequest where
  type : EPeerchatRequestType
  call : Nat
  deriving DecidableEq

/-- The types of the requests that `AddTaskRequest` may queue. -/
def queueEvent (type : EPeerchatRequestType) : Bool :=
  match type with
  | .setChannelUserKeys | .getChannelUserKeys | .setUserKeys | .getUserKeys | .setChannelKeys
  | .getChannelKeys => true
  | _ => false

/-- A key request. -/
abbrev PeerchatBackendRequest.isKey (request : PeerchatBackendRequest) : Bool :=
  queueEvent request.type

/-- `m_request_queue` and `m_pending_request` of a peer. -/
structure Peer where
  requestQueue : List PeerchatBackendRequest
  pendingRequest : Bool
  deriving DecidableEq

/-- The members as the constructor of `Peer` leaves them before its own request. -/
def Peer.init : Peer :=
  ⟨[], false⟩

/-- `Peer::AddTaskRequest`, with the requests it passes to `AddPeerchatTaskRequest`. -/
def Peer.addTaskRequest (peer : Peer) (request : PeerchatBackendRequest) :
    Peer × List PeerchatBackendRequest :=
  if queueEvent request.type then
    if peer.pendingRequest then
      ({ peer with requestQueue := peer.requestQueue ++ [request] }, [])
    else (peer, [request])
  else ({ peer with pendingRequest := true }, [request])

/-- `Peer::ProcessNextTask`, with the requests it passes to `AddPeerchatTaskRequest`. -/
def Peer.processNextTask (peer : Peer) : Peer × List PeerchatBackendRequest :=
  match peer.requestQueue with
  | request :: rest => ({ peer with requestQueue := rest }, [request])
  -- cleared also while other requests are in flight
  | [] => ({ peer with pendingRequest := false }, [])

/-- A peer with what has become of its requests: those added, those handed to the thread pool
and those completed, each in order. -/
structure System where
  peer : Peer
  added : List PeerchatBackendRequest
  handed : List PeerchatBackendRequest
  completed : List PeerchatBackendRequest

/-- A peer without requests. -/
def System.init : System :=
  ⟨.init, [], [], []⟩

/-- A handler or callback adds a request, or a worker completes one. -/
inductive Event where
  | add (type : EPeerchatRequestType)
  | complete (request : PeerchatBackendRequest)
  deriving DecidableEq

namespace System

/-- The thread pool has the request. -/
def InFlight (sys : System) (request : PeerchatBackendRequest) : Prop :=
  request ∈ sys.handed ∧ request ∉ sys.completed

instance (sys : System) (request : PeerchatBackendRequest) : Decidable (sys.InFlight request) :=
  inferInstanceAs (Decidable (_ ∧ _))

/-- The request that the next `AddTaskRequest` call is about. -/
def request (sys : System) (type : EPeerchatRequestType) : PeerchatBackendRequest :=
  ⟨type, sys.added.length⟩

/-- The requests that an event hands to the thread pool, with the peer behind it. -/
def calls (sys : System) : Event → Peer × List PeerchatBackendRequest
  | .add type => sys.peer.addTaskRequest (sys.request type)
  | .complete request =>
      if sys.InFlight request then sys.peer.processNextTask else (sys.peer, [])

/-- One event. A request that is not in flight cannot be completed. -/
def step (sys : System) (event : Event) : System where
  peer := (sys.calls event).1
  added :=
    match event with
    | .add type => sys.added ++ [sys.request type]
    | .complete _ => sys.added
  handed := sys.handed ++ (sys.calls event).2
  completed :=
    match event with
    | .add _ => sys.completed
    | .complete request =>
        if sys.InFlight request then sys.completed ++ [request] else sys.completed

end System

/-- The state that a run of a new peer leads to. -/
abbrev serve (run : List Event) : System :=
  after System.step .init run

section Steps

variable {sys : System} {type : EPeerchatRequestType} {request : PeerchatBackendRequest}

/-- A request of another kind sets the flag. -/
theorem step_add_other (hkey : queueEvent type = false) :
    sys.step (.add type) =
      ⟨{ sys.peer with pendingRequest := true }, sys.added ++ [sys.request type],
        sys.handed ++ [sys.request type], sys.completed⟩ := by
  simp [System.step, System.calls, Peer.addTaskRequest, System.request, hkey]

/-- A key request waits while the flag is set. -/
theorem step_add_waits (hkey : queueEvent type = true)
    (hpending : sys.peer.pendingRequest = true) :
    sys.step (.add type) =
      ⟨{ sys.peer with requestQueue := sys.peer.requestQueue ++ [sys.request type] },
        sys.added ++ [sys.request type], sys.handed, sys.completed⟩ := by
  simp [System.step, System.calls, Peer.addTaskRequest, System.request, hkey, hpending]

/-- A key request is handed over while the flag is cleared. -/
theorem step_add_key (hkey : queueEvent type = true)
    (hpending : sys.peer.pendingRequest = false) :
    sys.step (.add type) =
      ⟨sys.peer, sys.added ++ [sys.request type], sys.handed ++ [sys.request type],
        sys.completed⟩ := by
  simp [System.step, System.calls, Peer.addTaskRequest, System.request, hkey, hpending]

/-- A completion that finds the queue empty clears the flag. -/
theorem step_complete_empty (hflight : sys.InFlight request)
    (hqueue : sys.peer.requestQueue = []) :
    sys.step (.complete request) =
      ⟨⟨[], false⟩, sys.added, sys.handed, sys.completed ++ [request]⟩ := by
  simp [System.step, System.calls, Peer.processNextTask, hflight, hqueue]

/-- A completion hands over the request that waits longest. -/
theorem step_complete_next {first : PeerchatBackendRequest} {rest : List PeerchatBackendRequest}
    (hflight : sys.InFlight request) (hqueue : sys.peer.requestQueue = first :: rest) :
    sys.step (.complete request) =
      ⟨{ sys.peer with requestQueue := rest }, sys.added, sys.handed ++ [first],
        sys.completed ++ [request]⟩ := by
  simp [System.step, System.calls, Peer.processNextTask, hflight, hqueue]

theorem calls_add_waits (hkey : queueEvent type = true)
    (hpending : sys.peer.pendingRequest = true) : (sys.calls (.add type)).2 = [] := by
  simp [System.calls, Peer.addTaskRequest, System.request, hkey, hpending]

/-- The only request that `AddTaskRequest` hands over is its own. -/
theorem mem_calls_add (h : request ∈ (sys.calls (.add type)).2) : request = sys.request type := by
  simp only [System.calls, Peer.addTaskRequest] at h
  split_ifs at h
  · cases h
  · exact List.mem_singleton.mp h
  · exact List.mem_singleton.mp h

/-- A request that is not in flight is not completed. -/
theorem step_complete_none (hflight : ¬ sys.InFlight request) :
    sys.step (.complete request) = sys := by
  simp [System.step, System.calls, hflight]

/-- A completion hands over the request that waits longest, if any. -/
theorem mem_calls_complete {key : PeerchatBackendRequest} (hflight : sys.InFlight request) :
    key ∈ (sys.calls (.complete request)).2 ↔ sys.peer.requestQueue.head? = some key := by
  cases hqueue : sys.peer.requestQueue with
  | nil => simp [System.calls, Peer.processNextTask, hflight, hqueue]
  | cons first rest =>
      simp [System.calls, Peer.processNextTask, hflight, hqueue, eq_comm]

/-- The requests that a completion completes. -/
theorem step_complete_completed (hflight : sys.InFlight request) :
    (sys.step (.complete request)).completed = sys.completed ++ [request] := by
  simp [System.step, hflight]

end Steps

/-- What the members of a peer say of its requests. -/
structure Accounted (sys : System) : Prop where
  numbered : sys.added.map (·.call) = List.range sys.added.length
  nothingLost : (sys.handed ++ sys.peer.requestQueue).Perm sys.added
  inOrder : (sys.handed ++ sys.peer.requestQueue).filter (·.isKey) = sys.added.filter (·.isKey)
  onlyKeys : ∀ request ∈ sys.peer.requestQueue, request.isKey = true
  idle : sys.peer.pendingRequest = false → sys.peer.requestQueue = []
  busy : sys.peer.pendingRequest = true → ∃ request, sys.InFlight request
  completedHanded : sys.completed ⊆ sys.handed

namespace Accounted

variable {sys : System}

theorem init : Accounted .init where
  numbered := rfl
  nothingLost := .refl _
  inOrder := rfl
  onlyKeys := by simp [System.init, Peer.init]
  idle _ := rfl
  busy h := by cases h
  completedHanded := by simp [System.init]

theorem nodup (h : Accounted sys) : sys.added.Nodup := by
  have hcalls : (sys.added.map (·.call)).Nodup := by
    rw [h.numbered]
    exact List.nodup_range
  exact List.Nodup.of_map _ hcalls

/-- The number of a request is one that has been given. -/
theorem call_lt (h : Accounted sys) {request : PeerchatBackendRequest}
    (hmem : request ∈ sys.added) : request.call < sys.added.length := by
  have hcall : request.call ∈ sys.added.map (·.call) := List.mem_map_of_mem hmem
  rw [h.numbered] at hcall
  exact List.mem_range.mp hcall

/-- A request that has been handed over or waits is one that has been added. -/
theorem mem_added (h : Accounted sys) {request : PeerchatBackendRequest} :
    request ∈ sys.added ↔ request ∈ sys.handed ∨ request ∈ sys.peer.requestQueue := by
  rw [← h.nothingLost.mem_iff, List.mem_append]

/-- Only key requests are made to wait. -/
theorem handed_of_not_key (h : Accounted sys) {request : PeerchatBackendRequest}
    (hmem : request ∈ sys.added) (hkey : request.isKey = false) : request ∈ sys.handed := by
  rcases h.mem_added.mp hmem with hhanded | hqueued
  · exact hhanded
  · rw [h.onlyKeys request hqueued] at hkey
    cases hkey

/-- A request that waits has not been handed over. -/
theorem not_handed (h : Accounted sys) {request : PeerchatBackendRequest}
    (hmem : request ∈ sys.peer.requestQueue) : request ∉ sys.handed := by
  intro hhanded
  have hnodup := h.nothingLost.nodup_iff.mpr h.nodup
  exact (List.nodup_append.mp hnodup).2.2 request hhanded request hmem rfl

/-- The new request has a number of its own. -/
theorem numbered_request (h : Accounted sys) (type : EPeerchatRequestType) :
    (sys.added ++ [sys.request type]).map (·.call) =
      List.range (sys.added ++ [sys.request type]).length := by
  rw [List.map_append, h.numbered, List.length_append, List.length_singleton, List.range_succ]
  rfl

/-- A request is added. -/
theorem add (h : Accounted sys) (type : EPeerchatRequestType) :
    Accounted (sys.step (.add type)) := by
  have hfresh : sys.request type ∉ sys.completed := by
    intro hmem
    have hadded := h.mem_added.mpr (.inl (h.completedHanded hmem))
    exact absurd (h.call_lt hadded) (Nat.lt_irrefl _)
  have hnumbered := h.numbered_request type
  have hperm := h.nothingLost
  have horder := h.inOrder
  by_cases hkey : queueEvent type = true
  · by_cases hpending : sys.peer.pendingRequest = true
    · rw [step_add_waits hkey hpending]
      exact {
        numbered := hnumbered
        nothingLost := by
          rw [← List.append_assoc]
          exact hperm.append_right _
        inOrder := by
          rw [← List.append_assoc, List.filter_append, horder, List.filter_append]
        onlyKeys := by
          intro request hmem
          rcases List.mem_append.mp hmem with hold | hnew
          · exact h.onlyKeys request hold
          · rw [List.mem_singleton.mp hnew]
            exact hkey
        idle := fun hidle => by simp [hpending] at hidle
        busy := h.busy
        completedHanded := h.completedHanded }
    · rw [Bool.not_eq_true] at hpending
      have hqueue := h.idle hpending
      rw [hqueue, List.append_nil] at hperm horder
      rw [step_add_key hkey hpending]
      exact {
        numbered := hnumbered
        nothingLost := by
          simp only [hqueue, List.append_nil]
          exact hperm.append_right _
        inOrder := by
          simp only [hqueue, List.append_nil, List.filter_append, horder]
        onlyKeys := h.onlyKeys
        idle := h.idle
        busy := fun hbusy => by simp [hpending] at hbusy
        completedHanded := fun _ hmem => List.mem_append_left _ (h.completedHanded hmem) }
  · rw [Bool.not_eq_true] at hkey
    rw [step_add_other hkey]
    exact {
      numbered := hnumbered
      nothingLost := by
        rw [List.append_assoc, List.singleton_append]
        exact List.perm_middle.trans
          ((hperm.cons _).trans (List.perm_append_singleton _ _).symm)
      inOrder := by
        have hnone : [sys.request type].filter (·.isKey) = [] := by simp [hkey, System.request]
        rw [List.filter_append, List.filter_append, List.filter_append, hnone, ← horder,
          List.filter_append, List.append_nil, List.append_nil]
      onlyKeys := h.onlyKeys
      idle := fun hidle => by cases hidle
      busy := fun _ => ⟨sys.request type, by simp, hfresh⟩
      completedHanded := fun _ hmem => List.mem_append_left _ (h.completedHanded hmem) }

/-- A request is completed. -/
theorem complete (h : Accounted sys) (request : PeerchatBackendRequest) :
    Accounted (sys.step (.complete request)) := by
  by_cases hflight : sys.InFlight request
  · have hcompleted : sys.completed ++ [request] ⊆ sys.handed := by
      intro other hmem
      rcases List.mem_append.mp hmem with hold | hnew
      · exact h.completedHanded hold
      · rw [List.mem_singleton.mp hnew]
        exact hflight.1
    cases hqueue : sys.peer.requestQueue with
    | nil =>
        have hperm := h.nothingLost
        have horder := h.inOrder
        rw [hqueue] at hperm horder
        rw [step_complete_empty hflight hqueue]
        exact {
          numbered := h.numbered
          nothingLost := hperm
          inOrder := horder
          onlyKeys := by simp
          idle := fun _ => rfl
          busy := fun hbusy => by cases hbusy
          completedHanded := hcompleted }
    | cons first rest =>
        have hmem : first ∈ sys.peer.requestQueue := by simp [hqueue]
        have hwaits := h.not_handed hmem
        have hfirst : first ∉ sys.completed ++ [request] := fun hdone => hwaits (hcompleted hdone)
        have hperm := h.nothingLost
        have horder := h.inOrder
        rw [hqueue] at hperm horder
        rw [step_complete_next hflight hqueue]
        exact {
          numbered := h.numbered
          nothingLost := by simpa using hperm
          inOrder := by
            rw [List.append_assoc]
            exact horder
          onlyKeys := fun other hother => h.onlyKeys other (by simp [hqueue, hother])
          idle := fun hidle => by
            have hempty := h.idle hidle
            simp [hqueue] at hempty
          busy := fun _ => ⟨first, by simp, hfirst⟩
          completedHanded := fun _ hdone => List.mem_append_left _ (hcompleted hdone) }
  · rw [step_complete_none hflight]
    exact h

end Accounted

section Steps

variable {sys : System} {request : PeerchatBackendRequest}

/-- A request that is completed makes room for the one that waits longest. -/
theorem step_complete (hflight : sys.InFlight request) :
    (sys.step (.complete request)).peer.requestQueue = sys.peer.requestQueue.tail ∧
      (sys.step (.complete request)).handed = sys.handed ++ sys.peer.requestQueue.head?.toList := by
  cases hqueue : sys.peer.requestQueue with
  | nil => simp [step_complete_empty hflight hqueue]
  | cons first rest => simp [step_complete_next hflight hqueue]

/-- Completions alone drain the queue. -/
theorem queue_after_completions {events : List Event}
    (h : AtEach System.step sys
      (fun sys event => ∃ request, event = .complete request ∧ sys.InFlight request) events) :
    (after System.step sys events).peer.requestQueue =
      sys.peer.requestQueue.drop events.length := by
  induction events using List.reverseRecOn with
  | nil => rfl
  | append_singleton events next ih =>
      obtain ⟨hevents, request, rfl, hflight⟩ := at_each_concat.mp h
      rw [after_concat, (step_complete hflight).1, ih hevents, List.tail_drop, List.length_append,
        List.length_singleton]

end Steps

/-- The requests of every run are accounted for. -/
theorem serve_accounted (run : List Event) : Accounted (serve run) := by
  refine invariant .init (fun sys event h => ?_) run
  cases event with
  | add type => exact h.add type
  | complete request => exact h.complete request

/-- Every request is handed over once or waits, key requests in their order. While one waits,
some request is in flight, and each completion hands over the one that waits longest. -/
theorem requests_not_lost (run : List Event) :
    (serve run).added.Nodup ∧
      ((serve run).handed ++ (serve run).peer.requestQueue).Perm (serve run).added ∧
      ((serve run).handed ++ (serve run).peer.requestQueue).filter (·.isKey) =
        (serve run).added.filter (·.isKey) ∧
      ((serve run).peer.requestQueue ≠ [] → ∃ request, (serve run).InFlight request) ∧
      ∀ events, AtEach System.step (serve run)
          (fun sys event => ∃ request, event = .complete request ∧ sys.InFlight request) events →
        (serve (run ++ events)).peer.requestQueue =
          (serve run).peer.requestQueue.drop events.length := by
  have h := serve_accounted run
  refine ⟨h.nodup, h.nothingLost, h.inOrder, ?_, ?_⟩
  · intro hqueue
    apply h.busy
    by_contra hidle
    exact hqueue (h.idle (by simpa using hidle))
  · intro events hevents
    rw [serve, after_append]
    exact queue_after_completions hevents

/-- If the event hands a key request over, every request of another kind that was added before
it is completed. -/
def KeyWaits (sys : System) (event : Event) : Prop :=
  ∀ key ∈ (sys.calls event).2, key.isKey = true →
    ∀ other ∈ (sys.step event).added, other.isKey = false → other.call < key.call →
      other ∈ (sys.step event).completed

/-- Two requests are in flight, and the first of them is completed before a key request comes. -/
theorem key_request_overtakes :
    ¬ AtEach System.step .init KeyWaits
      [.add .userJoinChannel, .add .listChannels, .complete ⟨.userJoinChannel, 0⟩,
        .add .getUserKeys] := by
  intro h
  have hwaits := h [.add .userJoinChannel, .add .listChannels, .complete ⟨.userJoinChannel, 0⟩]
    (.add .getUserKeys) [] rfl
  have hdone := hwaits ⟨.getUserKeys, 2⟩ (by decide) rfl ⟨.listChannels, 1⟩ (by decide) rfl
    (by decide)
  revert hdone
  decide

/-- The completion that an event is finds no request of another kind in flight that was added
before the key request that waits longest. -/
def HeadIsNext (before : List Event) (next : Event) : Prop :=
  ∀ request key, next = .complete request → (serve before).InFlight request →
    (serve before).peer.requestQueue.head? = some key →
      ∀ other, (serve before).InFlight other → other.isKey = false → other.call < key.call →
        other = request

/-- If a completion has found the queue empty and requests of other kinds in flight, they are
completed too before the key request that an event adds, unless another request of those kinds
has been added since. -/
def CompletedFirst (before : List Event) (next : Event) : Prop :=
  ∀ type early request late, next = .add type → queueEvent type = true →
    before = early ++ .complete request :: late →
      (serve early).InFlight request → (serve early).peer.requestQueue = [] →
        (∀ type, .add type ∈ late → queueEvent type = true) →
          ∀ other, (serve early).InFlight other → other.isKey = false → other ≠ request →
            .complete other ∈ late

section Flag

variable {sys : System}

/-- What has been handed over stays so. -/
theorem handed_subset (events : List Event) :
    sys.handed ⊆ (after System.step sys events).handed := by
  induction events using List.reverseRecOn with
  | nil => exact fun _ hmem => hmem
  | append_singleton events next ih =>
      rw [after_concat]
      exact fun _ hmem => List.mem_append_left _ (ih hmem)

/-- A request that is new has been added by the events. -/
theorem added_after {request : PeerchatBackendRequest} (events : List Event)
    (h : request ∈ (after System.step sys events).added) :
    request ∈ sys.added ∨ .add request.type ∈ events := by
  induction events using List.reverseRecOn with
  | nil => exact .inl h
  | append_singleton events next ih =>
      rw [after_concat] at h
      have hnew : request ∈ (after System.step sys events).added ∨ next = .add request.type := by
        cases next with
        | add type =>
            rcases List.mem_append.mp h with hold | hnew
            · exact .inl hold
            · exact .inr (by rw [List.mem_singleton.mp hnew]; rfl)
        | complete other => exact .inl h
      rcases hnew with hold | rfl
      · exact (ih hold).imp_right (List.mem_append_left _)
      · exact .inr (by simp)

/-- A request that has been handed over is completed by its own completion. -/
theorem completed_after {request : PeerchatBackendRequest} (h : request ∈ sys.handed)
    (events : List Event) :
    request ∈ (after System.step sys events).completed ↔
      request ∈ sys.completed ∨ .complete request ∈ events := by
  induction events using List.reverseRecOn with
  | nil => simp
  | append_singleton events next ih =>
      have hhanded := handed_subset events h
      rw [after_concat, List.mem_append, ← or_assoc, ← ih]
      cases next with
      | add type => simp [System.step]
      | complete other =>
          by_cases hflight : (after System.step sys events).InFlight other
          · rw [step_complete_completed hflight]
            simp
          · rw [step_complete_none hflight]
            constructor
            · exact .inl
            · rintro (hdone | hsame)
              · exact hdone
              · obtain rfl : request = other := by simpa using hsame
                by_contra hdone
                exact hflight ⟨hhanded, hdone⟩

/-- Without a request of another kind the flag stays cleared. -/
theorem pending_after {events : List Event} (hpending : sys.peer.pendingRequest = false)
    (hqueue : sys.peer.requestQueue = [])
    (h : ∀ type, .add type ∈ events → queueEvent type = true) :
    (after System.step sys events).peer = sys.peer := by
  induction events using List.reverseRecOn with
  | nil => rfl
  | append_singleton events next ih =>
      have hsame := ih fun type hmem => h type (List.mem_append_left _ hmem)
      rw [after_concat]
      cases next with
      | add type => rw [step_add_key (h type (by simp)) (by rw [hsame, hpending]), hsame]
      | complete request =>
          by_cases hflight : (after System.step sys events).InFlight request
          · rw [step_complete_empty hflight (by rw [hsame, hqueue]), ← hqueue, ← hpending]
          · rw [step_complete_none hflight, hsame]

/-- The flag is cleared because there has been no request of another kind, or by a completion
that has found the queue empty. -/
theorem pending_cleared (run : List Event) (h : (serve run).peer.pendingRequest = false) :
    (∀ type, .add type ∈ run → queueEvent type = true) ∨
      ∃ early request late, run = early ++ .complete request :: late ∧
        (serve early).InFlight request ∧ (serve early).peer.requestQueue = [] ∧
          ∀ type, .add type ∈ late → queueEvent type = true := by
  induction run using List.reverseRecOn with
  | nil => exact .inl (by simp)
  | append_singleton run next ih =>
      have hidle := (serve_accounted run).idle
      rw [serve, after_concat] at h
      cases next with
      | add type =>
          have hkey : queueEvent type = true := by
            by_contra hkey
            rw [step_add_other (by simpa using hkey)] at h
            cases h
          -- a key request does not touch the flag
          have hbefore : (serve run).peer.pendingRequest = false := by
            by_contra hpending
            rw [step_add_waits hkey (by simpa using hpending)] at h
            exact hpending h
          have hadd : ∀ {events : List Event},
              (∀ type, .add type ∈ events → queueEvent type = true) →
              ∀ other, .add other ∈ events ++ [.add type] → queueEvent other = true := by
            intro events hevents other hmem
            rcases List.mem_append.mp hmem with hold | hnew
            · exact hevents other hold
            · obtain rfl : other = type := by simpa using hnew
              exact hkey
          rcases ih hbefore with hnone | ⟨early, request, late, rfl, hflight, hqueue, hlate⟩
          · exact .inl (hadd hnone)
          · exact .inr ⟨early, request, late ++ [.add type], by simp, hflight, hqueue, hadd hlate⟩
      | complete request =>
          by_cases hflight : (serve run).InFlight request
          · cases hqueue : (serve run).peer.requestQueue with
            | nil => exact .inr ⟨run, request, [], rfl, hflight, hqueue, by simp⟩
            | cons first rest =>
                rw [step_complete_next hflight hqueue] at h
                rw [hidle h] at hqueue
                cases hqueue
          · rw [step_complete_none hflight] at h
            rcases ih h with hnone | ⟨early, other, late, rfl, hother, hqueue, hlate⟩
            · exact .inl (by simpa using hnone)
            · exact .inr ⟨early, other, late ++ [.complete request], by simp, hother, hqueue,
                by simpa using hlate⟩

end Flag

section KeyWaits

variable {before : List Event}

/-- A completion that hands over a key request. -/
theorem key_waits_complete_iff (request : PeerchatBackendRequest) :
    KeyWaits (serve before) (.complete request) ↔ HeadIsNext before (.complete request) := by
  have h := serve_accounted before
  constructor
  · rintro hwaits _ key ⟨⟩ hflight hhead other hother hkind hcall
    have hmem : key ∈ (serve before).peer.requestQueue := List.mem_of_mem_head? hhead
    have hcalls := (mem_calls_complete hflight).mpr hhead
    have hadded := h.mem_added.mpr (.inl hother.1)
    have hdone := hwaits key hcalls (h.onlyKeys key hmem) other hadded hkind hcall
    rw [step_complete_completed hflight, List.mem_append, List.mem_singleton] at hdone
    exact hdone.resolve_left hother.2
  · intro hnext key hcalls _ other hadded hkind hcall
    by_cases hflight : (serve before).InFlight request
    · rw [step_complete_completed hflight, List.mem_append, List.mem_singleton]
      have hhead := (mem_calls_complete hflight).mp hcalls
      by_cases hdone : other ∈ (serve before).completed
      · exact .inl hdone
      · have hhanded := h.handed_of_not_key hadded hkind
        exact .inr (hnext request key rfl hflight hhead other ⟨hhanded, hdone⟩ hkind hcall)
    · simp [System.calls, hflight] at hcalls

/-- A completion that has found the queue empty leaves the flag cleared for the key requests
that come next. -/
theorem pending_of_cleared {early late : List Event} {request : PeerchatBackendRequest}
    (hflight : (serve early).InFlight request) (hqueue : (serve early).peer.requestQueue = [])
    (hlate : ∀ type, .add type ∈ late → queueEvent type = true) :
    (serve (early ++ .complete request :: late)).peer.pendingRequest = false := by
  have hstep := step_complete_empty hflight hqueue
  have hpeer : (after System.step ((serve early).step (.complete request)) late).peer =
      ((serve early).step (.complete request)).peer := by
    apply pending_after
    · rw [hstep]
    · rw [hstep]
    · exact hlate
  rw [serve, after_append]
  show (after System.step ((serve early).step (.complete request)) late).peer.pendingRequest = _
  rw [hpeer, hstep]

/-- A key request that is added. -/
theorem key_waits_add_iff (type : EPeerchatRequestType) :
    KeyWaits (serve before) (.add type) ↔ CompletedFirst before (.add type) := by
  have h := serve_accounted before
  constructor
  · rintro hwaits _ early request late ⟨⟩ hkey rfl hflight hqueue hlate other hother hkind hne
    have hpending := pending_of_cleared hflight hqueue hlate
    have hcalls : (serve (early ++ .complete request :: late)).request type ∈
        ((serve (early ++ .complete request :: late)).calls (.add type)).2 := by
      simp [System.calls, Peer.addTaskRequest, System.request, hkey, hpending]
    have hhanded := handed_subset (.complete request :: late) hother.1
    rw [← after_append] at hhanded
    have hadded := h.mem_added.mpr (.inl hhanded)
    have hdone := hwaits _ hcalls hkey other (List.mem_append_left _ hadded) hkind
      (h.call_lt hadded)
    have hevent : other ∈ (serve (early ++ .complete request :: late)).completed := hdone
    rw [serve, after_append, completed_after hother.1] at hevent
    simpa [hother.2, hne] using hevent
  · intro hfirst key hcalls hkey other hadded hkind hcall
    have hsame := mem_calls_add hcalls
    rw [hsame] at hcall
    have htype : queueEvent type = true := by rw [hsame] at hkey; exact hkey
    by_cases hpending : (serve before).peer.pendingRequest = true
    · rw [calls_add_waits htype hpending] at hcalls
      cases hcalls
    · have hold : other ∈ (serve before).added := by
        rcases List.mem_append.mp hadded with hold | hnew
        · exact hold
        · rw [List.mem_singleton.mp hnew] at hcall
          exact absurd hcall (Nat.lt_irrefl _)
      show other ∈ (serve before).completed
      rcases pending_cleared before (by simpa using hpending) with
        hnone | ⟨early, request, late, rfl, hflight, hqueue, hlate⟩
      · rcases added_after before hold with hstart | hevent
        · cases hstart
        · exact absurd (hnone other.type hevent) (by simpa using hkind)
      · rw [serve, after_append] at hold ⊢
        rcases added_after _ hold with hearly | hevent
        · have hhanded := (serve_accounted early).handed_of_not_key hearly hkind
          rw [completed_after hhanded]
          by_cases hdone : other ∈ (serve early).completed
          · exact .inl hdone
          · by_cases hne : other = request
            · exact .inr (by simp [hne])
            · exact .inr (.tail _ (hfirst type early request late rfl htype rfl hflight hqueue hlate
                other ⟨hhanded, hdone⟩ hkind hne))
        -- behind the completion only key requests are added
        · have hlater : .add other.type ∈ late := by simpa using hevent
          exact absurd (hlate other.type hlater) (by simpa using hkind)

/-- Key requests wait for the requests of other kinds before them if and only if no completion
takes a key request from the queue while an earlier one of those is in flight, and, after a
completion that finds the queue empty, those that it finds in flight are completed before
a key request comes. -/
theorem key_requests_wait_iff (run : List Event) :
    AtEach System.step .init KeyWaits run ↔
      AtEvery (fun before next => HeadIsNext before next ∧ CompletedFirst before next) run := by
  refine at_every_congr fun before next => ?_
  cases next with
  | add type =>
      have hhead : HeadIsNext before (.add type) := by rintro _ _ ⟨⟩
      exact (key_waits_add_iff type).trans (and_iff_right hhead).symm
  | complete request =>
      have hfirst : CompletedFirst before (.complete request) := by rintro _ _ _ _ ⟨⟩
      exact (key_waits_complete_iff request).trans (and_iff_left hfirst).symm

end KeyWaits

end OpenSpy.Peerchat.TaskQueue
