import OpenSpy.Library.Runs

/-!
# The responses of the gamestats workers

A worker queues its response in `m_callback_responses` and signals the loop, and signals again
if it finds the queue not empty behind that. The loop runs `uvworker_callback_dispatcher` for
the signals, which handles one response. Any number of pending signals may be merged into one
run, so several responses may be left for the last of them (`response_left_behind`,
`responses_delivered_iff`).
-/

namespace OpenSpy.GS.Callbacks

open Commands Runs

/-- What a worker does next. A worker whose response is `perform` has not queued it yet. -/
inductive Worker (ρ : Type) where
  | perform (response : ρ)
  | signal
  | maybeDispatch
  | signalAgain
  | finished
  deriving DecidableEq

/-- The queue, the signals that no run has taken yet, whether the loop is about to run the
dispatcher, and the workers. Beside them all responses that have been queued, and those that
have been delivered. -/
structure Tasks (ρ : Type) where
  callbackResponses : List ρ
  signals : Nat
  woken : Bool
  workers : List (Worker ρ)
  queued : List ρ
  delivered : List ρ
  deriving DecidableEq

/-- What happens next: a worker starts, a worker takes its next step, the loop takes some of the
pending signals, or it runs the dispatcher. -/
inductive Event (ρ : Type) where
  | start (response : ρ)
  | work (i : Nat)
  | wake (merged : Nat)
  | dispatch
  deriving DecidableEq

variable {ρ : Type}

namespace Tasks

/-- The state behind `InitTasks`. -/
def init : Tasks ρ :=
  ⟨[], 0, false, [], [], []⟩

/-- `uv_async_send`. -/
def uvAsyncSend (tasks : Tasks ρ) : Tasks ρ :=
  { tasks with signals := tasks.signals + 1 }

/-- The worker is at another step. -/
def setWorker (tasks : Tasks ρ) (i : Nat) (worker : Worker ρ) : Tasks ρ :=
  { tasks with workers := tasks.workers.set i worker }

/-- A step of a worker: `callback_dispatch_later` queues the response and signals,
`maybe_dispatch_responses` looks at the queue and signals again. -/
def work (tasks : Tasks ρ) (i : Nat) : Tasks ρ :=
  match tasks.workers[i]? with
  | some (.perform response) =>
      { tasks.setWorker i .signal with
        callbackResponses := tasks.callbackResponses ++ [response]
        queued := tasks.queued ++ [response] }
  | some .signal => (tasks.setWorker i .maybeDispatch).uvAsyncSend
  | some .maybeDispatch =>
      if tasks.callbackResponses.isEmpty then tasks.setWorker i .finished
      else tasks.setWorker i .signalAgain
  | some .signalAgain => (tasks.setWorker i .finished).uvAsyncSend
  | some .finished | none => tasks

/-- `uvworker_callback_dispatcher`. -/
def uvworkerCallbackDispatcher (tasks : Tasks ρ) : Tasks ρ :=
  match tasks.callbackResponses with
  | response :: rest =>
      { tasks with callbackResponses := rest, delivered := tasks.delivered ++ [response] }
  | [] => tasks

/-- One event. The loop wakes up for at least one signal and runs the dispatcher before it wakes
up again. -/
def step (tasks : Tasks ρ) : Event ρ → Tasks ρ
  | .start response => { tasks with workers := tasks.workers ++ [.perform response] }
  | .work i => tasks.work i
  -- libuv may run the dispatcher once for several pending signals
  | .wake merged =>
      if 0 < merged ∧ merged ≤ tasks.signals ∧ tasks.woken = false then
        { tasks with signals := tasks.signals - merged, woken := true }
      else tasks
  | .dispatch =>
      if tasks.woken then { tasks.uvworkerCallbackDispatcher with woken := false } else tasks

/-- No worker is running. -/
def Idle (tasks : Tasks ρ) : Prop :=
  ∀ worker ∈ tasks.workers, worker = .finished

/-- No worker is running and no signal is pending, and the loop has run for the last one. -/
def Quiescent (tasks : Tasks ρ) : Prop :=
  tasks.Idle ∧ tasks.signals = 0 ∧ tasks.woken = false

/-- Nothing is left in the queue, and what was queued has been delivered in that order. -/
def NothingLeft (tasks : Tasks ρ) : Prop :=
  tasks.Quiescent → tasks.callbackResponses = [] ∧ tasks.delivered = tasks.queued

end Tasks

/-- The state that a run leads to. -/
abbrev serve (run : List (Event ρ)) : Tasks ρ :=
  after Tasks.step .init run

/-- A run of the dispatcher for the last pending signals finds at most one response if no worker
is running any more. -/
def LastRunSuffices (tasks : Tasks ρ) (event : Event ρ) : Prop :=
  event = .dispatch → tasks.woken = true → tasks.Idle → tasks.signals = 0 →
    tasks.callbackResponses.length ≤ 1

/-- Two workers signal twice each, and all four signals are merged into one run. -/
def mergedRun : List (Event Nat) :=
  [.start 1, .start 2, .work 0, .work 1, .work 0, .work 1, .work 0, .work 1, .work 0, .work 1,
    .wake 4, .dispatch]

/-- The second response is left behind. -/
theorem response_left_behind :
    ¬ ∀ before, before <+: mergedRun → (serve before).NothingLeft := by
  intro h
  have hquiescent : (serve mergedRun).Quiescent := by
    refine ⟨?_, rfl, rfl⟩
    show ∀ worker ∈ [Worker.finished, Worker.finished], worker = .finished
    decide
  obtain ⟨hempty, -⟩ := h mergedRun (List.prefix_refl _) hquiescent
  cases hempty

section Order

variable {tasks : Tasks ρ}

/-- What was queued has been delivered or is in the queue. -/
def InOrder (tasks : Tasks ρ) : Prop :=
  tasks.delivered ++ tasks.callbackResponses = tasks.queued

theorem in_order_work (h : InOrder tasks) (i : Nat) : InOrder (tasks.work i) := by
  rw [Tasks.work]
  split
  · rename_i response hget
    show tasks.delivered ++ (tasks.callbackResponses ++ [response]) = tasks.queued ++ [response]
    rw [← List.append_assoc, h]
  · exact h
  · split
    · exact h
    · exact h
  · exact h
  · exact h
  · exact h

theorem in_order_dispatch (h : InOrder tasks) : InOrder tasks.uvworkerCallbackDispatcher := by
  rw [Tasks.uvworkerCallbackDispatcher]
  split
  · rename_i response rest hqueue
    rw [InOrder, hqueue] at h
    rw [InOrder, List.append_assoc]
    exact h
  · exact h

/-- Responses are delivered in the order queued. -/
theorem serve_in_order (run : List (Event ρ)) : InOrder (serve run) := by
  refine @invariant _ _ Tasks.step .init InOrder rfl (fun tasks event h => ?_) run
  cases event with
  | start response => exact h
  | work i => exact in_order_work h i
  | wake merged =>
      rw [Tasks.step]
      split
      · exact h
      · exact h
  | dispatch =>
      rw [Tasks.step]
      split
      · exact in_order_dispatch h
      · exact h

end Order

section LastRun

variable {tasks : Tasks ρ}

/-- A worker that is not finished is running. -/
theorem not_idle_set {i : Nat} {worker other : Worker ρ} (hget : tasks.workers[i]? = some other)
    (hrunning : worker ≠ .finished) : ¬ (tasks.setWorker i worker).Idle := by
  obtain ⟨hi, -⟩ := List.getElem?_eq_some_iff.mp hget
  intro hidle
  exact hrunning (hidle worker (List.mem_set hi worker))

/-- A worker's step that comes to an end leaves no response without a signal. -/
theorem work_quiescent {i : Nat} (hquiescent : (tasks.work i).Quiescent) :
    tasks.work i = tasks ∨ (tasks.work i).callbackResponses = [] := by
  obtain ⟨hidle, hsignals, -⟩ := hquiescent
  cases hget : tasks.workers[i]? with
  | none => exact .inl (by rw [Tasks.work, hget])
  | some worker =>
      cases worker with
      | perform response =>
          rw [Tasks.work, hget] at hidle
          exact absurd hidle (not_idle_set hget (by simp))
      | signal =>
          rw [Tasks.work, hget] at hsignals
          cases hsignals
      | maybeDispatch =>
          rw [Tasks.work, hget] at hidle ⊢
          dsimp only at hidle ⊢
          -- only a worker that has found the queue empty finishes without a signal
          split at hidle
          · rename_i hempty
            rw [if_pos hempty]
            exact .inr (List.isEmpty_iff.mp hempty)
          · exact absurd hidle (not_idle_set hget (by simp))
      | signalAgain =>
          rw [Tasks.work, hget] at hsignals
          cases hsignals
      | finished => exact .inl (by rw [Tasks.work, hget])

/-- An event that ends in such a state with a response in the queue is a last run that does not
suffice, or changes nothing. -/
theorem step_left {event : Event ρ} (hsuffices : LastRunSuffices tasks event)
    (hquiescent : (tasks.step event).Quiescent) :
    tasks.step event = tasks ∨ (tasks.step event).callbackResponses = [] := by
  cases event with
  | start response =>
      have hfinished := hquiescent.1 (.perform response) (by simp [Tasks.step])
      cases hfinished
  | work i => exact work_quiescent hquiescent
  | wake merged =>
      rw [Tasks.step] at hquiescent ⊢
      split at hquiescent
      · cases hquiescent.2.2
      · rename_i hnone
        exact .inl (if_neg hnone)
  | dispatch =>
      rw [Tasks.step] at hquiescent ⊢
      split at hquiescent
      · rename_i hwoken
        rw [if_pos hwoken]
        obtain ⟨hidle, hsignals, -⟩ := hquiescent
        right
        cases hqueue : tasks.callbackResponses with
        | nil => simp [Tasks.uvworkerCallbackDispatcher, hqueue]
        | cons response rest =>
            simp only [Tasks.uvworkerCallbackDispatcher, hqueue] at hidle hsignals ⊢
            have hlength := hsuffices rfl hwoken hidle hsignals
            rw [hqueue, List.length_cons] at hlength
            exact List.length_eq_zero_iff.mp (by omega)
      · rename_i hwoken
        exact .inl (if_neg hwoken)

/-- A last run that leaves nothing has found at most one response. -/
theorem last_run_suffices (h : (tasks.step .dispatch).NothingLeft) :
    LastRunSuffices tasks .dispatch := by
  intro _ hwoken hidle hsignals
  cases hqueue : tasks.callbackResponses with
  | nil => exact Nat.zero_le 1
  | cons response rest =>
      have hstep : tasks.step .dispatch =
          { tasks with
            callbackResponses := rest
            delivered := tasks.delivered ++ [response]
            woken := false } := by
        rw [Tasks.step, if_pos hwoken, Tasks.uvworkerCallbackDispatcher, hqueue]
      rw [hstep] at h
      obtain ⟨hempty, -⟩ := h ⟨hidle, hsignals, rfl⟩
      have hrest : rest = [] := hempty
      simp [hrest]

end LastRun

/-- In a run that meets the condition no quiescent state has a response in the queue. -/
theorem queue_empty_of_quiescent {run : List (Event ρ)}
    (h : AtEach Tasks.step .init LastRunSuffices run) (hquiescent : (serve run).Quiescent) :
    (serve run).callbackResponses = [] := by
  induction run using List.reverseRecOn with
  | nil => rfl
  | append_singleton run next ih =>
      obtain ⟨hrun, hnext⟩ := at_each_concat.mp h
      rw [serve, after_concat] at hquiescent ⊢
      rcases step_left hnext hquiescent with hsame | hempty
      · rw [hsame] at hquiescent ⊢
        exact ih hrun hquiescent
      · exact hempty

/-- Whenever no worker is running and no signal is pending every response has been delivered, in
order, if and only if each run of the dispatcher for the last pending signals finds at most one
response once no worker is running. -/
theorem responses_delivered_iff (run : List (Event ρ)) :
    (∀ before, before <+: run → (serve before).NothingLeft) ↔
      AtEach Tasks.step .init LastRunSuffices run := by
  constructor
  · rintro h before next rest rfl rfl
    refine last_run_suffices ?_ rfl
    have hnext := h (before ++ [.dispatch]) ⟨rest, by simp⟩
    rwa [serve, after_concat] at hnext
  · intro h before hbefore hquiescent
    have hempty := queue_empty_of_quiescent (h.of_prefix hbefore) hquiescent
    have horder := serve_in_order before
    rw [InOrder, hempty, List.append_nil] at horder
    exact ⟨hempty, horder⟩

end OpenSpy.GS.Callbacks
