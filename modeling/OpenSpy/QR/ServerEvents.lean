import OpenSpy.QR.ServerLife

/-!
# Server events and the life of a record

`new` announces a server and `del` its end, and `update` comes in between. A task sends its
event by what it finds in the record, and this goes well as long as the heartbeat count is
there just for the announced servers. `Fits` says for each deed what it has to find for that,
and `events_follow_life` that the events are in order if every task of a run finds it. A
heartbeat of version 2 that registers an announced server is what does not fit
(`restart_announced_twice`).
-/

namespace OpenSpy.QR

open Commands Bytes MachineInt

/-- The events that begin or end a server's life. -/
def turns (events : List EventKind) : List EventKind :=
  events.filter (· ≠ .update)

/-- `new` and `del` alternate, starting with `new`. -/
def Alternate (events : List EventKind) : Prop :=
  ∀ i kind, (turns events)[i]? = some kind → kind = if i % 2 = 0 then .new else .del

/-- Every `update` comes between a `new` and the next `del`. -/
def UpdatesInLife (events : List EventKind) : Prop :=
  ∀ before after, events = before ++ .update :: after → (turns before).getLast? = some .new

/-- The last event is there and is not a `del`. -/
def Announced (events : List EventKind) : Prop :=
  ∃ kind, events.getLast? = some kind ∧ kind ≠ .del

/-- What a deed of a task of the given version has to find for the heartbeat count. -/
def Fits (version : Int) : Deed → Option Int → Prop
  | .register, count => version ≠ 1 → count = none
  | .shutdown, count => count ≠ none
  | .update, count =>
      (version ≠ 1 → count ≠ none) ∧ (version = 1 → count ≠ none → hbCount count ≠ 1)
  | .accept, count => version ≠ 1 → count = none

instance (version : Int) (count : Option Int) : (deed : Deed) → Decidable (Fits version deed count)
  | .register | .accept => inferInstanceAs (Decidable (version ≠ 1 → count = none))
  | .shutdown => inferInstanceAs (Decidable (count ≠ none))
  | .update => inferInstanceAs (Decidable ((version ≠ 1 → count ≠ none) ∧
      (version = 1 → count ≠ none → hbCount count ≠ 1)))

/-- If the task does something to the server, it finds the heartbeat count that fits. -/
def TaskFits (key : Bytes) (s : Store) (request : Request) : Prop :=
  ∀ deed, deedOf s request = some (key, deed) →
    Fits request.version deed (s.records key .numUpdates)

/-- The store behind tasks that run to completion one after the other. -/
def runTasks (requests : List Request) : Store :=
  requests.foldl runTask .empty

/-- Something holds of every task of a run and the store it finds. -/
def AtEveryTask (holds : Store → Request → Prop) (requests : List Request) : Prop :=
  AtEvery (fun before request => holds (runTasks before) request) requests

/-- All tasks that do something to the server are of version 1. -/
def V1Server (key : Bytes) : List Request → Prop :=
  AtEveryTask fun s request => ∀ deed, deedOf s request = some (key, deed) → request.version = 1

/-- All tasks that do something to the server are of another version, which is 2. -/
def V2Server (key : Bytes) : List Request → Prop :=
  AtEveryTask fun s request => ∀ deed, deedOf s request = some (key, deed) → request.version ≠ 1

/-- After the run the events sent for the server are in order, and if it is of version 2, the
last one is not a `del` just if its record is there and not marked deleted. -/
def EventsFollow (key : Bytes) (requests : List Request) : Prop :=
  Alternate ((runTasks requests).life key).events ∧
    UpdatesInLife ((runTasks requests).life key).events ∧
    (V2Server key requests →
      (Announced ((runTasks requests).life key).events ↔
        ((runTasks requests).records key).Present ∧
          (runTasks requests).records key .deleted ≠ some true))

/-- A history of events in order, and whether the server is announced at its end. -/
inductive Told : List EventKind → Bool → Prop where
  | nil : Told [] false
  | new {events : List EventKind} (h : Told events false) : Told (events ++ [.new]) true
  | update {events : List EventKind} (h : Told events true) : Told (events ++ [.update]) true
  | del {events : List EventKind} (h : Told events true) : Told (events ++ [.del]) false

theorem turns_append (events : List EventKind) (kind : EventKind) :
    turns (events ++ [kind]) =
      if kind = .update then turns events else turns events ++ [kind] := by
  cases kind <;> simp [turns, List.filter_append]

/-- One more turn keeps the alternation if it is the one that is due. -/
theorem alternate_append {events : List EventKind} {kind : EventKind} (h : Alternate events)
    (hdue : kind ≠ .update → kind = if (turns events).length % 2 = 0 then .new else .del) :
    Alternate (events ++ [kind]) := by
  intro i other hget
  rw [turns_append] at hget
  split at hget
  · exact h i other hget
  · rename_i hkind
    rw [List.getElem?_append] at hget
    split at hget
    · exact h i other hget
    · rename_i hi
      obtain ⟨hlast, hother⟩ := List.getElem?_eq_some_iff.mp hget
      rw [List.getElem_singleton] at hother
      rw [List.length_singleton] at hlast
      rw [← hother, hdue hkind, show i = (turns events).length by omega]

/-- One more event keeps the updates in a life if, where it is an update, the last turn was a
`new`. -/
theorem updates_append {events : List EventKind} {kind : EventKind} (h : UpdatesInLife events)
    (hkind : kind = .update → (turns events).getLast? = some .new) :
    UpdatesInLife (events ++ [kind]) := by
  intro before after heq
  rcases List.eq_nil_or_concat after with rfl | ⟨rest, last, rfl⟩
  · obtain ⟨rfl, hlast⟩ := List.append_inj' heq rfl
    exact hkind (by simpa using hlast)
  · rw [List.concat_eq_append, ← List.cons_append, ← List.append_assoc] at heq
    obtain ⟨hevents, -⟩ := List.append_inj' heq rfl
    exact h before rest hevents

namespace Told

variable {events : List EventKind} {alive : Bool}

/-- If the server is announced, there was an odd number of turns, and the last one was a
`new`. -/
theorem turns_spec (h : Told events alive) :
    ((turns events).length % 2 = if alive then 1 else 0) ∧
      (alive = true → (turns events).getLast? = some .new) := by
  induction h with
  | nil => simp [turns]
  | new _ ih =>
      simp only [Bool.false_eq_true, if_false] at ih
      simp [turns_append]
      omega
  | update _ ih => simpa [turns_append] using ih
  | del _ ih =>
      simp only [if_true] at ih
      simp [turns_append]
      omega

theorem alternate (h : Told events alive) : Alternate events := by
  induction h with
  | nil =>
      intro i kind hget
      simp [turns] at hget
  | new h ih => exact alternate_append ih fun _ => by rw [h.turns_spec.1]; rfl
  | update _ ih => exact alternate_append ih fun hne => absurd rfl hne
  | del h ih => exact alternate_append ih fun _ => by rw [h.turns_spec.1]; rfl

theorem updates_in_life (h : Told events alive) : UpdatesInLife events := by
  induction h with
  | nil =>
      intro before after heq
      simp at heq
  | new _ ih => exact updates_append ih (by simp)
  | update h ih => exact updates_append ih fun _ => h.turns_spec.2 rfl
  | del _ ih => exact updates_append ih (by simp)

/-- A `del` is out of order if the server is not announced. -/
theorem not_alternate_del (h : Told events false) : ¬ Alternate (events ++ [.del]) := by
  intro halternate
  have hlast := halternate (turns events).length .del (by simp [turns_append])
  simp [h.turns_spec.1] at hlast

/-- A `new` is out of order if the server is announced. -/
theorem not_alternate_new (h : Told events true) : ¬ Alternate (events ++ [.new]) := by
  intro halternate
  have hlast := halternate (turns events).length .new (by simp [turns_append])
  simp [h.turns_spec.1] at hlast

/-- An `update` is out of order if the server is not announced. -/
theorem not_updates_update (h : Told events false) : ¬ UpdatesInLife (events ++ [.update]) := by
  intro hupdates
  have hnew := hupdates events [] rfl
  cases h with
  | nil => simp [turns] at hnew
  | del _ => simp [turns_append] at hnew

/-- The last event tells whether the server is announced. -/
theorem announced_iff (h : Told events alive) : Announced events ↔ alive = true := by
  cases h <;> simp [Announced]

end Told

/-- The events are in order, and the heartbeat count is there just for an announced server. -/
def Life.Ordered (life : Life) : Prop :=
  Told life.events life.count.isSome

/-- A deed that finds the count it fits keeps the events in order. -/
theorem Life.Ordered.after {life : Life} (h : life.Ordered) {version : Int} {deed : Deed}
    (hfits : Fits version deed life.count) : (life.after version deed).Ordered := by
  obtain ⟨count, deleted, events⟩ := life
  have htold : Told events count.isSome := h
  cases deed with
  | register =>
      by_cases hversion : version = 1
      · simpa [Life.after, Life.Ordered, hversion] using htold
      · obtain rfl : count = none := hfits hversion
        simpa [Life.after, Life.Ordered, hversion] using htold
  | shutdown =>
      have hcount : count.isSome = true := Option.isSome_iff_ne_none.mpr hfits
      rw [hcount] at htold
      exact htold.del
  | update =>
      cases count with
      | none =>
          -- only version 1 starts a life here, with its first heartbeat
          have hversion : version = 1 := by
            by_contra hne
            exact hfits.1 hne rfl
          have hkind : updateKind version none = .new := by
            simp [updateKind, hversion, hbCount, int32]
          show Told (events ++ [updateKind version none]) true
          rw [hkind]
          exact htold.new
      | some n =>
          have hkind : updateKind version (some n) = .update := by
            refine if_neg fun hfirst => ?_
            exact hfits.2 hfirst.2 (by simp) hfirst.1
          have hsome : (nextCount (some n)).isSome = true := by
            unfold nextCount
            split <;> rfl
          show Told (events ++ [updateKind version (some n)]) (nextCount (some n)).isSome
          rw [hkind, hsome]
          exact htold.update
  | accept =>
      by_cases hversion : version = 1
      · simpa [Life.after, Life.Ordered, hversion] using htold
      · obtain rfl : count = none := hfits hversion
        simpa [Life.after, Life.Ordered, hversion] using htold.new

/-- In a server's record of version 2, the count is there just for a server that is not
deleted, and a record has the deleted flag. -/
def Record.OfV2 (record : Record) : Prop :=
  ((record .numUpdates).isSome = true ↔ record .deleted = some false) ∧
    (record.Present → (record .deleted).isSome)

/-- A deed of version 2 that finds the count it fits keeps the record so. -/
theorem Record.OfV2.after {record record' : Record} {events events' : List EventKind}
    (h : record.OfV2) {version : Int} (hversion : version ≠ 1) {deed : Deed}
    (hfits : Fits version deed (record .numUpdates))
    (hafter : (⟨record' .numUpdates, record' .deleted, events'⟩ : Life) =
      Life.after version deed ⟨record .numUpdates, record .deleted, events⟩) :
    record'.OfV2 := by
  cases deed with
  | register =>
      obtain ⟨hcount, hdeleted, -⟩ : record' .numUpdates = none ∧ record' .deleted = some true ∧
          events' = events := by simpa [Life.after, hversion] using hafter
      simp [OfV2, hcount, hdeleted]
  | shutdown =>
      obtain ⟨hcount, hdeleted, -⟩ : record' .numUpdates = none ∧ record' .deleted = some true ∧
          events' = _ := by simpa [Life.after] using hafter
      simp [OfV2, hcount, hdeleted]
  | update =>
      obtain ⟨n, hn⟩ := Option.ne_none_iff_exists'.mp (hfits.1 hversion)
      have hlive : record .deleted = some false := h.1.mp (by simp [hn])
      obtain ⟨hcount, hdeleted, -⟩ : record' .numUpdates = nextCount (record .numUpdates) ∧
          record' .deleted = record .deleted ∧ events' = _ := by
        simpa [Life.after] using hafter
      have hsome : (record' .numUpdates).isSome = true := by
        rw [hcount, hn, nextCount]
        split <;> rfl
      simp [OfV2, hsome, hdeleted, hlive]
  | accept =>
      obtain ⟨hcount, hdeleted, -⟩ : record' .numUpdates = some 1 ∧
          record' .deleted = some false ∧ events' = _ := by
        simpa [Life.after, hversion] using hafter
      simp [OfV2, hcount, hdeleted]

theorem run_tasks_append (requests : List Request) (request : Request) :
    runTasks (requests ++ [request]) = runTask (runTasks requests) request := by
  simp [runTasks]

/-- A run of tasks that fit goes on with a deed that fits. -/
theorem fits_append {key : Bytes} {requests : List Request} {s : Store} {request : Request}
    {deed : Deed} (h : AtEveryTask (TaskFits key) requests ∧ runTasks requests = s)
    (hdeed : deedOf s request = some (key, deed))
    (hfits : Fits request.version deed (s.records key .numUpdates)) :
    AtEveryTask (TaskFits key) (requests ++ [request]) ∧
      runTasks (requests ++ [request]) = runDeed s request (some (key, deed)) := by
  obtain ⟨hrun, rfl⟩ := h
  refine ⟨at_every_append.mpr ⟨hrun, fun other hother => ?_⟩, ?_⟩
  · obtain rfl : deed = other := by simpa [hdeed] using hother
    exact hfits
  · rw [run_tasks_append, run_task_of_deed hdeed]

/-- A server's events are in order in a run of tasks that fit. -/
theorem ordered_run {key : Bytes} {requests : List Request}
    (h : AtEveryTask (TaskFits key) requests) : ((runTasks requests).life key).Ordered := by
  induction requests using List.reverseRecOn with
  | nil => exact Told.nil
  | append_singleton requests request ih =>
      obtain ⟨hrun, hfits⟩ := at_every_append.mp h
      rw [run_tasks_append]
      by_cases hdeed : ∃ deed, deedOf (runTasks requests) request = some (key, deed)
      · obtain ⟨deed, hdeed⟩ := hdeed
        rw [life_run_task _ _ hdeed]
        exact (ih hrun).after (hfits deed hdeed)
      · rw [(same_server_run_task _ _ fun deed hsome => hdeed ⟨deed, hsome⟩).life]
        exact ih hrun

/-- The record of a server of version 2 tells its life in a run of tasks that fit. -/
theorem of_v2_run {key : Bytes} {requests : List Request}
    (h : AtEveryTask (TaskFits key) requests) (hkey : V2Server key requests) :
    ((runTasks requests).records key).OfV2 := by
  induction requests using List.reverseRecOn with
  | nil => exact ⟨by simp [runTasks, Store.empty, Record.empty],
      by simp [runTasks, Store.empty, Record.empty, Record.Present]⟩
  | append_singleton requests request ih =>
      obtain ⟨hrun, hfits⟩ := at_every_append.mp h
      obtain ⟨hrunkey, hversion⟩ := at_every_append.mp hkey
      rw [run_tasks_append]
      by_cases hdeed : ∃ deed, deedOf (runTasks requests) request = some (key, deed)
      · obtain ⟨deed, hdeed⟩ := hdeed
        exact (ih hrun hrunkey).after (hversion deed hdeed) (hfits deed hdeed)
          (life_run_task _ _ hdeed)
      · rw [(same_server_run_task _ _ fun deed hsome => hdeed ⟨deed, hsome⟩).1]
        exact ih hrun hrunkey

/-- The events follow the life of a server in a run of tasks that fit. -/
theorem events_follow_run {key : Bytes} {requests : List Request}
    (h : AtEveryTask (TaskFits key) requests) : EventsFollow key requests := by
  have htold : Told ((runTasks requests).life key).events
      ((runTasks requests).records key .numUpdates).isSome := ordered_run h
  refine ⟨htold.alternate, htold.updates_in_life, fun hkey => ?_⟩
  obtain ⟨hcount, hpresent⟩ := of_v2_run h hkey
  rw [htold.announced_iff, hcount]
  constructor
  · intro hdeleted
    exact ⟨⟨.deleted, by simp [hdeleted]⟩, by simp [hdeleted]⟩
  · rintro ⟨hthere, hne⟩
    obtain ⟨deleted, hdeleted⟩ := Option.isSome_iff_exists.mp (hpresent hthere)
    cases deleted with
    | false => exact hdeleted
    | true => exact absurd hdeleted hne

/-- A deed of a task of version 1 that does not find the count it fits puts the events out of
order. -/
theorem Life.Ordered.fits_v1 {life : Life} (h : life.Ordered) {version : Int}
    (hversion : version = 1) {deed : Deed}
    (halternate : Alternate (life.after version deed).events) : Fits version deed life.count := by
  obtain ⟨count, deleted, events⟩ := life
  have htold : Told events count.isSome := h
  cases deed with
  | register => exact fun hne => absurd hversion hne
  | shutdown =>
      rintro rfl
      exact htold.not_alternate_del halternate
  | update =>
      refine ⟨fun hne => absurd hversion hne, fun _ hcount hfirst => ?_⟩
      rw [Option.isSome_iff_ne_none.mpr hcount] at htold
      have hkind : updateKind version count = .new := if_pos ⟨hfirst, hversion⟩
      refine htold.not_alternate_new ?_
      rwa [Life.after, hkind] at halternate
  | accept => exact fun hne => absurd hversion hne

/-- A deed of a task of version 2 that does not find the count it fits puts the events out of
order, or leaves an announced server deleted. -/
theorem Life.Ordered.fits_v2 {life : Life} (h : life.Ordered) {version : Int}
    (hversion : version ≠ 1) {deed : Deed}
    (halternate : Alternate (life.after version deed).events)
    (hupdates : UpdatesInLife (life.after version deed).events)
    (hannounced : Announced (life.after version deed).events →
      (life.after version deed).deleted ≠ some true) : Fits version deed life.count := by
  obtain ⟨count, deleted, events⟩ := life
  have htold : Told events count.isSome := h
  cases deed with
  | register =>
      intro _
      by_contra hcount
      rw [Option.isSome_iff_ne_none.mpr hcount] at htold
      exact hannounced (htold.announced_iff.mpr rfl) rfl
  | shutdown =>
      rintro rfl
      exact htold.not_alternate_del halternate
  | update =>
      refine ⟨fun _ hcount => ?_, fun heq => absurd heq hversion⟩
      subst hcount
      have hkind : updateKind version none = .update := if_neg fun hfirst => hversion hfirst.2
      rw [Life.after, hkind] at hupdates
      exact htold.not_updates_update hupdates
  | accept =>
      intro _
      by_contra hcount
      rw [Option.isSome_iff_ne_none.mpr hcount] at htold
      refine htold.not_alternate_new ?_
      simpa [Life.after, hversion] using halternate

/-- If the events follow the life of a server of one version all along a run, all tasks fit. -/
theorem fits_of_events_follow {key : Bytes} {requests : List Request}
    (hversion : V1Server key requests ∨ V2Server key requests)
    (h : ∀ before, before <+: requests → EventsFollow key before) :
    AtEveryTask (TaskFits key) requests := by
  induction requests using List.reverseRecOn with
  | nil => exact at_every_nil
  | append_singleton requests request ih =>
      have hrun : AtEveryTask (TaskFits key) requests := by
        refine ih ?_ fun before hbefore => h before (hbefore.trans (List.prefix_append _ _))
        exact hversion.imp (fun hv => (at_every_append.mp hv).1)
          (fun hv => (at_every_append.mp hv).1)
      refine at_every_append.mpr ⟨hrun, fun deed hdeed => ?_⟩
      obtain ⟨halternate, hupdates, hlast⟩ := h _ (List.prefix_refl _)
      have hlife := life_run_task _ _ hdeed
      rw [run_tasks_append, hlife] at halternate hupdates
      rcases hversion with hv1 | hv2
      · exact (ordered_run hrun).fits_v1 ((at_every_append.mp hv1).2 deed hdeed) halternate
      · refine (ordered_run hrun).fits_v2 ((at_every_append.mp hv2).2 deed hdeed) halternate
          hupdates fun hannounced => ?_
        have hfollow := hlast hv2
        rw [run_tasks_append, hlife] at hfollow
        have hdeleted := (hfollow.mp hannounced).2
        rwa [show (runTask (runTasks requests) request).records key .deleted =
          ((runTask (runTasks requests) request).life key).deleted from rfl, hlife] at hdeleted

/-- The events follow the life of a server all along every run of tasks that find the heartbeat
count they fit, and for a server of one version only along such runs. -/
theorem events_follow_life (key : Bytes) (requests : List Request) :
    (AtEveryTask (TaskFits key) requests →
        ∀ before, before <+: requests → EventsFollow key before) ∧
      (V1Server key requests ∨ V2Server key requests →
        (∀ before, before <+: requests → EventsFollow key before) →
          AtEveryTask (TaskFits key) requests) := by
  exact ⟨fun h before hbefore => events_follow_run (h.of_prefix hbefore), fits_of_events_follow⟩

/-- The address of a server. -/
def hostAddress : Address :=
  ⟨⟨10, 0, 0, 1⟩, 6500⟩

/-- A heartbeat of version 2 with the given `statechanged`. -/
def hostHeartbeat (statechanged : Bytes) : Request where
  type := .heartbeat
  version := 2
  instanceKey := 77
  fromAddress := hostAddress
  address := hostAddress
  keys name :=
    if name = ascii "gamename" then some (ascii "gmtest")
    else if name = ascii "statechanged" then some statechanged
    else none
  gamename := []
  secretkey := ascii "HA6zkS"
  challenge := ascii "aBcDeF370A0000011964"

/-- The right answer to the challenge of its heartbeats. -/
def hostAnswer : Request :=
  { hostHeartbeat [] with
    type := .validateServer
    gamename := (hostHeartbeat []).challengeResp }

/-- The server key that the server gets. -/
def hostKey : Bytes :=
  ascii "gmtest:1:"

/-- The right answer is what a registration of the server expects. -/
theorem host_answers (statechanged : Bytes) :
    Answers (some (hostHeartbeat statechanged).challengeResp) hostAnswer.gamename := by
  have hno : char '"' ∉ hostAnswer.gamename := challenge_resp_no_quote (hostHeartbeat [])
  rw [show (hostHeartbeat statechanged).challengeResp = hostAnswer.gamename from rfl, Answers,
    Option.getD_some, strip_quotes_eq_self hno, choppedChallenge, if_neg (lt_irrefl _)]

/-- The right answer is accepted while the server is marked deleted. -/
theorem host_answer_accepted {s : Store} (statechanged : Bytes)
    (hkey : (run exec (getServerKeyFromRequest hostAnswer) s).1 = hostKey)
    (hdeleted : s.records hostKey .deleted = some true)
    (hchallenge : s.records hostKey .challenge =
      some (hostHeartbeat statechanged).challengeResp) :
    deedOf s hostAnswer = some (hostKey, .accept) := by
  have hanswers := host_answers statechanged
  rw [← hchallenge] at hanswers
  show validateDeed s hostAnswer (run exec (getServerKeyFromRequest hostAnswer) s).1 = _
  rw [hkey, validateDeed, if_pos ⟨by decide, hanswers, hdeleted⟩]

/-- The store behind the server's registration. -/
def hostRegistered : Store :=
  runDeed .empty (hostHeartbeat (ascii "3")) (some (hostKey, .register))

/-- The store behind the server's answer to it. -/
def hostAccepted : Store :=
  runDeed hostRegistered hostAnswer (some (hostKey, .accept))

theorem deed_of_first_heartbeat :
    deedOf .empty (hostHeartbeat (ascii "3")) = some (hostKey, .register) := by
  decide +kernel

theorem deed_of_first_answer : deedOf hostRegistered hostAnswer = some (hostKey, .accept) :=
  host_answer_accepted (ascii "3") (by decide +kernel) (by decide +kernel) rfl

/-- The events of a server that registers, answers its challenge, sends an update and shuts down
follow its life. -/
theorem shutdown_run_follows :
    EventsFollow hostKey [hostHeartbeat (ascii "3"), hostAnswer, hostHeartbeat (ascii "1"),
      hostHeartbeat (ascii "2")] := by
  let updated := runDeed hostAccepted (hostHeartbeat (ascii "1")) (some (hostKey, .update))
  have hupdate : deedOf hostAccepted (hostHeartbeat (ascii "1")) = some (hostKey, .update) := by
    decide +kernel
  have hshutdown : deedOf updated (hostHeartbeat (ascii "2")) = some (hostKey, .shutdown) := by
    decide +kernel
  have hempty : AtEveryTask (TaskFits hostKey) [] ∧ runTasks [] = .empty :=
    ⟨at_every_nil, rfl⟩
  have hregistered := fits_append hempty deed_of_first_heartbeat (by decide)
  have haccepted := fits_append hregistered deed_of_first_answer (by decide +kernel)
  have hupdated := fits_append haccepted hupdate (by decide +kernel)
  have hstopped := fits_append hupdated hshutdown (by decide +kernel)
  exact (events_follow_life hostKey _).1 hstopped.1 _ (List.prefix_refl _)

/-- A server that registers again while it is announced is announced twice. -/
theorem restart_announced_twice : ¬ ∀ key requests, EventsFollow key requests := by
  intro h
  let restarted := runDeed hostAccepted (hostHeartbeat (ascii "3")) (some (hostKey, .register))
  have hregister :
      deedOf hostAccepted (hostHeartbeat (ascii "3")) = some (hostKey, .register) := by
    decide +kernel
  have haccept : deedOf restarted hostAnswer = some (hostKey, .accept) :=
    host_answer_accepted (ascii "3") (by decide +kernel) (by decide +kernel) rfl
  have hrun : runTasks [hostHeartbeat (ascii "3"), hostAnswer, hostHeartbeat (ascii "3"),
      hostAnswer] = runDeed restarted hostAnswer (some (hostKey, .accept)) := by
    rw [runTasks, List.foldl_cons, run_task_of_deed deed_of_first_heartbeat, ← hostRegistered,
      List.foldl_cons, run_task_of_deed deed_of_first_answer, ← hostAccepted, List.foldl_cons,
      run_task_of_deed hregister, List.foldl_cons, run_task_of_deed haccept, List.foldl_nil]
  have hevents : ((runDeed restarted hostAnswer (some (hostKey, .accept))).life hostKey).events =
      [.new, .new] := by
    decide +kernel
  have htwice := (h hostKey _).1 1 .new (by rw [hrun, hevents]; rfl)
  simp at htwice

end OpenSpy.QR
