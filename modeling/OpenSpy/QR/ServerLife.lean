import OpenSpy.QR.Tasks

/-!
# What a task does to a server

Of a server's record, the tasks decide by the deleted flag and the heartbeat count, and the
events they have sent tell its life to the other services. `Life` is these three, and `Deed`
what a task can do to them: register the server, shut it down, update it or accept its answer.
`deedOf` says which deed a task does, to which server key, and `life_run_task` that a task that
runs to completion does just this and leaves all other servers alone.
-/

namespace OpenSpy.QR

open Commands Bytes MachineInt

/-- The heartbeat count, the deleted flag and the events sent of a server. -/
structure Life where
  count : Option Int
  deleted : Option Bool
  events : List EventKind

/-- The life of a server key in a store. -/
def Store.life (s : Store) (key : Bytes) : Life where
  count := s.records key .numUpdates
  deleted := s.records key .deleted
  events := (s.events.filter (·.serverKey = key)).map (·.kind)

/-- What a task can do to a server. -/
inductive Deed where
  | register
  | shutdown
  | update
  | accept
  deriving DecidableEq, Repr

/-- The count behind `HINCRBY`, which does not count further than a 64-bit integer can. -/
def nextCount (count : Option Int) : Option Int :=
  if count.getD 0 + 1 < 2 ^ 63 then some (count.getD 0 + 1) else count

/-- The `int` that `IncrNumHeartbeats` returns. -/
def hbCount (count : Option Int) : Int :=
  if count.getD 0 + 1 < 2 ^ 63 then int32 (count.getD 0 + 1) else 0

/-- The event of an update: the first heartbeat of version 1 announces the server. -/
def updateKind (version : Int) (count : Option Int) : EventKind :=
  if hbCount count = 1 ∧ version = 1 then .new else .update

/-- The life of a server behind a deed of a task of the given version. -/
def Life.after (version : Int) : Deed → Life → Life
  | .register, life =>
      { life with
        count := if version ≠ 1 then none else life.count
        deleted := some true }
  | .shutdown, life => ⟨none, some true, life.events ++ [.del]⟩
  | .update, life =>
      { life with
        count := nextCount life.count
        events := life.events ++ [updateKind version life.count] }
  | .accept, life =>
      if version ≠ 1 then ⟨some 1, some false, life.events ++ [.new]⟩
      else { life with deleted := some false }

/-- What a heartbeat does that has found this server key, and to which server. -/
def heartbeatDeed (s : Store) (request : Request) (serverKey : Bytes) : Option (Bytes × Deed) :=
  if serverKey = [] ∨ request.statechanged = 3 ∨ s.records serverKey .deleted = some true then
    match request.keys (ascii "gamename") with
    | none => none
    | some gamename =>
        if request.secretkey = [] then none
        else some ((run exec (getNewServerKey request.address gamename) s).1.1, .register)
  else if request.statechanged = 2 then some (serverKey, .shutdown)
  else some (serverKey, .update)

/-- The client's response is what a stored challenge response expects. -/
def Answers (stored : Option Bytes) (response : Bytes) : Prop :=
  stripQuotes (stored.getD []) = choppedChallenge (stripQuotes (stored.getD [])) response

instance (stored : Option Bytes) (response : Bytes) : Decidable (Answers stored response) :=
  inferInstanceAs (Decidable (_ = _))

/-- What a validation does that has found this server key, and to which server. -/
def validateDeed (s : Store) (request : Request) (serverKey : Bytes) : Option (Bytes × Deed) :=
  if serverKey ≠ [] ∧ Answers (s.records serverKey .challenge) request.gamename ∧
      s.records serverKey .deleted = some true then some (serverKey, .accept)
  else none

/-- What a task does in a store, and to which server. -/
def deedOf (s : Store) (request : Request) : Option (Bytes × Deed) :=
  let serverKey := (run exec (getServerKeyFromRequest request) s).1
  match request.type with
  | .heartbeat | .heartbeatClearExistingKeys => heartbeatDeed s request serverKey
  | .validateServer => validateDeed s request serverKey

/-- The server key has the same record and the same events in both stores. -/
def SameServer (key : Bytes) (s s' : Store) : Prop :=
  s'.records key = s.records key ∧
    s'.events.filter (·.serverKey = key) = s.events.filter (·.serverKey = key)

namespace SameServer

variable {key : Bytes} {s s' s'' : Store}

theorem refl (key : Bytes) (s : Store) : SameServer key s s :=
  ⟨rfl, rfl⟩

theorem trans (h : SameServer key s s') (h' : SameServer key s' s'') : SameServer key s s'' :=
  ⟨h'.1.trans h.1, h'.2.trans h.2⟩

theorem life (h : SameServer key s s') : s'.life key = s.life key := by
  simp only [Store.life, h.1, h.2]

end SameServer

section Effects

variable (s : Store) {key other : Bytes}

theorem same_server_set_field (h : key ≠ other) (field : Field) (value : Option field.Value) :
    SameServer key s (s.setField other field value) :=
  ⟨set_field_key h s field value, rfl⟩

theorem same_server_send (h : key ≠ other) (kind : EventKind) :
    SameServer key s { s with events := s.events ++ [⟨kind, other⟩] } :=
  ⟨rfl, by simp [h.symm]⟩

/-- The fields apart from the count and the flag are not part of a life. -/
theorem life_set_field {field : Field} (hcount : field ≠ .numUpdates)
    (hdeleted : field ≠ .deleted) (value : Option field.Value) :
    (s.setField key field value).life key = s.life key := by
  simp [Store.life, set_field_field hcount.symm, set_field_field hdeleted.symm]

@[simp] theorem life_set_deleted (value : Option Bool) :
    (s.setField key .deleted value).life key = { s.life key with deleted := value } := by
  simp [Store.life, set_field_field]

@[simp] theorem life_set_count (value : Option Int) :
    (s.setField key .numUpdates value).life key = { s.life key with count := value } := by
  simp [Store.life, set_field_field]

@[simp] theorem life_send (kind : EventKind) :
    ({ s with events := s.events ++ [⟨kind, key⟩] } : Store).life key =
      { s.life key with events := (s.life key).events ++ [kind] } := by
  simp [Store.life]

/-- `isServerDeleted` only reads. -/
theorem run_is_server_deleted (key : Bytes) (ignoreChallengeExists : Bool) :
    run exec (isServerDeleted key ignoreChallengeExists) s =
      (s.records key .deleted == some true &&
        !(!ignoreChallengeExists && (s.records key .challenge).isSome), s) := by
  cases ignoreChallengeExists <;> simp [isServerDeleted, exec]

/-- Finding the server key of a request only reads. -/
theorem run_get_server_key (request : Request) :
    (run exec (getServerKeyFromRequest request) s).2 = s := by
  have hqr1 : (run exec (getQR1StoredAddressServerKey request) s).2 = s := by
    simp [getQR1StoredAddressServerKey, exec]
  have hinst : (run exec
      (getServerKeyByInstanceKeyAddress request.instanceKey request.fromAddress) s).2 = s := by
    simp only [getServerKeyByInstanceKeyAddress, run_bind, run_ite]
    split <;> simp [run_is_server_deleted, exec]
  have hkey : (run exec (if request.version = 1 then getQR1StoredAddressServerKey request
      else pure []) s).2 = s := by
    rw [run_ite]
    split
    · exact hqr1
    · rfl
  have hrest (key : Bytes) : (run exec (if key.length = 0 then
      getServerKeyByInstanceKeyAddress request.instanceKey request.fromAddress
      else pure key) s).2 = s := by
    rw [run_ite]
    split
    · exact hinst
    · rfl
  rw [getServerKeyFromRequest, run_bind, hkey]
  exact hrest _

/-- A new server key takes at most a new id from the counter. -/
theorem run_get_new_server_key (address : Address) (gamename : Bytes) :
    ∃ pk, (run exec (getNewServerKey address gamename) s).2 = { s with pk } := by
  have hfind : (run exec (tryFindServerID address) s).2 = s := by
    simp only [tryFindServerID, run_bind, run_ite]
    split <;> simp [exec]
  rw [getNewServerKey, run_bind, run_bind, run_ite, hfind]
  split
  · exact ⟨s.pk + 1, by simp [getServerID, exec]⟩
  · exact ⟨s.pk, rfl⟩

/-- Writing a server's data sets its instance key, and the maps. -/
theorem run_write_server_data (key : Bytes) (request : Request) :
    ∃ maps, (run exec (writeServerData key request) s).2 =
      ({ s with maps } : Store).setField key .instanceKey (some request.instanceKey) := by
  simp only [writeServerData, run_bind, run_ite]
  split
  · split <;> exact ⟨_, rfl⟩
  · exact ⟨_, rfl⟩

theorem life_write_server_data (request : Request) :
    (run exec (writeServerData key request) s).2.life key = s.life key := by
  obtain ⟨maps, hmaps⟩ := run_write_server_data s key request
  rw [hmaps, life_set_field _ (by decide) (by decide)]
  rfl

theorem same_server_write_server_data (h : key ≠ other) (request : Request) :
    SameServer key s (run exec (writeServerData other request) s).2 := by
  obtain ⟨maps, hmaps⟩ := run_write_server_data s other request
  rw [hmaps]
  exact same_server_set_field _ h _ _

theorem life_set_server_initial_info (challengeResponse : Bytes) (address : Address) (id : Int) :
    (run exec (setServerInitialInfo key challengeResponse address id) s).2.life key =
      s.life key := by
  simp [setServerInitialInfo, exec, life_set_field]

theorem same_server_set_server_initial_info (h : key ≠ other) (challengeResponse : Bytes)
    (address : Address) (id : Int) :
    SameServer key s
      (run exec (setServerInitialInfo other challengeResponse address id) s).2 := by
  have hfields (pairs : List ((field : Field) × field.Value)) (s : Store) :
      SameServer key s (pairs.foldl (fun s pair => s.setField other pair.1 (some pair.2)) s) := by
    induction pairs generalizing s with
    | nil => exact .refl key s
    | cons pair pairs ih => exact (same_server_set_field s h _ _).trans (ih _)
  exact hfields _ s

/-- `SetServerDeleted` on a life. -/
theorem life_set_server_deleted (deleted resetHbcount : Bool) :
    (run exec (setServerDeleted key deleted resetHbcount) s).2.life key =
      { s.life key with
        count := if resetHbcount then none else (s.life key).count
        deleted := some deleted } := by
  cases resetHbcount <;> simp [setServerDeleted, exec]

theorem same_server_set_server_deleted (h : key ≠ other) (deleted resetHbcount : Bool) :
    SameServer key s (run exec (setServerDeleted other deleted resetHbcount) s).2 := by
  rw [setServerDeleted, run_bind, run_ite]
  split
  · exact (same_server_set_field s h .deleted _).trans (same_server_set_field _ h .numUpdates _)
  · exact same_server_set_field s h .deleted _

/-- `IncrNumHeartbeats` on a life. -/
theorem life_incr_num_heartbeats (key : Bytes) :
    (run exec (incrNumHeartbeats key) s).1 = hbCount (s.life key).count ∧
      (run exec (incrNumHeartbeats key) s).2.life key =
        { s.life key with count := nextCount (s.life key).count } := by
  have hcount : (s.life key).count = s.records key .numUpdates := rfl
  simp only [incrNumHeartbeats, run_bind, run_issue, run_pure, exec, hbCount, nextCount, hcount]
  split
  · simp
  · exact ⟨rfl, rfl⟩

theorem same_server_incr_num_heartbeats (h : key ≠ other) :
    SameServer key s (run exec (incrNumHeartbeats other) s).2 := by
  simp only [incrNumHeartbeats, run_bind, run_issue, run_pure, exec]
  split
  · exact same_server_set_field s h _ _
  · exact .refl key s

end Effects

/-- What the deed of a task that runs to completion makes of the store. -/
def runDeed (s : Store) (request : Request) : Option (Bytes × Deed) → Store
  | none => s
  | some (_, .register) =>
      (run exec (registerServer request ((request.keys (ascii "gamename")).getD [])) s).2
  | some (serverKey, .shutdown) => (run exec (shutdownServer serverKey) s).2
  | some (serverKey, .update) => (run exec (updateServer request serverKey) s).2
  | some (serverKey, .accept) => (run exec (acceptServer request serverKey) s).2

section Tasks

variable (s : Store) (request : Request)

/-- The test of `PerformHeartbeat` for a registration. -/
theorem run_must_register (serverKey : Bytes) :
    run exec (if serverKey.length = 0 ∨ request.statechanged = 3 then pure true
      else isServerDeleted serverKey true) s =
      (decide (serverKey = [] ∨ request.statechanged = 3 ∨
        s.records serverKey .deleted = some true), s) := by
  simp only [List.length_eq_zero_iff]
  rw [run_ite]
  split
  · rename_i h
    simp [← or_assoc, h]
  · rename_i h
    simp only [run_is_server_deleted, ← or_assoc, h, false_or, Bool.not_true, Bool.false_and,
      Bool.not_false, Bool.and_true, beq_eq_decide]

/-- A heartbeat does its deed. -/
theorem run_perform_heartbeat :
    (run exec (performHeartbeat request) s).2 =
      runDeed s request (heartbeatDeed s request
        (run exec (getServerKeyFromRequest request) s).1) := by
  simp only [performHeartbeat, run_bind, run_get_server_key]
  generalize (run exec (getServerKeyFromRequest request) s).1 = serverKey
  rw [run_must_register, run_ite, heartbeatDeed]
  simp only [decide_eq_true_eq]
  split
  · cases hgame : request.keys (ascii "gamename") with
    | none => rfl
    | some gamename =>
        dsimp only
        rw [run_ite]
        simp only [List.length_eq_zero_iff]
        split
        · rfl
        · simp [runDeed, hgame]
  · rw [run_ite]
    split <;> rfl

/-- A validation does its deed. -/
theorem run_perform_validate :
    (run exec (performValidate request) s).2 =
      runDeed s request (validateDeed s request
        (run exec (getServerKeyFromRequest request) s).1) := by
  simp only [performValidate, run_bind, run_get_server_key]
  generalize (run exec (getServerKeyFromRequest request) s).1 = serverKey
  have hexpected : run exec (getCalculatedChallenge serverKey) s =
      (stripQuotes ((s.records serverKey .challenge).getD []), s) := rfl
  rw [run_ite, validateDeed]
  split
  · rename_i hempty
    rw [if_neg (by simp [hempty])]
    rfl
  · rename_i hkey
    rw [run_bind, hexpected, run_ite]
    split
    · rename_i hwrong
      rw [if_neg fun h => hwrong h.2.1]
      rfl
    · rename_i hright
      rw [run_bind, run_is_server_deleted, run_ite]
      split
      · rename_i hdeleted
        have hflag : s.records serverKey .deleted = some true := by simpa using hdeleted
        rw [if_pos ⟨hkey, not_not.mp hright, hflag⟩, run_bind]
        rfl
      · rename_i hdeleted
        have hflag : s.records serverKey .deleted ≠ some true := by simpa using hdeleted
        have hnothing : ¬ (serverKey ≠ [] ∧
            Answers (s.records serverKey .challenge) request.gamename ∧
            s.records serverKey .deleted = some true) := fun h => hflag h.2.2
        rw [if_neg hnothing, run_ite]
        split <;> rfl

/-- A task that runs to completion does its deed. -/
theorem run_task_eq : runTask s request = runDeed s request (deedOf s request) := by
  rw [runTask, perform, deedOf]
  cases request.type with
  | heartbeat =>
      simp only [run_bind, run_pure]
      exact run_perform_heartbeat s request
  | heartbeatClearExistingKeys =>
      simp only [run_bind, run_pure]
      exact run_perform_heartbeat s request
  | validateServer => exact run_perform_validate s request

theorem run_task_of_deed {s : Store} {request : Request} {key : Bytes} {deed : Deed}
    (h : deedOf s request = some (key, deed)) :
    runTask s request = runDeed s request (some (key, deed)) := by
  rw [run_task_eq, h]

/-- A registration is under the new server key of the request's game name. -/
theorem deed_of_register {key : Bytes} (h : deedOf s request = some (key, .register)) :
    (run exec (getNewServerKey request.address
      ((request.keys (ascii "gamename")).getD [])) s).1.1 = key := by
  have hheartbeat (serverKey : Bytes)
      (h : heartbeatDeed s request serverKey = some (key, .register)) :
      (run exec (getNewServerKey request.address
        ((request.keys (ascii "gamename")).getD [])) s).1.1 = key := by
    unfold heartbeatDeed at h
    split at h
    · cases hgame : request.keys (ascii "gamename") with
      | none => simp [hgame] at h
      | some gamename =>
          simp only [hgame, Option.ite_none_left_eq_some, Option.some.injEq, Prod.mk.injEq,
            and_true] at h
          exact h.2
    · split at h <;> simp at h
  unfold deedOf at h
  cases htype : request.type with
  | heartbeat => exact hheartbeat _ (by simpa only [htype] using h)
  | heartbeatClearExistingKeys => exact hheartbeat _ (by simpa only [htype] using h)
  | validateServer =>
      simp only [htype, validateDeed] at h
      split at h <;> simp at h

/-- The life of the server to which a task does its deed. -/
theorem life_run_task {key : Bytes} {deed : Deed} (h : deedOf s request = some (key, deed)) :
    (runTask s request).life key = (s.life key).after request.version deed := by
  rw [run_task_of_deed h]
  cases deed with
  | register =>
      have hkey := deed_of_register s request h
      obtain ⟨pk, hpk⟩ := run_get_new_server_key s request.address
        ((request.keys (ascii "gamename")).getD [])
      -- from the last command to the first
      simp only [runDeed, registerServer, run_bind, run_pure, hpk]
      rw [hkey, life_set_server_initial_info, life_set_server_deleted, life_write_server_data]
      simp [Life.after, Store.life]
  | shutdown =>
      simp only [runDeed, shutdownServer, run_bind, run_pure, run_issue, exec]
      rw [life_send, life_set_server_deleted]
      rfl
  | update =>
      obtain ⟨hreply, hlife⟩ := life_incr_num_heartbeats s key
      simp only [runDeed, updateServer, run_bind, run_pure, run_issue, exec]
      rw [life_send, life_write_server_data, hlife, hreply]
      rfl
  | accept =>
      simp only [runDeed]
      rw [acceptServer, run_bind, run_ite, Life.after]
      split
      · rename_i hversion
        obtain ⟨-, hlife⟩ := life_incr_num_heartbeats
          (run exec (setServerDeleted key false (request.version ≠ 1)) s).2 key
        simp only [run_bind, run_issue, exec]
        rw [life_send, hlife, life_set_server_deleted]
        simp [hversion, nextCount]
      · rename_i hversion
        rw [run_pure, life_set_server_deleted]
        simp [hversion]

/-- A task leaves all servers alone but the one to which it does its deed. -/
theorem same_server_run_task {key : Bytes} (h : ∀ deed, deedOf s request ≠ some (key, deed)) :
    SameServer key s (runTask s request) := by
  rw [run_task_eq]
  cases hdeed : deedOf s request with
  | none => exact .refl key s
  | some done =>
      obtain ⟨other, deed⟩ := done
      have hne : key ≠ other := fun heq => h deed (heq ▸ hdeed)
      cases deed with
      | register =>
          have hkey := deed_of_register s request hdeed
          obtain ⟨pk, hpk⟩ := run_get_new_server_key s request.address
            ((request.keys (ascii "gamename")).getD [])
          simp only [runDeed, registerServer, run_bind, run_pure, hpk]
          rw [hkey]
          exact ((same_server_write_server_data { s with pk } hne request).trans
            (same_server_set_server_deleted _ hne _ _)).trans
            (same_server_set_server_initial_info _ hne _ _ _)
      | shutdown =>
          simp only [runDeed, shutdownServer, run_bind, run_pure, run_issue, exec]
          exact (same_server_set_server_deleted s hne _ _).trans (same_server_send _ hne _)
      | update =>
          simp only [runDeed, updateServer, run_bind, run_pure, run_issue, exec]
          exact ((same_server_incr_num_heartbeats s hne).trans
            (same_server_write_server_data _ hne _)).trans (same_server_send _ hne _)
      | accept =>
          simp only [runDeed]
          rw [acceptServer, run_bind, run_ite]
          have hdeleted := same_server_set_server_deleted s hne false (request.version ≠ 1)
          split
          · simp only [run_bind, run_issue, exec]
            exact (hdeleted.trans (same_server_incr_num_heartbeats _ hne)).trans
              (same_server_send _ hne _)
          · exact hdeleted

end Tasks

end OpenSpy.QR
