import OpenSpy.QR.ServerEvents

/-!
# What makes a server visible

Other services see a server when its record is not marked deleted any more, which a validation
does that has read the challenge response of the record and found it answered. Other tasks may
run between the reading and the clearing of the mark, so what is read need not be what a
registration has stored by then: `clears_unread_challenge` has a server that is visible without
a challenge. `visible_by_own_answer` is what remains.
-/

namespace OpenSpy.QR

open Commands Bytes

/-- The heartbeat and validation tasks of a store without keys, behind some moves. -/
abbrev tasks (moves : List (Move Request)) : System Store Request Cmd.Reply (Option Response) :=
  Commands.moves exec perform .empty moves

theorem tasks_append (moves : List (Move Request)) (next : Move Request) :
    tasks (moves ++ [next]) = (tasks moves).move exec perform next :=
  moves_append Store.empty moves next

/-- The heartbeat whose registration stores its challenge response by this move. -/
def registration (key : Bytes) (sys : System Store Request Cmd.Reply (Option Response))
    (next : Move Request) : Option Request :=
  match sys.nextCall next with
  | some (client, .hmset other _) => if other = key then some client.input else none
  | _ => none

/-- The heartbeat whose registration has last stored its challenge response. -/
def lastRegistration (key : Bytes) (moves : List (Move Request)) : Option Request :=
  (moves.foldl
    (fun (sys, last) next => (sys.move exec perform next, (registration key sys next).or last))
    ((⟨.empty, []⟩ : System Store Request Cmd.Reply (Option Response)), none)).2

/-- A server that is marked deleted gets visible by the next move. -/
def GetsVisible (key : Bytes) (moves : List (Move Request)) (next : Move Request) : Prop :=
  (tasks moves).store.records key .deleted = some true ∧
    (tasks (moves ++ [next])).store.records key .deleted = some false

/-- If a server gets visible, it is by a validation, and the response is the challenge response
of the last registration up to its length, which is not zero. -/
def ByOwnAnswer (key : Bytes) (moves : List (Move Request)) (next : Move Request) : Prop :=
  GetsVisible key moves next → ∃ client cmd last,
    (tasks moves).nextCall next = some (client, cmd) ∧ client.input.type = .validateServer ∧
      lastRegistration key moves = some last ∧ last.challengeResp.length ≠ 0 ∧
        client.input.gamename.take last.challengeResp.length = last.challengeResp

/-- A task that is about to clear the mark of a deleted server has read the challenge response
that is in its record. There is one, and it is not empty. -/
def FindsChallenge (key : Bytes) (moves : List (Move Request)) (next : Move Request) : Prop :=
  ∀ client, (tasks moves).nextCall next = some (client, .hset key .deleted false) →
    (tasks moves).store.records key .deleted = some true →
      ∃ challenge, (tasks moves).store.records key .challenge = some challenge ∧
        challenge ≠ [] ∧
          ∀ reply, ⟨.hget key .challenge, reply⟩ ∈ client.past → reply = some challenge

/-- A response that is what a stored response without quotes expects begins with it. -/
theorem Answers.take {stored response : Bytes} (h : Answers (some stored) response)
    (hquotes : char '"' ∉ stored) : response.take stored.length = stored := by
  rw [Answers, Option.getD_some, strip_quotes_eq_self hquotes, choppedChallenge] at h
  split at h
  · exact h.symm
  · rename_i hlength
    rw [← h]
    exact List.take_length

/-- What a task may do to the mark and to the challenge response of a server. -/
def MayIssue (request : Request) (past : Past Cmd.Reply) : Cmd → Prop
  | .hset key .deleted deleted => deleted = false →
      request.type = .validateServer ∧
        ∃ reply, ⟨.hget key .challenge, reply⟩ ∈ past ∧ Answers reply request.gamename
  | .hset _ field _ => field ≠ .challenge
  | .hdel _ field => field ≠ .challenge
  | .hmset _ pairs =>
      ∃ first, pairs = first ++ [⟨.challenge, request.challengeResp⟩] ∧
        ∀ deleted, ⟨.deleted, deleted⟩ ∉ first
  | _ => True

section Effects

variable (s : Store) (key : Bytes) {field : Field}

/-- A field that `HMSET` changes has one of its values. -/
theorem foldl_set_field (other : Bytes) (pairs : List ((field : Field) × field.Value)) :
    (pairs.foldl (fun s pair => s.setField other pair.1 (some pair.2)) s).records key field =
        s.records key field ∨
      key = other ∧ ∃ value, ⟨field, value⟩ ∈ pairs ∧
        (pairs.foldl (fun s pair => s.setField other pair.1 (some pair.2)) s).records key field =
          some value := by
  induction pairs generalizing s with
  | nil => exact .inl rfl
  | cons pair pairs ih =>
      obtain ⟨first, written⟩ := pair
      rw [List.foldl_cons]
      rcases ih (s.setField other first (some written)) with hsame | ⟨rfl, value, hmem, hvalue⟩
      · rw [hsame]
        by_cases h : key = other ∧ field = first
        · obtain ⟨rfl, rfl⟩ := h
          exact .inr ⟨rfl, written, .head _, set_field_same _ _ _ _⟩
        · exact .inl (set_field_other h _ _)
      · exact .inr ⟨rfl, value, .tail _ hmem, hvalue⟩

/-- The commands that change a field, which for the heartbeat count is also `HINCRBY`. -/
theorem exec_field (field : Field) (cmd : Cmd) (hcount : field ≠ .numUpdates) :
    (exec cmd s).2.records key field = s.records key field ∨ cmd = .hdel key field ∨
      (∃ value, cmd = .hset key field value ∧
        (exec cmd s).2.records key field = some value) ∨
      ∃ pairs value, cmd = .hmset key pairs ∧ ⟨field, value⟩ ∈ pairs ∧
        (exec cmd s).2.records key field = some value := by
  cases cmd with
  | get | exist | set | incrPk | hget | hexists | send => exact .inl rfl
  | hset other written value =>
      by_cases h : key = other ∧ field = written
      · obtain ⟨rfl, rfl⟩ := h
        exact .inr (.inr (.inl ⟨value, rfl, set_field_same _ _ _ _⟩))
      · exact .inl (set_field_other h _ _)
  | hdel other removed =>
      by_cases h : key = other ∧ field = removed
      · obtain ⟨rfl, rfl⟩ := h
        exact .inr (.inl rfl)
      · exact .inl (set_field_other h _ _)
  | hincrby other =>
      refine .inl ?_
      simp only [exec]
      split
      · exact set_field_other (fun h => hcount h.2) _ _
      · rfl
  | hmset other pairs =>
      rcases foldl_set_field s key other pairs with
        hsame | ⟨rfl, value, hmem, hvalue⟩
      · exact .inl hsame
      · exact .inr (.inr (.inr ⟨pairs, value, rfl, hmem, hvalue⟩))

/-- Only the command that clears the mark of a server clears it. -/
theorem exec_deleted {request : Request} {past : Past Cmd.Reply} {cmd : Cmd}
    (h : MayIssue request past cmd) (hdeleted : s.records key .deleted = some true)
    (hvisible : (exec cmd s).2.records key .deleted = some false) :
    cmd = .hset key .deleted false := by
  rcases exec_field s key .deleted cmd (by decide) with
    hsame | rfl | ⟨value, rfl, hvalue⟩ | ⟨pairs, value, rfl, hmem, -⟩
  · rw [hsame, hdeleted] at hvisible
    cases hvisible
  · rw [exec, set_field_same] at hvisible
    cases hvisible
  · rw [hvisible] at hvalue
    cases hvalue
    rfl
  · obtain ⟨first, rfl, hfirst⟩ := h
    rcases List.mem_append.mp hmem with hmem | hmem
    · exact absurd hmem (hfirst value)
    · simp at hmem

/-- Only a registration changes the challenge response of a server. -/
theorem exec_challenge {request : Request} {past : Past Cmd.Reply} {cmd : Cmd}
    (h : MayIssue request past cmd) :
    (exec cmd s).2.records key .challenge =
      match cmd with
      | .hmset other _ =>
          if other = key then some request.challengeResp else s.records key .challenge
      | _ => s.records key .challenge := by
  by_cases hmset : ∃ other pairs, cmd = .hmset other pairs
  · obtain ⟨other, pairs, rfl⟩ := hmset
    obtain ⟨first, rfl, -⟩ := h
    -- the response is the last of the pairs
    by_cases hkey : other = key
    · simp [exec, hkey]
    · simp only [if_neg hkey]
      exact (foldl_set_field s key other _).resolve_right fun heq => hkey heq.1.symm
  · have hsame : (exec cmd s).2.records key .challenge = s.records key .challenge := by
      rcases exec_field s key .challenge cmd (by decide) with
        hsame | rfl | ⟨value, rfl, -⟩ | ⟨pairs, value, rfl, -, -⟩
      · exact hsame
      · exact absurd rfl h
      · exact absurd rfl h
      · exact absurd ⟨_, _, rfl⟩ hmset
    rw [hsame]
    split
    · exact absurd ⟨_, _, rfl⟩ hmset
    · rfl

end Effects

section Along

variable (request : Request) (past : Past Cmd.Reply)

theorem along_is_server_deleted (key : Bytes) (ignoreChallengeExists : Bool) :
    Along (MayIssue request) past (isServerDeleted key ignoreChallengeExists) fun _ _ => True := by
  simp [isServerDeleted, along_bind, along_ite, along_issue, along_pure, MayIssue]

theorem along_get_server_key :
    Along (MayIssue request) past (getServerKeyFromRequest request) fun _ _ => True := by
  simp [getServerKeyFromRequest, getQR1StoredAddressServerKey, getServerKeyByInstanceKeyAddress,
    isServerDeleted, along_bind, along_ite, along_issue, along_pure, MayIssue]

theorem along_get_new_server_key (address : Address) (gamename : Bytes) :
    Along (MayIssue request) past (getNewServerKey address gamename) fun _ _ => True := by
  simp [getNewServerKey, tryFindServerID, getServerID, along_bind, along_ite, along_issue,
    along_pure, MayIssue]

theorem along_write_server_data (key : Bytes) :
    Along (MayIssue request) past (writeServerData key request) fun _ _ => True := by
  simp [writeServerData, along_bind, along_ite, along_issue, MayIssue]

/-- Marking a server deleted is free. -/
theorem along_mark_deleted (key : Bytes) (resetHbcount : Bool) :
    Along (MayIssue request) past (setServerDeleted key true resetHbcount) fun _ _ => True := by
  simp [setServerDeleted, along_bind, along_ite, along_issue, along_pure, MayIssue]

theorem along_incr_num_heartbeats (key : Bytes) :
    Along (MayIssue request) past (incrNumHeartbeats key) fun _ _ => True := by
  simp [incrNumHeartbeats, along_bind, along_issue, along_pure, MayIssue]

/-- A registration stores the challenge response of its request. -/
theorem along_register_server (gamename : Bytes) :
    Along (MayIssue request) past (registerServer request gamename) fun _ _ => True := by
  refine (along_get_new_server_key request past request.address gamename).bind ?_
  rintro past ⟨serverKey, id⟩ -
  refine (along_write_server_data request past serverKey).bind fun past _ _ => ?_
  refine (along_mark_deleted request past serverKey _).bind fun past _ _ => ?_
  refine along_bind.mpr (along_issue.mpr ⟨?_, fun _ => trivial⟩)
  exact ⟨[⟨.wanPort, _⟩, ⟨.wanIp, _⟩, ⟨.id, _⟩], rfl, by simp⟩

theorem along_perform_heartbeat :
    Along (MayIssue request) past (performHeartbeat request) fun _ _ => True := by
  refine (along_get_server_key request past).bind fun past serverKey _ => ?_
  have hregister : Along (MayIssue request) past
      (if serverKey.length = 0 ∨ request.statechanged = 3 then pure true
        else isServerDeleted serverKey true) fun _ _ => True :=
    along_ite.mpr ⟨fun _ => trivial, fun _ => along_is_server_deleted request past serverKey true⟩
  refine hregister.bind fun past register _ => along_ite.mpr ⟨fun _ => ?_, fun _ => ?_⟩
  · split
    · trivial
    · exact along_ite.mpr ⟨fun _ => trivial, fun _ => along_register_server request past _⟩
  · refine along_ite.mpr ⟨fun _ => ?_, fun _ => ?_⟩
    · refine (along_mark_deleted request past serverKey true).bind fun past _ _ => ?_
      exact ⟨trivial, fun _ => trivial⟩
    · refine (along_incr_num_heartbeats request past serverKey).bind fun past _ _ => ?_
      refine (along_write_server_data request past serverKey).bind fun past _ _ => ?_
      exact ⟨trivial, fun _ => trivial⟩

/-- Accepting a server is for a validation that has read the challenge response and found it
answered. -/
theorem along_accept_server {serverKey : Bytes} (htype : request.type = .validateServer)
    (hread : ∃ reply, ⟨.hget serverKey .challenge, reply⟩ ∈ past ∧
      Answers reply request.gamename) :
    Along (MayIssue request) past (acceptServer request serverKey) fun _ _ => True := by
  have hclear : Along (MayIssue request) past
      (setServerDeleted serverKey false (request.version ≠ 1)) fun _ _ => True := by
    refine along_bind.mpr (along_issue.mpr ⟨fun _ => ⟨htype, hread⟩, fun _ => ?_⟩)
    exact along_ite.mpr ⟨fun _ => along_issue.mpr ⟨by simp [MayIssue], fun _ => trivial⟩,
      fun _ => trivial⟩
  refine hclear.bind fun past _ _ => along_ite.mpr ⟨fun _ => ?_, fun _ => trivial⟩
  refine (along_incr_num_heartbeats request past serverKey).bind fun past _ _ => ?_
  exact along_issue.mpr ⟨trivial, fun _ => trivial⟩

/-- A validation clears the mark of a server whose challenge response it has read and found
answered. -/
theorem along_perform_validate (h : request.type = .validateServer) :
    Along (MayIssue request) past (performValidate request) fun _ _ => True := by
  refine (along_get_server_key request past).bind fun past serverKey _ => ?_
  refine along_ite.mpr ⟨fun _ => trivial, fun _ => ?_⟩
  refine along_bind.mpr (along_bind.mpr (along_issue.mpr ⟨trivial, fun reply => ?_⟩))
  refine along_pure.mpr (along_ite.mpr ⟨fun _ => trivial, fun hright => ?_⟩)
  -- what `isServerDeleted` reads comes behind the challenge response
  refine along_bind.mpr (along_bind.mpr (along_issue.mpr ⟨trivial, fun deleted => ?_⟩))
  refine along_ite.mpr ⟨fun _ => ?_, fun _ => along_ite.mpr ⟨fun _ => trivial, fun _ => trivial⟩⟩
  refine (along_accept_server request _ h ⟨reply, ?_, not_not.mp hright⟩).bind fun _ _ _ => trivial
  simp

theorem along_perform :
    Along (MayIssue request) past (perform request) fun _ _ => True := by
  unfold perform
  split
  · exact (along_perform_heartbeat request past).bind fun _ _ _ => trivial
  · exact (along_perform_heartbeat request past).bind fun _ _ _ => trivial
  · rename_i h
    exact along_perform_validate request past h

end Along

section Moves

variable {key : Bytes} {moves : List (Move Request)} {next : Move Request}

/-- The command of a move may be issued. -/
theorem may_issue_next {client : Client Request Cmd.Reply (Option Response)} {cmd : Cmd}
    (h : (tasks moves).nextCall next = some (client, cmd)) :
    MayIssue client.input client.past cmd :=
  next_call_along (fun request => along_perform request []) h

theorem last_registration_append :
    lastRegistration key (moves ++ [next]) =
      (registration key (tasks moves) next).or (lastRegistration key moves) := by
  have hsystem (run : List (Move Request))
      (start : System Store Request Cmd.Reply (Option Response)) (last : Option Request) :
      (run.foldl (fun (sys, last) next =>
        (sys.move exec perform next, (registration key sys next).or last)) (start, last)).1 =
      run.foldl (System.move exec perform) start := by
    induction run generalizing start last with
    | nil => rfl
    | cons first run ih => exact ih _ _
  rw [lastRegistration, List.foldl_append, tasks, Commands.moves, ← hsystem moves _ none]
  rfl

/-- A record's challenge response is that of the last registration. -/
theorem stored_challenge (key : Bytes) (moves : List (Move Request)) :
    (tasks moves).store.records key .challenge =
      (lastRegistration key moves).map Request.challengeResp := by
  induction moves using List.reverseRecOn with
  | nil => rfl
  | append_singleton moves next ih =>
      rw [last_registration_append, tasks_append, registration]
      cases hcall : (tasks moves).nextCall next with
      | none => rwa [move_store_of_no_call hcall]
      | some call =>
          obtain ⟨client, cmd⟩ := call
          rw [move_store hcall, exec_challenge _ key (may_issue_next hcall), ih]
          cases cmd with
          | hmset other pairs =>
              by_cases hkey : other = key
              · simp [hkey]
              · simp [hkey]
          | _ => rfl

/-- A server gets visible by the command that clears its mark. -/
theorem gets_visible_next (h : GetsVisible key moves next) :
    ∃ client, (tasks moves).nextCall next = some (client, .hset key .deleted false) := by
  obtain ⟨hdeleted, hvisible⟩ := h
  rw [tasks_append] at hvisible
  cases hcall : (tasks moves).nextCall next with
  | none =>
      rw [move_store_of_no_call hcall, hdeleted] at hvisible
      cases hvisible
  | some call =>
      obtain ⟨client, cmd⟩ := call
      rw [move_store hcall] at hvisible
      exact ⟨client, by rw [exec_deleted _ key (may_issue_next hcall) hdeleted hvisible]⟩

/-- A server gets visible only by the answer to the challenge of its last registration, in every
run whose tasks clear the mark of a deleted server while it has the challenge response that they
have read. -/
theorem visible_by_own_answer (key : Bytes) (run : List (Move Request))
    (h : AtEvery (FindsChallenge key) run) : AtEvery (ByOwnAnswer key) run := by
  intro moves next after heq hvisible
  obtain ⟨client, hcall⟩ := gets_visible_next hvisible
  obtain ⟨challenge, hstored, hne, hread⟩ := h moves next after heq client hcall hvisible.1
  obtain ⟨htype, reply, hreply, hanswers⟩ := may_issue_next hcall rfl
  rw [stored_challenge, Option.map_eq_some_iff] at hstored
  obtain ⟨last, hlast, rfl⟩ := hstored
  refine ⟨client, _, last, hcall, htype, hlast, by simpa using hne, ?_⟩
  rw [hread reply hreply] at hanswers
  exact hanswers.take (challenge_resp_no_quote last)

end Moves

/-- The command clears the mark of a server. -/
def Cmd.clears : Cmd → Bool
  | .hset _ .deleted deleted => !deleted
  | _ => false

theorem finds_challenge_of_quiet {key : Bytes} {moves : List (Move Request)}
    {next : Move Request}
    (h : ((tasks moves).nextCall next).all (fun call => !call.2.clears) = true) :
    FindsChallenge key moves next := by
  intro client hcall
  simp [hcall, Cmd.clears] at h

/-- A registration, and what a validation with the right response does before it reads the
challenge response. -/
def hostRun : List (Move Request) :=
  .arrive (hostHeartbeat (ascii "3")) :: List.replicate 9 (.execute 0) ++
    .arrive hostAnswer :: List.replicate 3 (.execute 1)

/-- What the validation has read by then. -/
def hostPast : Past Cmd.Reply :=
  [⟨.get (.ipInst 77 hostAddress), some hostKey⟩, ⟨.hget hostKey .deleted, some true⟩,
    ⟨.hexists hostKey .challenge, true⟩]

/-- What it does when the response is right. -/
def hostAccept : QRProg (Option Response) := do
  let deleted ← isServerDeleted hostKey true
  if deleted then
    acceptServer hostAnswer hostKey
    pure (some ⟨none, hostKey⟩)
  else if hostAnswer.version = 1 then pure none
  else pure (some ⟨none, hostKey⟩)

theorem host_run_client : (tasks hostRun).clients[1]? =
    some ⟨hostAnswer, hostPast, .call (.hget hostKey .challenge) fun reply =>
      if stripQuotes (reply.getD []) ≠
          choppedChallenge (stripQuotes (reply.getD [])) hostAnswer.gamename then
        pure (some ⟨some (ascii "Invalid challenge response"), hostKey⟩)
      else hostAccept⟩ :=
  rfl

theorem host_run_challenge : (tasks hostRun).store.records hostKey .challenge =
    some (hostHeartbeat (ascii "3")).challengeResp :=
  rfl

/-- The right response is what the reading expects. -/
theorem host_read_client : (tasks (hostRun ++ [.execute 1])).clients[1]? =
    some ⟨hostAnswer, hostPast ++
      [⟨.hget hostKey .challenge, some (hostHeartbeat (ascii "3")).challengeResp⟩],
      hostAccept⟩ := by
  have hreply : (exec (.hget hostKey .challenge) (tasks hostRun).store).1 =
      some (hostHeartbeat (ascii "3")).challengeResp := host_run_challenge
  have hanswers := host_answers (ascii "3")
  rw [Answers, Option.getD_some] at hanswers
  rw [tasks_append, execute_client host_run_client, hreply, Option.getD_some,
    if_neg (not_not.mpr hanswers)]

/-- A server that registers and answers its challenge gets visible by its own answer. -/
theorem host_visible_by_own_answer :
    AtEvery (ByOwnAnswer hostKey) (hostRun ++ [.execute 1] ++ [.execute 1] ++ [.execute 1]) ∧
      GetsVisible hostKey (hostRun ++ [.execute 1] ++ [.execute 1]) (.execute 1) := by
  have hquiet : AtEvery (FindsChallenge hostKey) hostRun := by
    refine at_every_iff.mpr fun i hi => finds_challenge_of_quiet ?_
    revert i
    decide +kernel
  obtain ⟨rest, hrest, clear, hclear⟩ : ∃ rest,
      hostAccept = .call (.hget hostKey .deleted) rest ∧
        ∃ clear, rest (some true) = .call (.hset hostKey .deleted false) clear :=
    ⟨_, rfl, _, rfl⟩
  have hread := host_read_client
  rw [hrest] at hread
  have hdeleted : (exec (.hget hostKey .deleted) (tasks (hostRun ++ [.execute 1])).store).1 =
      some true := by
    decide +kernel
  have hchecked := @execute_client _ _ _ _ _ exec perform _ _ _ _ _ _ hread
  rw [← tasks_append, hdeleted, hclear] at hchecked
  -- both commands only read
  have hstore :
      (tasks (hostRun ++ [.execute 1] ++ [.execute 1])).store = (tasks hostRun).store := by
    rw [tasks_append, move_store (next_call_execute hread), exec, tasks_append,
      move_store (next_call_execute host_run_client), exec]
  have hfinds : FindsChallenge hostKey (hostRun ++ [.execute 1] ++ [.execute 1]) (.execute 1) := by
    intro client hcall _
    rw [next_call_execute hchecked] at hcall
    obtain rfl : _ = client := by simpa using hcall
    refine ⟨_, by rw [hstore, host_run_challenge], ?_, fun reply hmem => ?_⟩
    · exact List.ne_nil_of_length_pos (by decide +kernel)
    · simpa [hostPast] using hmem
  have hfirst : FindsChallenge hostKey hostRun (.execute 1) :=
    finds_challenge_of_quiet (by rw [next_call_execute host_run_client]; rfl)
  have hsecond : FindsChallenge hostKey (hostRun ++ [.execute 1]) (.execute 1) :=
    finds_challenge_of_quiet (by rw [next_call_execute hread]; rfl)
  have hbefore : AtEvery (FindsChallenge hostKey) (hostRun ++ [.execute 1] ++ [.execute 1]) :=
    at_every_append.mpr ⟨at_every_append.mpr ⟨hquiet, hfirst⟩, hsecond⟩
  have hrun := at_every_append.mpr ⟨hbefore, hfinds⟩
  refine ⟨visible_by_own_answer hostKey _ hrun, ?_, ?_⟩
  · rw [hstore]
    decide +kernel
  · rw [tasks_append, move_store (next_call_execute hchecked), exec, set_field_same]

/-- A validation that reads no challenge response, and a registration that marks the server
deleted, but has not stored one yet. -/
def unreadRun : List (Move Request) :=
  .arrive (hostHeartbeat (ascii "3")) :: List.replicate 6 (.execute 0) ++
    .arrive { hostAnswer with gamename := ascii "wrong" } :: List.replicate 4 (.execute 1) ++
      [.execute 0, .execute 1]

/-- The validation makes the server visible, whatever its response is. -/
theorem clears_unread_challenge : ¬ ∀ key run, AtEvery (ByOwnAnswer key) run := by
  intro h
  have hvisible : GetsVisible hostKey unreadRun (.execute 1) := by
    constructor
    · decide +kernel
    · decide +kernel
  have hnone : lastRegistration hostKey unreadRun = none := by rfl
  obtain ⟨client, cmd, last, -, -, hlast, -⟩ :=
    h hostKey (unreadRun ++ [.execute 1]) unreadRun (.execute 1) [] rfl hvisible
  rw [hnone] at hlast
  cases hlast

end OpenSpy.QR
