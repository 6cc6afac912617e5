import OpenSpy.Library.Registry
import OpenSpy.Peerchat.NickTasks

/-!
# The owners of nicks

A nick should belong to one connected user, and a user should hold one nick. `EXISTS` and `SET`
are separate commands, so two peers can find a nick free and both be told that it is theirs, and
two tasks of one peer can take its nick for the same, so that one of the nicks that they write
stays (`nick_given_twice`). `Meets` lists what a step must find for this not to happen, and
`nicks_owned_of_meets` says that it is enough.
-/

namespace OpenSpy.Peerchat.NickTasks

open Bytes ChannelStore Commands MachineInt Registry Runs

/-- No user has two nicks, no nick has a deleted user, and no two connected peers have the same
nick. -/
def NicksOwned (s : State) : Prop :=
  (∀ id key other, s.usernick key = some id → s.usernick other = some id → key = other) ∧
    (∀ peer ∈ s.peers, peer.life = .deleted → ∀ key, s.usernick key ≠ some peer.details.id) ∧
    ∀ (p q : Nat) (peer other : Peer), s.peers[p]? = some peer → s.peers[q]? = some other →
      peer.life = .connected → other.life = .connected →
        nickKey peer.details.nick = nickKey other.details.nick →
          nickKey peer.details.nick ≠ [] → p = q

/-- The locals of a task that has deleted the key of its original nick and not yet called back. -/
def Task.writing? (task : Task) : Option Locals :=
  match task.control with
  | .hsetNick locals | .setUpdated locals | .setKept locals | .succeed locals _ true => some locals
  | _ => none

/-- The task sets the key that it deletes. -/
def Request.KeepsKey (request : Request) (locals : Locals) : Prop :=
  nickKey request.summary.nick = nickKey locals.originalNick

instance (request : Request) (locals : Locals) : Decidable (request.KeepsKey locals) :=
  inferInstanceAs (Decidable (_ = _))

/-- The callback gives the peer the nick of the response. -/
def Callback.TellsNick (callback : Callback) : Prop :=
  callback = .onNickReserve ∨ callback = .onUserRegistered

instance (callback : Callback) : Decidable callback.TellsNick :=
  inferInstanceAs (Decidable (_ ∨ _))

namespace State

/-- The key of the nick has no user, or the user with the id, or is that of the empty nick, which
all peers have that are not registered yet. -/
def Free (s : State) (nick : Bytes) (id : Int) : Prop :=
  nickKey nick = [] ∨ s.usernick (nickKey nick) = none ∨ s.usernick (nickKey nick) = some id

instance (s : State) (nick : Bytes) (id : Int) : Decidable (s.Free nick id) :=
  inferInstanceAs (Decidable (_ ∨ _))

/-- A task may delete the key of its original nick: this is still the nick of its peer, the
callback leaves the peer with the nick that the task sets, and no other task of the peer is
writing, unless each sets the key that it deletes and no other user has it. -/
def MayWrite (s : State) (i : Nat) (request : Request) (locals : Locals) (details : Details) :
    Prop :=
  nickKey locals.originalNick = nickKey details.nick ∧
    (request.callback.TellsNick ∨ request.KeepsKey locals) ∧
    ∀ j < s.tasks.length, j ≠ i → ∀ other ∈ s.tasks[j]?, other.request.peer = request.peer →
      ∀ own ∈ other.writing?, other.request.KeepsKey own ∧ request.KeepsKey locals ∧
        s.Free locals.originalNick locals.id

instance (s : State) (i : Nat) (request : Request) (locals : Locals) (details : Details) :
    Decidable (s.MayWrite i request locals details) :=
  inferInstanceAs (Decidable (_ ∧ _ ∧ _))

/-- What a step of a task must find: an id that is an `int`, an original nick that it may delete,
a nick that is free when it is set, and a peer that keeps its details if the task has not written
them. -/
def TaskMeets (s : State) (i : Nat) (request : Request) (details : Details) : Control → Prop
  | .incr _ _ => s.peerchatId + 1 < 2 ^ 31
  | .delOriginal locals | .delKept locals => s.MayWrite i request locals details
  | .setUpdated locals | .setKept locals => s.Free request.summary.nick locals.id
  | .succeed _ response false =>
      nickKey (request.callback.onSuccess response details).nick = nickKey details.nick
  | .fail response =>
      (request.callback.onUniqueNickInUse response details).id = details.id ∧
        nickKey (request.callback.onUniqueNickInUse response details).nick = nickKey details.nick
  | _ => True

instance (s : State) (i : Nat) (request : Request) (details : Details) (control : Control) :
    Decidable (s.TaskMeets i request details control) :=
  match control with
  | .incr _ _ => inferInstanceAs (Decidable (_ < _))
  | .delOriginal locals | .delKept locals =>
      inferInstanceAs (Decidable (s.MayWrite i request locals details))
  | .setUpdated locals | .setKept locals =>
      inferInstanceAs (Decidable (s.Free request.summary.nick locals.id))
  | .succeed _ _ false => inferInstanceAs (Decidable (_ = _))
  | .fail _ => inferInstanceAs (Decidable (_ ∧ _))
  | .readNick | .readDetails _ | .exist _ | .hsetNick _ | .applyKeys _ | .existsNick | .getNick
  | .existsUser _ | .hmgetUser _ | .succeed _ _ true | .done => inferInstanceAs (Decidable True)

/-- What an event must find. -/
def Meets (s : State) : Event → Prop
  | .execute i => ∀ task ∈ s.tasks[i]?, ∀ peer ∈ s.peers[task.request.peer]?,
      s.TaskMeets i task.request peer.details task.control
  | _ => True

instance (s : State) (event : Event) : Decidable (s.Meets event) :=
  match event with
  | .execute i => inferInstanceAs (Decidable (∀ task ∈ s.tasks[i]?, ∀ peer ∈ _, _))
  | .connect | .nick _ _ _ | .acquire _ _ | .refresh _ _ | .quit _ | .delete _ =>
      inferInstanceAs (Decidable True)

end State

/-- The next steps of a task. -/
def steps (i n : Nat) : List Event :=
  List.replicate n (.execute i)

/-- Two peers look for the nick before one of them takes it. -/
def nickRace : List Event :=
  List.flatten [[.connect], steps 0 8, [.connect], steps 1 8,
    [.nick 0 [] (ascii "alice"), .nick 1 [] (ascii "alice")],
    steps 2 3, steps 3 3, steps 2 4, steps 3 4]

/-- A peer asks for two nicks, and both tasks look up its nick before one of them is done. -/
def nicksQueued : List Event :=
  List.flatten [[.connect], steps 0 8, [.nick 0 [] (ascii "alice")], steps 1 7,
    [.nick 0 [] (ascii "bob"), .nick 0 [] (ascii "carol")],
    steps 2 2, steps 3 2, steps 2 5, steps 3 5, [.quit 0, .delete 0, .delete 0]]

/-- Both peers are told that the nick is theirs. The peer that quits leaves one of its nicks. -/
theorem nick_given_twice :
    ((serve nickRace).Finished ∧ ¬ NicksOwned (serve nickRace)) ∧
      (serve nicksQueued).Finished ∧ ¬ NicksOwned (serve nicksQueued) := by
  refine ⟨⟨by decide +kernel, fun h => ?_⟩, by decide +kernel, fun h => ?_⟩
  · have hsame := h.2.2 0 1 ⟨⟨1, ascii "alice"⟩, .connected⟩ ⟨⟨2, ascii "alice"⟩, .connected⟩
      (by decide +kernel) (by decide +kernel) rfl rfl rfl (by decide)
    cases hsame
  · have hpeer : (serve nicksQueued).peers = [⟨⟨1, ascii "carol"⟩, .deleted⟩] := by
      decide +kernel
    have hnone := h.2.1 ⟨⟨1, ascii "carol"⟩, .deleted⟩ (by simp [hpeer]) rfl (ascii "bob")
    exact hnone (by decide +kernel)

section Invariant

/-- The task is between its `DEL` and its `SET`. -/
def Task.isAway (task : Task) : Bool :=
  match task.control with
  | .hsetNick _ | .setUpdated _ | .setKept _ => true
  | _ => false

/-- The id that the task has for its user. -/
def Control.id? : Control → Option Int
  | .exist locals | .delOriginal locals | .hsetNick locals | .setUpdated locals
  | .applyKeys locals | .delKept locals | .setKept locals | .succeed locals _ _ => some locals.id
  | _ => none

/-- A nick that is kept is the one that was requested, and the response has it. -/
def Task.Answers (task : Task) : Prop :=
  match task.control with
  | .applyKeys locals | .delKept locals | .setKept locals =>
      locals.userDetails.nick = task.request.summary.nick
  | .succeed locals response _ => response = ⟨locals.id, task.request.summary.nick⟩
  | _ => True

namespace State

/-- A task of the peer is writing. -/
def Writing (s : State) (p : Nat) : Prop :=
  ∃ (i : Nat) (task : Task), s.tasks[i]? = some task ∧ task.request.peer = p ∧
    task.writing? ≠ none

/-- A task of the peer is between its `DEL` and its `SET`. -/
def Away (s : State) (p : Nat) : Prop :=
  ∃ (i : Nat) (task : Task), s.tasks[i]? = some task ∧ task.request.peer = p ∧ task.isAway = true

/-- The nick of the peer has been deleted. -/
def Gone (s : State) (p : Nat) : Prop :=
  ∃ peer, s.peers[p]? = some peer ∧ (peer.life = .delUser ∨ peer.life = .deleted)

/-- The counter has given the id to the peer. -/
def Issued (s : State) (owner : Int → Nat) (p : Nat) (id : Int) : Prop :=
  0 < id ∧ id ≤ s.peerchatId ∧ owner id = p

end State

/-- What holds of a task: its id has been issued to its peer, which is connected, and while it is
writing it sets the key that its peer goes by. Either this is the nick of the peer, too, or no
other task of the peer is writing and the callback makes it so. -/
structure Fits (owner : Int → Nat) (target : Nat → Bytes) (s : State) (i : Nat) (task : Task) :
    Prop where
  issued : ∀ id ∈ task.control.id?, s.Issued owner task.request.peer id
  connected : task.control ≠ .done →
    ∃ details, s.peers[task.request.peer]? = some ⟨details, .connected⟩
  answers : task.Answers
  target : ∀ own ∈ task.writing?, target task.request.peer = nickKey task.request.summary.nick
  keeps : ∀ own ∈ task.writing?, task.request.KeepsKey own →
    ∀ peer, s.peers[task.request.peer]? = some peer →
      nickKey peer.details.nick = nickKey task.request.summary.nick
  alone : ∀ own ∈ task.writing?, ¬ task.request.KeepsKey own →
    task.request.callback.TellsNick ∧
      ∀ (j : Nat) (other : Task), s.tasks[j]? = some other → j ≠ i →
        other.request.peer = task.request.peer → other.writing? = none

/-- What holds of a state: `owner` says which peer an id was issued to, and `target` which key
a peer goes by. Ids are filed under these keys. -/
structure Kept (owner : Int → Nat) (target : Nat → Bytes) (s : State) : Prop where
  filed : Filed (· = []) s.usernick owner target s.Gone s.Away
  filedIds : ∀ key id, s.usernick key = some id → 0 < id ∧ id ≤ s.peerchatId
  counter : 0 ≤ s.peerchatId
  unborn : ∀ p, s.peers.length ≤ p → target p = []
  peers : ∀ p peer, s.peers[p]? = some peer →
    (peer.details.id = 0 ∨ s.Issued owner p peer.details.id) ∧
      (¬ s.Writing p → target p = nickKey peer.details.nick)
  tasks : ∀ i task, s.tasks[i]? = some task → Fits owner target s i task

variable {owner owner' : Int → Nat} {target target' : Nat → Bytes} {s s' : State} {i : Nat}
  {task : Task}

/-- A task that is writing is not done. -/
theorem not_done_of_writing {own : Locals} (h : own ∈ task.writing?) : task.control ≠ .done := by
  intro hdone
  simp [Task.writing?, hdone] at h

/-- A task still fits if its peer does, it keeps its key, and no other task begins to write. -/
theorem Fits.frame (h : Fits owner target s i task) (hcounter : s.peerchatId ≤ s'.peerchatId)
    (howner : ∀ id ≤ s.peerchatId, owner' id = owner id)
    (hpeer : task.control ≠ .done →
      ∀ details, s.peers[task.request.peer]? = some ⟨details, .connected⟩ →
        ∃ details', s'.peers[task.request.peer]? = some ⟨details', .connected⟩ ∧
          ∀ own ∈ task.writing?, nickKey details'.nick = nickKey details.nick)
    (htarget : ∀ own ∈ task.writing?, target' task.request.peer = target task.request.peer)
    (halone : ∀ own ∈ task.writing?, ¬ task.request.KeepsKey own →
      ∀ (j : Nat) (other : Task), s'.tasks[j]? = some other → j ≠ i →
        other.request.peer = task.request.peer → other.writing? ≠ none →
          ∃ old, s.tasks[j]? = some old ∧ old.request.peer = task.request.peer ∧
            old.writing? ≠ none) :
    Fits owner' target' s' i task where
  issued id hid := by
    obtain ⟨hpos, hle, hsame⟩ := h.issued id hid
    exact ⟨hpos, hle.trans hcounter, by rw [howner id hle, hsame]⟩
  connected hdone := by
    obtain ⟨details, hdetails⟩ := h.connected hdone
    obtain ⟨details', hdetails', -⟩ := hpeer hdone details hdetails
    exact ⟨details', hdetails'⟩
  answers := h.answers
  target own hown := (htarget own hown).trans (h.target own hown)
  keeps own hown hkeeps peer hget := by
    have hdone := not_done_of_writing hown
    obtain ⟨details, hdetails⟩ := h.connected hdone
    obtain ⟨details', hdetails', hsame⟩ := hpeer hdone details hdetails
    rw [hdetails'] at hget
    rw [← Option.some.inj hget]
    exact (hsame own hown).trans (h.keeps own hown hkeeps _ hdetails)
  alone own hown hkeeps := by
    obtain ⟨htells, hnone⟩ := h.alone own hown hkeeps
    refine ⟨htells, fun j other hget hne hsame => ?_⟩
    by_contra hwriting
    obtain ⟨old, hold, holdPeer, holdWriting⟩ :=
      halone own hown hkeeps j other hget hne hsame hwriting
    exact holdWriting (hnone j old hold hne holdPeer)

section Tasks

variable {tasks : List Task} {next : Task} {P : Task → Prop}

/-- The tasks behind a step of one of them. -/
theorem get_set_iff (hget : tasks[i]? = some task) {j : Nat} {other : Task} :
    (tasks.set i next)[j]? = some other ↔
      (j = i ∧ other = next) ∨ (j ≠ i ∧ tasks[j]? = some other) := by
  obtain ⟨hlt, -⟩ := List.getElem?_eq_some_iff.mp hget
  by_cases hj : j = i
  · subst hj
    simp [hlt, eq_comm]
  · rw [List.getElem?_set_ne (Ne.symm hj)]
    simp [hj]

/-- What holds of some task holds of one after a step, if it is not lost in the step. -/
theorem some_task_set (hget : tasks[i]? = some task) (hstep : P task → P next)
    (h : ∃ (j : Nat) (other : Task), tasks[j]? = some other ∧ P other) :
    ∃ (j : Nat) (other : Task), (tasks.set i next)[j]? = some other ∧ P other := by
  obtain ⟨j, other, hother, hP⟩ := h
  by_cases hj : j = i
  · subst hj
    obtain rfl : task = other := Option.some.inj (hget.symm.trans hother)
    exact ⟨j, next, (get_set_iff hget).mpr (.inl ⟨rfl, rfl⟩), hstep hP⟩
  · exact ⟨j, other, (get_set_iff hget).mpr (.inr ⟨hj, hother⟩), hP⟩

end Tasks

/-- A step of a task that does not change what it is writing. -/
theorem Kept.advance (h : Kept owner target s) (hget : s.tasks[i]? = some task)
    (hdone : task.control ≠ .done) {control : Control} {usernick : Bytes → Option Int}
    {userNick : Int → Option Bytes}
    (hid : ∀ id ∈ control.id?, s.Issued owner task.request.peer id)
    (hanswers : Task.Answers ⟨task.request, control⟩)
    (hwriting : Task.writing? ⟨task.request, control⟩ = task.writing?)
    (hfiled : Filed (· = []) usernick owner target s.Gone
      (State.Away { s with tasks := s.tasks.set i ⟨task.request, control⟩ }))
    (hfiledIds : ∀ key id, usernick key = some id → 0 < id ∧ id ≤ s.peerchatId) :
    Kept owner target
      { s with
        usernick := usernick
        userNick := userNick
        tasks := s.tasks.set i ⟨task.request, control⟩ } where
  filed := hfiled
  filedIds := hfiledIds
  counter := h.counter
  unborn := h.unborn
  peers p peer hpeer := by
    obtain ⟨hissued, htarget⟩ := h.peers p peer hpeer
    refine ⟨hissued, fun hnot => htarget fun hold => hnot ?_⟩
    refine some_task_set hget (fun hold => ?_) hold
    rwa [hwriting]
  tasks j other hother := by
    -- whoever is writing behind the step was writing before it
    have hold : ∀ (k : Nat) (other : Task),
        (s.tasks.set i ⟨task.request, control⟩)[k]? = some other → other.writing? ≠ none →
          ∃ old, s.tasks[k]? = some old ∧ old.request.peer = other.request.peer ∧
            old.writing? ≠ none := by
      intro k other hother hnone
      rcases (get_set_iff hget).mp hother with ⟨rfl, rfl⟩ | ⟨-, hother⟩
      · exact ⟨task, hget, rfl, hwriting ▸ hnone⟩
      · exact ⟨other, hother, rfl, hnone⟩
    have hframe : ∀ other, s.tasks[j]? = some other →
        Fits owner target
          { s with
            usernick := usernick
            userNick := userNick
            tasks := s.tasks.set i ⟨task.request, control⟩ } j other := by
      intro other hother
      refine (h.tasks j other hother).frame le_rfl (fun _ _ => rfl)
        (fun _ details hdetails => ⟨details, hdetails, fun _ _ => rfl⟩) (fun _ _ => rfl) ?_
      intro _ _ _ k other hother _ hsame hnone
      obtain ⟨old, hget, hpeer, hnone⟩ := hold k other hother hnone
      exact ⟨old, hget, hpeer.trans hsame, hnone⟩
    rcases (get_set_iff hget).mp hother with ⟨rfl, rfl⟩ | ⟨-, hother⟩
    · exact {
        issued := hid
        connected := fun _ => (hframe task hget).connected hdone
        answers := hanswers
        target := fun own hown => (hframe task hget).target own (hwriting ▸ hown)
        keeps := fun own hown => (hframe task hget).keeps own (hwriting ▸ hown)
        alone := fun own hown => (hframe task hget).alone own (hwriting ▸ hown) }
    · exact hframe other hother

/-- A step of a task that does not touch the keys of the nicks. -/
theorem Kept.quiet (h : Kept owner target s) (hget : s.tasks[i]? = some task)
    (hdone : task.control ≠ .done) {control : Control} {userNick : Int → Option Bytes}
    (hid : ∀ id ∈ control.id?, s.Issued owner task.request.peer id)
    (hanswers : Task.Answers ⟨task.request, control⟩)
    (hwriting : Task.writing? ⟨task.request, control⟩ = task.writing?)
    (haway : Task.isAway ⟨task.request, control⟩ = task.isAway) :
    Kept owner target
      { s with userNick := userNick, tasks := s.tasks.set i ⟨task.request, control⟩ } := by
  refine h.advance hget hdone hid hanswers hwriting ?_ h.filedIds
  refine h.filed.mono_away fun p hp => some_task_set hget (fun hold => ?_) hp
  rwa [haway]

/-- The counter gives a new id to a peer. -/
theorem Kept.issue (h : Kept owner target s) (p : Nat) :
    Kept (Function.update owner (s.peerchatId + 1) p) target
      { s with peerchatId := s.peerchatId + 1 } := by
  have hsame : ∀ id ≤ s.peerchatId, Function.update owner (s.peerchatId + 1) p id = owner id :=
    fun id hle => Function.update_of_ne (by omega) _ _
  exact {
    filed := by
      refine h.filed.issue p fun key hkey => ?_
      have hle := (h.filedIds key _ hkey).2
      omega
    filedIds := fun key id hkey => by
      obtain ⟨hpos, hle⟩ := h.filedIds key id hkey
      exact ⟨hpos, by show id ≤ s.peerchatId + 1; omega⟩
    counter := by
      have hcounter := h.counter
      show 0 ≤ s.peerchatId + 1
      omega
    unborn := h.unborn
    peers := fun q peer hpeer => by
      obtain ⟨hissued, htarget⟩ := h.peers q peer hpeer
      refine ⟨hissued.imp_right fun ⟨hpos, hle, howner⟩ => ?_, htarget⟩
      exact ⟨hpos, by show _ ≤ s.peerchatId + 1; omega, by rw [hsame _ hle, howner]⟩
    tasks := fun j other hother => by
      refine (h.tasks j other hother).frame (by show s.peerchatId ≤ s.peerchatId + 1; omega) hsame
        (fun _ details hdetails => ⟨details, hdetails, fun _ _ => rfl⟩) (fun _ _ => rfl) ?_
      exact fun _ _ _ k other hother _ hsame hnone => ⟨other, hother, hsame, hnone⟩ }

/-- A connected peer is not gone. -/
theorem not_gone_of_connected {p : Nat} {details : Details}
    (h : s.peers[p]? = some ⟨details, .connected⟩) : ¬ s.Gone p := by
  rintro ⟨peer, hpeer, hlife⟩
  rw [h] at hpeer
  rw [← Option.some.inj hpeer] at hlife
  simp at hlife

/-- A task that is away is writing. -/
theorem writing_of_away (h : task.isAway = true) : ∃ own, task.writing? = some own := by
  unfold Task.isAway at h
  unfold Task.writing?
  split at h <;> simp_all

/-- A task that is writing is not one that is not. -/
theorem ne_of_writing {other : Task} {own : Locals} {j : Nat} (hget : s.tasks[i]? = some task)
    (hnone : task.writing? = none) (hother : s.tasks[j]? = some other)
    (hwriting : other.writing? = some own) : j ≠ i := by
  rintro rfl
  rw [hget] at hother
  rw [Option.some.inj hother, hwriting] at hnone
  cases hnone

/-- A key that is free for an id of a peer has no id of another. -/
theorem State.Free.owner_eq {nick : Bytes} {id : Int} {p : Nat} (h : s.Free nick id)
    (howner : owner id = p) :
    ∀ other, s.usernick (nickKey nick) = some other → ¬ nickKey nick = [] → owner other = p := by
  intro other hname hshared
  rcases h with hempty | hnone | hsame
  · exact absurd hempty hshared
  · rw [hname] at hnone
    cases hnone
  · rw [hname] at hsame
    rw [Option.some.inj hsame, howner]

section Open

variable {details : Details} {own : Locals}

/-- The other tasks of the peer that are writing keep its key, if there are any. -/
theorem State.MayWrite.others {request : Request} (h : s.MayWrite i request own details) {j : Nat}
    {other : Task} (hother : s.tasks[j]? = some other) (hne : j ≠ i)
    (hsame : other.request.peer = request.peer) {locals : Locals}
    (hlocals : other.writing? = some locals) :
    other.request.KeepsKey locals ∧ request.KeepsKey own ∧ s.Free own.originalNick own.id := by
  obtain ⟨hlt, -⟩ := List.getElem?_eq_some_iff.mp hother
  exact h.2.2 j hlt hne other hother hsame locals hlocals

/-- A peer goes by the key that a task may delete, whether other tasks of it are writing or not. -/
theorem Kept.target_of_may_write (h : Kept owner target s) (hget : s.tasks[i]? = some task)
    (hpeer : s.peers[task.request.peer]? = some ⟨details, .connected⟩)
    (hnone : task.writing? = none) (hmay : s.MayWrite i task.request own details) :
    target task.request.peer = nickKey own.originalNick := by
  rw [hmay.1]
  by_cases hbusy : s.Writing task.request.peer
  · obtain ⟨j, other, hother, hsame, hwriting⟩ := hbusy
    obtain ⟨locals, hlocals⟩ := Option.ne_none_iff_exists'.mp hwriting
    -- the other task keeps the key that it writes, so this is the nick of the peer
    have hne := ne_of_writing hget hnone hother hlocals
    have hfits := h.tasks j other hother
    have hkeeps := (hmay.others hother hne hsame hlocals).1
    have hkey := hfits.keeps locals hlocals hkeeps _ (hsame ▸ hpeer)
    rw [← hsame, hfits.target locals hlocals, ← hkey]
  · exact (h.peers _ _ hpeer).2 hbusy

/-- The key that a task may delete has no id of another peer. -/
theorem Kept.owner_of_may_write (h : Kept owner target s) (hget : s.tasks[i]? = some task)
    (hpeer : s.peers[task.request.peer]? = some ⟨details, .connected⟩)
    (hnone : task.writing? = none) (howner : owner own.id = task.request.peer)
    (hmay : s.MayWrite i task.request own details) :
    ∀ id, s.usernick (target task.request.peer) = some id → ¬ target task.request.peer = [] →
      owner id = task.request.peer := by
  intro id hname hshared
  by_cases haway : s.Away task.request.peer
  · obtain ⟨j, other, hother, hsame, haway⟩ := haway
    obtain ⟨locals, hlocals⟩ := writing_of_away haway
    have hne := ne_of_writing hget hnone hother hlocals
    -- another task has deleted the key, and the condition says who may have taken it since
    have hfree := (hmay.others hother hne hsame hlocals).2.2
    rw [h.target_of_may_write hget hpeer hnone hmay] at hname hshared
    exact hfree.owner_eq howner id hname hshared
  · exact h.filed.owner_of_target (not_gone_of_connected hpeer) haway hshared hname

/-- A task deletes the key of its original nick. -/
theorem Kept.open (h : Kept owner target s) (hget : s.tasks[i]? = some task)
    (hpeer : s.peers[task.request.peer]? = some ⟨details, .connected⟩)
    (hnone : task.writing? = none) {control : Control}
    (hid : s.Issued owner task.request.peer own.id) (hcontrolId : control.id? = some own.id)
    (hanswers : Task.Answers ⟨task.request, control⟩)
    (hwriting : Task.writing? ⟨task.request, control⟩ = some own)
    (haway : Task.isAway ⟨task.request, control⟩ = true)
    (hmay : s.MayWrite i task.request own details) :
    Kept owner (Function.update target task.request.peer (nickKey task.request.summary.nick))
      { s.delNick own.originalNick with tasks := s.tasks.set i ⟨task.request, control⟩ } := by
  have htarget := h.target_of_may_write hget hpeer hnone hmay
  have hset : (s.tasks.set i ⟨task.request, control⟩)[i]? = some ⟨task.request, control⟩ :=
    (get_set_iff hget).mpr (.inl ⟨rfl, rfl⟩)
  exact {
    filed := by
      show Filed _ (Function.update s.usernick (nickKey own.originalNick) none) _ _ _ _
      rw [← htarget]
      exact h.filed.release _
        (fun q hq => some_task_set hget (fun hold => ⟨hold.1, haway⟩) hq)
        ⟨i, _, hset, rfl, haway⟩ (h.owner_of_may_write hget hpeer hnone hid.2.2 hmay)
    filedIds := fun key id hname => by
      by_cases hkey : key = nickKey own.originalNick
      · simp [State.delNick, hkey] at hname
      · exact h.filedIds key id (by simpa [State.delNick, hkey] using hname)
    counter := h.counter
    unborn := fun q hq => by
      obtain ⟨hlt, -⟩ := List.getElem?_eq_some_iff.mp hpeer
      have hle : s.peers.length ≤ q := hq
      rw [Function.update_of_ne (by omega)]
      exact h.unborn q hq
    peers := fun q peer hq => by
      obtain ⟨hissued, htargetq⟩ := h.peers q peer hq
      refine ⟨hissued, fun hbusy => ?_⟩
      have hne : q ≠ task.request.peer := by
        rintro rfl
        -- the peer of the task is writing now, which leaves its nick out
        exact hbusy ⟨i, _, hset, rfl, by simp [hwriting]⟩
      rw [Function.update_of_ne hne]
      refine htargetq fun hold => hbusy (some_task_set hget (fun hold => ?_) hold)
      exact absurd hnone hold.2
    tasks := fun j other hother => by
      rcases (get_set_iff hget).mp hother with ⟨rfl, rfl⟩ | ⟨hj, hold⟩
      · have hown : ∀ locals, locals ∈ Task.writing? ⟨task.request, control⟩ →
            locals = own := by
          intro locals hlocals
          rw [hwriting] at hlocals
          exact (Option.some.inj hlocals).symm
        exact {
          issued := fun id hcontrol => by
            rw [hcontrolId] at hcontrol
            rw [← Option.some.inj hcontrol]
            exact hid
          connected := fun _ => ⟨details, hpeer⟩
          answers := hanswers
          target := fun _ _ => by rw [Function.update_self]
          keeps := fun locals hlocals hkeeps peer hgetPeer => by
            obtain rfl := hown locals hlocals
            obtain rfl : _ = peer := Option.some.inj (hpeer.symm.trans hgetPeer)
            exact hmay.1.symm.trans hkeeps.symm
          alone := fun locals hlocals hkeeps => by
            obtain rfl := hown locals hlocals
            refine ⟨hmay.2.1.resolve_right hkeeps, fun k other hother hne hsame => ?_⟩
            rcases (get_set_iff hget).mp hother with ⟨hk, -⟩ | ⟨-, hother⟩
            · exact absurd hk hne
            · by_contra hbusy
              -- the condition lets two tasks write only if both keep the key
              obtain ⟨others, hlocals⟩ := Option.ne_none_iff_exists'.mp hbusy
              exact hkeeps (hmay.others hother hne hsame hlocals).2.1 }
      · refine (h.tasks j other hold).frame le_rfl (fun _ _ => rfl)
          (fun _ details hdetails => ⟨details, hdetails, fun _ _ => rfl⟩) ?_ ?_
        · intro locals hlocals
          by_cases hsame : other.request.peer = task.request.peer
          · rw [hsame, Function.update_self, htarget]
            exact (hmay.others hold hj hsame hlocals).2.1
          · rw [Function.update_of_ne hsame]
        · intro locals hlocals hkeeps k another hanother _ hsame hbusy
          rcases (get_set_iff hget).mp hanother with ⟨rfl, rfl⟩ | ⟨-, hanother⟩
          · exact absurd (hmay.others hold hj hsame.symm hlocals).1 hkeeps
          · exact ⟨another, hanother, hsame, hbusy⟩ }

end Open

/-- A task sets the key of its nick. -/
theorem Kept.set (h : Kept owner target s) (hget : s.tasks[i]? = some task) {details : Details}
    (hpeer : s.peers[task.request.peer]? = some ⟨details, .connected⟩) {control : Control}
    {own : Locals} (hold : task.writing? = some own) (hid : task.control.id? = some own.id)
    (hcontrolId : control.id? = some own.id) (hanswers : Task.Answers ⟨task.request, control⟩)
    (hwriting : Task.writing? ⟨task.request, control⟩ = some own)
    (hfree : s.Free task.request.summary.nick own.id) :
    Kept owner target
      { s.setNick task.request.summary.nick own.id with
        tasks := s.tasks.set i ⟨task.request, control⟩ } := by
  have hfits := h.tasks i task hget
  have hissued := hfits.issued own.id hid
  have htarget := hfits.target own hold
  refine h.advance hget (not_done_of_writing hold) ?_ hanswers (hwriting.trans hold.symm) ?_ ?_
  · intro id hcontrol
    rw [hcontrolId] at hcontrol
    rw [← Option.some.inj hcontrol]
    exact hissued
  · have hown := hfree.owner_eq hissued.2.2
    show Filed _ (Function.update s.usernick (nickKey task.request.summary.nick) (some own.id))
      _ _ _ _
    rw [← htarget, ← hissued.2.2] at hown ⊢
    refine h.filed.file ?_ ?_ hown
    · rw [hissued.2.2]
      exact not_gone_of_connected hpeer
    · intro other hother
      refine some_task_set hget fun hsame => ?_
      exact absurd (hsame.1.symm.trans hissued.2.2.symm) hother
  · intro key id hname
    by_cases hkey : key = nickKey task.request.summary.nick
    · obtain rfl : own.id = id := by simpa [State.setNick, hkey] using hname
      exact ⟨hissued.1, hissued.2.1⟩
    · exact h.filedIds key id (by simpa [State.setNick, hkey] using hname)

/-- A callback leaves the life of its peer as it is. -/
theorem set_details_iff {p q : Nat} {details details' : Details} {life : Life}
    (hget : s.peers[p]? = some ⟨details, life⟩) {peer : Peer} :
    (s.setDetails p details').peers[q]? = some peer ↔
      (q = p ∧ peer = ⟨details', life⟩) ∨ (q ≠ p ∧ s.peers[q]? = some peer) := by
  simp only [State.setDetails, List.getElem?_modify]
  by_cases hq : q = p
  · subst hq
    simp [hget, eq_comm]
  · simp [hq, Ne.symm hq]

theorem gone_set_details {p : Nat} {details details' : Details} {life : Life}
    (hget : s.peers[p]? = some ⟨details, life⟩) : (s.setDetails p details').Gone = s.Gone := by
  funext q
  simp only [State.Gone, set_details_iff hget]
  by_cases hq : q = p
  · subst hq
    simp [hget]
  · simp [hq]

/-- A task calls back, and its peer goes by the nick that it has then. -/
theorem Kept.close (h : Kept owner target s) (hget : s.tasks[i]? = some task)
    {details details' : Details}
    (hpeer : s.peers[task.request.peer]? = some ⟨details, .connected⟩)
    (haway : task.isAway = false)
    (hid : details'.id = details.id ∨ s.Issued owner task.request.peer details'.id)
    (hkey : nickKey details'.nick = nickKey details.nick ∨
      ∀ (j : Nat) (other : Task), s.tasks[j]? = some other → j ≠ i →
        other.request.peer = task.request.peer → other.writing? = none)
    (htarget : (∀ (j : Nat) (other : Task), s.tasks[j]? = some other → j ≠ i →
        other.request.peer = task.request.peer → other.writing? = none) →
      target task.request.peer = nickKey details'.nick) :
    Kept owner target
      { s.setDetails task.request.peer details' with
        tasks := s.tasks.set i ⟨task.request, .done⟩ } where
  filed := by
    have hgone := @gone_set_details s _ _ details' _ hpeer
    show Filed _ s.usernick owner target (s.setDetails _ details').Gone _
    rw [hgone]
    refine h.filed.mono_away fun p hp => some_task_set hget (fun hold => ?_) hp
    rw [haway] at hold
    cases hold.2
  filedIds := h.filedIds
  counter := h.counter
  unborn p hp := h.unborn p (by simpa [State.setDetails] using hp)
  peers p peer hp := by
    rcases (set_details_iff hpeer).mp hp with ⟨rfl, rfl⟩ | ⟨hne, hp⟩
    · refine ⟨?_, fun hbusy => htarget fun j other hother hne hsame => ?_⟩
      · rcases hid with hsame | hissued
        · show details'.id = 0 ∨ _
          rw [hsame]
          exact (h.peers _ _ hpeer).1
        · exact .inr hissued
      · by_contra hnone
        exact hbusy ⟨j, other, (get_set_iff hget).mpr (.inr ⟨hne, hother⟩), hsame, hnone⟩
    · obtain ⟨hissued, htargetp⟩ := h.peers p peer hp
      refine ⟨hissued, fun hbusy => htargetp fun hold => hbusy ?_⟩
      refine some_task_set hget (fun hold => ?_) hold
      exact absurd hold.1.symm hne
  tasks j other hother := by
    rcases (get_set_iff hget).mp hother with ⟨rfl, rfl⟩ | ⟨hj, hother⟩
    · exact {
        issued := fun id hcontrol => by cases hcontrol
        connected := fun hdone => absurd rfl hdone
        answers := trivial
        target := fun own hown => by cases hown
        keeps := fun own hown => by cases hown
        alone := fun own hown => by cases hown }
    · refine (h.tasks j other hother).frame le_rfl (fun _ _ => rfl) ?_ (fun _ _ => rfl) ?_
      · intro _ old hold
        by_cases hsame : other.request.peer = task.request.peer
        · obtain rfl : details = old := by
            rw [hsame, hpeer] at hold
            simpa using hold
          refine ⟨details', (set_details_iff hpeer).mpr (.inl ⟨hsame, rfl⟩), fun own hown => ?_⟩
          -- this task may be one of several of its peer that are writing
          rcases hkey with hkey | hnone
          · exact hkey
          · rw [hnone j other hother hj hsame] at hown
            cases hown
        · exact ⟨old, (set_details_iff hpeer).mpr (.inr ⟨hsame, hold⟩), fun _ _ => rfl⟩
      · intro _ _ _ k another hanother _ hsame hnone
        rcases (get_set_iff hget).mp hanother with ⟨rfl, rfl⟩ | ⟨-, hanother⟩
        · exact absurd rfl hnone
        · exact ⟨another, hanother, hsame, hnone⟩

/-- A connected peer adds a request. -/
theorem Kept.add (h : Kept owner target s) {request : Request} {details : Details}
    (hpeer : s.peers[request.peer]? = some ⟨details, .connected⟩) :
    Kept owner target { s with tasks := s.tasks ++ [⟨request, .readNick⟩] } := by
  have hold : ∀ {j : Nat} {other : Task}, s.tasks[j]? = some other →
      (s.tasks ++ [⟨request, .readNick⟩])[j]? = some other := by
    intro j other hother
    obtain ⟨hlt, -⟩ := List.getElem?_eq_some_iff.mp hother
    rwa [List.getElem?_append_left hlt]
  have hnew : ∀ {j : Nat} {other : Task},
      (s.tasks ++ [⟨request, .readNick⟩])[j]? = some other →
        s.tasks[j]? = some other ∨ other = ⟨request, .readNick⟩ := by
    intro j other hother
    rw [List.getElem?_append] at hother
    split at hother
    · exact .inl hother
    · exact .inr (List.mem_singleton.mp (List.mem_of_getElem? hother))
  exact {
    filed := h.filed.mono_away fun p ⟨j, other, hother, haway⟩ => ⟨j, other, hold hother, haway⟩
    filedIds := h.filedIds
    counter := h.counter
    unborn := h.unborn
    peers := fun p peer hp => by
      obtain ⟨hissued, htarget⟩ := h.peers p peer hp
      exact ⟨hissued, fun hbusy => htarget fun ⟨j, other, hother, hwriting⟩ =>
        hbusy ⟨j, other, hold hother, hwriting⟩⟩
    tasks := fun j other hother => by
      rcases hnew hother with hother | rfl
      · refine (h.tasks j other hother).frame le_rfl (fun _ _ => rfl)
          (fun _ details hdetails => ⟨details, hdetails, fun _ _ => rfl⟩) (fun _ _ => rfl) ?_
        intro _ _ _ k another hanother _ hsame hnone
        rcases hnew hanother with hanother | rfl
        · exact ⟨another, hanother, hsame, hnone⟩
        · exact absurd rfl hnone
      · exact {
          issued := fun id hcontrol => by cases hcontrol
          connected := fun _ => ⟨details, hpeer⟩
          answers := trivial
          target := fun own hown => by cases hown
          keeps := fun own hown => by cases hown
          alone := fun own hown => by cases hown } }

/-- A new peer. -/
theorem Kept.born (h : Kept owner target s) :
    Kept owner target { s with peers := s.peers ++ [⟨⟨0, []⟩, .connected⟩] } := by
  have hold : ∀ {p : Nat} {peer : Peer}, s.peers[p]? = some peer →
      (s.peers ++ [⟨⟨0, []⟩, .connected⟩])[p]? = some peer := by
    intro p peer hpeer
    obtain ⟨hlt, -⟩ := List.getElem?_eq_some_iff.mp hpeer
    rwa [List.getElem?_append_left hlt]
  have hnew : ∀ {p : Nat} {peer : Peer},
      (s.peers ++ [⟨⟨0, []⟩, .connected⟩])[p]? = some peer →
        s.peers[p]? = some peer ∨ (s.peers.length ≤ p ∧ peer = ⟨⟨0, []⟩, .connected⟩) := by
    intro p peer hpeer
    rw [List.getElem?_append] at hpeer
    split at hpeer
    · exact .inl hpeer
    · exact .inr ⟨by omega, List.mem_singleton.mp (List.mem_of_getElem? hpeer)⟩
  have hgone : State.Gone { s with peers := s.peers ++ [⟨⟨0, []⟩, .connected⟩] } = s.Gone := by
    funext p
    refine propext ⟨?_, ?_⟩
    · rintro ⟨peer, hpeer, hlife⟩
      rcases hnew hpeer with hpeer | ⟨-, rfl⟩
      · exact ⟨peer, hpeer, hlife⟩
      · simp at hlife
    · rintro ⟨peer, hpeer, hlife⟩
      exact ⟨peer, hold hpeer, hlife⟩
  exact {
    filed := by
      rw [hgone]
      exact h.filed
    filedIds := h.filedIds
    counter := h.counter
    unborn := fun p hp => h.unborn p (by simp at hp; omega)
    peers := fun p peer hpeer => by
      rcases hnew hpeer with hpeer | ⟨hp, rfl⟩
      · exact h.peers p peer hpeer
      · exact ⟨.inl rfl, fun _ => h.unborn p hp⟩
    tasks := fun j other hother => by
      refine (h.tasks j other hother).frame le_rfl (fun _ _ => rfl)
        (fun _ details hdetails => ⟨details, hold hdetails, fun _ _ => rfl⟩) (fun _ _ => rfl) ?_
      exact fun _ _ _ k another hanother _ hsame hnone => ⟨another, hanother, hsame, hnone⟩ }

/-- A peer without tasks that are not done goes on with its life. -/
theorem Kept.live (h : Kept owner target s) {p : Nat} {details : Details} {life life' : Life}
    (hget : s.peers[p]? = some ⟨details, life⟩)
    (hidle : ∀ task ∈ s.tasks, task.request.peer = p → task.control = .done)
    {usernick : Bytes → Option Int} {userNick : Int → Option Bytes}
    (hfiled : Filed (· = []) usernick owner target
      (State.Gone { s with peers := s.peers.set p ⟨details, life'⟩ }) s.Away)
    (hfiledIds : ∀ key id, usernick key = some id → s.usernick key = some id) :
    Kept owner target
      { s with
        usernick := usernick
        userNick := userNick
        peers := s.peers.set p ⟨details, life'⟩ } where
  filed := hfiled
  filedIds key id hname := h.filedIds key id (hfiledIds key id hname)
  counter := h.counter
  unborn q hq := h.unborn q (by simpa using hq)
  peers q peer hq := by
    by_cases hqp : q = p
    · subst hqp
      obtain ⟨hlt, -⟩ := List.getElem?_eq_some_iff.mp hget
      obtain rfl : ⟨details, life'⟩ = peer := by simpa [hlt] using hq
      have hsame := h.peers q _ hget
      exact hsame
    · exact h.peers q peer (by simpa [Ne.symm hqp] using hq)
  tasks j other hother := by
    refine (h.tasks j other hother).frame le_rfl (fun _ _ => rfl) ?_ (fun _ _ => rfl) ?_
    · intro hdone old hold
      have hne : other.request.peer ≠ p := fun hsame =>
        hdone (hidle other (List.mem_of_getElem? hother) hsame)
      exact ⟨old, by simpa [Ne.symm hne] using hold, fun _ _ => rfl⟩
    · exact fun _ _ _ k another hanother _ hsame hnone => ⟨another, hanother, hsame, hnone⟩

/-- Which peers are gone after a change of one life. -/
theorem gone_set_life {p q : Nat} {details : Details} {life life' : Life}
    (hget : s.peers[p]? = some ⟨details, life⟩) :
    State.Gone { s with peers := s.peers.set p ⟨details, life'⟩ } q ↔
      (q = p ∧ (life' = .delUser ∨ life' = .deleted)) ∨ (q ≠ p ∧ s.Gone q) := by
  obtain ⟨hlt, -⟩ := List.getElem?_eq_some_iff.mp hget
  by_cases hqp : q = p
  · subst hqp
    simp [State.Gone, hlt]
  · simp [State.Gone, hqp, Ne.symm hqp]

/-- A peer that is gone, or not, stays so. -/
theorem gone_set_same {p : Nat} {details : Details} {life life' : Life}
    (hget : s.peers[p]? = some ⟨details, life⟩)
    (hsame : life' = .delUser ∨ life' = .deleted ↔ life = .delUser ∨ life = .deleted) :
    State.Gone { s with peers := s.peers.set p ⟨details, life'⟩ } = s.Gone := by
  funext q
  rw [gone_set_life hget]
  by_cases hqp : q = p
  · subst hqp
    simp [State.Gone, hget, hsame]
  · simp [hqp]

/-- A peer that is not connected has no tasks that are not done. -/
theorem Kept.idle (h : Kept owner target s) {p : Nat} {details : Details} {life : Life}
    (hget : s.peers[p]? = some ⟨details, life⟩) (hlife : life ≠ .connected) :
    ∀ task ∈ s.tasks, task.request.peer = p → task.control = .done := by
  intro task hmem hsame
  obtain ⟨i, hi⟩ := List.mem_iff_getElem?.mp hmem
  by_contra hdone
  obtain ⟨other, hother⟩ := (h.tasks i task hi).connected hdone
  rw [hsame, hget] at hother
  obtain ⟨-, rfl⟩ := Peer.mk.inj (Option.some.inj hother)
  exact hlife rfl

/-- A peer whose tasks are done is not writing. -/
theorem not_writing_of_idle {p : Nat}
    (hidle : ∀ task ∈ s.tasks, task.request.peer = p → task.control = .done) : ¬ s.Writing p := by
  rintro ⟨i, task, hget, hsame, hwriting⟩
  obtain ⟨own, hown⟩ := Option.ne_none_iff_exists'.mp hwriting
  exact not_done_of_writing hown (hidle task (List.mem_of_getElem? hget) hsame)

/-- A peer that is away is writing. -/
theorem State.Away.writing {p : Nat} (h : s.Away p) : s.Writing p := by
  obtain ⟨i, task, hget, hsame, haway⟩ := h
  obtain ⟨own, hown⟩ := writing_of_away haway
  exact ⟨i, task, hget, hsame, by simp [hown]⟩

/-- The destructor of a peer. -/
theorem Kept.quit (h : Kept owner target s) (p : Nat) : Kept owner target (s.quit p) := by
  unfold State.quit
  split
  · rename_i details hget
    split
    · exact h
    · rename_i hreferred
      refine h.live hget ?_ ?_ fun _ _ hname => hname
      · intro task hmem hsame
        by_contra hdone
        exact hreferred ⟨task, hmem, hsame, hdone⟩
      · rw [gone_set_same hget (by decide)]
        exact h.filed
  · exact h

/-- A command of `Perform_DeleteUser`. -/
theorem Kept.delete (h : Kept owner target s) (p : Nat) : Kept owner target (s.delete p) := by
  unfold State.delete
  split
  · rename_i details hget
    have hidle := h.idle hget (by decide)
    have hbusy := not_writing_of_idle hidle
    have htarget : target p = nickKey details.nick := (h.peers p _ hget).2 hbusy
    have hgone : ¬ s.Gone p := by
      rintro ⟨peer, hpeer, hlife⟩
      rw [hget] at hpeer
      rw [← Option.some.inj hpeer] at hlife
      simp at hlife
    refine h.live hget hidle ?_ ?_
    · show Filed _ (Function.update s.usernick (nickKey details.nick) none) _ _ _ _
      rw [← htarget]
      refine h.filed.withdraw (fun q => ?_) fun id hname hshared => ?_
      · rw [gone_set_life hget]
        by_cases hqp : q = p
        · simp [hqp]
        · simp [hqp]
      · exact h.filed.owner_of_target hgone (fun haway => hbusy haway.writing) hshared hname
    · intro key id hname
      by_cases hkey : key = nickKey details.nick
      · simp [State.delNick, hkey] at hname
      · simpa [State.delNick, hkey] using hname
  · rename_i details hget
    refine h.live hget (h.idle hget (by decide)) ?_ fun _ _ hname => hname
    rw [gone_set_same hget (by decide)]
    exact h.filed
  · exact h

/-- The callback sets the id to that of the response or leaves it. -/
theorem on_success_id (callback : Callback) (response details : Details) :
    (callback.onSuccess response details).id = details.id ∨
      (callback.onSuccess response details).id = response.id := by
  cases callback <;> simp [Callback.onSuccess]

theorem on_success_nick {callback : Callback} (h : callback.TellsNick)
    (response details : Details) : (callback.onSuccess response details).nick = response.nick := by
  rcases h with rfl | rfl <;> rfl

theorem on_success_other_nick {callback : Callback} (h : ¬ callback.TellsNick)
    (response details : Details) : (callback.onSuccess response details).nick = details.nick := by
  cases callback <;> simp [Callback.onSuccess, Callback.TellsNick] at h ⊢

/-- A task that is not writing calls back, and the nick of its peer stays. -/
theorem Kept.close_same (h : Kept owner target s) (hget : s.tasks[i]? = some task)
    {details details' : Details}
    (hpeer : s.peers[task.request.peer]? = some ⟨details, .connected⟩)
    (hnone : task.writing? = none)
    (hid : details'.id = details.id ∨ s.Issued owner task.request.peer details'.id)
    (hkey : nickKey details'.nick = nickKey details.nick) :
    Kept owner target
      { s.setDetails task.request.peer details' with
        tasks := s.tasks.set i ⟨task.request, .done⟩ } := by
  refine h.close hget hpeer ?_ hid (.inl hkey) fun hothers => ?_
  · by_contra haway
    obtain ⟨own, hown⟩ := writing_of_away (by simpa using haway)
    rw [hnone] at hown
    cases hown
  · rw [hkey]
    refine (h.peers _ _ hpeer).2 ?_
    rintro ⟨j, other, hother, hsame, hwriting⟩
    by_cases hj : j = i
    · subst hj
      obtain rfl : task = other := Option.some.inj (hget.symm.trans hother)
      exact hwriting hnone
    · exact hwriting (hothers j other hother hj hsame)

/-- A task that is writing calls back. -/
theorem Kept.close_writing (h : Kept owner target s) (hget : s.tasks[i]? = some task)
    {details response : Details} {own : Locals}
    (hpeer : s.peers[task.request.peer]? = some ⟨details, .connected⟩)
    (hcontrol : task.control = .succeed own response true) :
    Kept owner target
      { s.setDetails task.request.peer (task.request.callback.onSuccess response details) with
        tasks := s.tasks.set i ⟨task.request, .done⟩ } := by
  have hfits := h.tasks i task hget
  have hwriting : own ∈ task.writing? := by simp [Task.writing?, hcontrol]
  have hissued := hfits.issued own.id (by simp [hcontrol, Control.id?])
  have htarget := hfits.target own hwriting
  obtain rfl : response = ⟨own.id, task.request.summary.nick⟩ := by
    simpa [Task.Answers, hcontrol] using hfits.answers
  have hid := on_success_id task.request.callback ⟨own.id, task.request.summary.nick⟩ details
  have haway : task.isAway = false := by simp [Task.isAway, hcontrol]
  refine h.close hget hpeer haway (hid.imp_right fun hsame => ?_) ?_ ?_
  · rw [hsame]
    exact hissued
  · by_cases hkeeps : task.request.KeepsKey own
    · left
      by_cases htells : task.request.callback.TellsNick
      · rw [on_success_nick htells]
        exact (hfits.keeps own hwriting hkeeps _ hpeer).symm
      · rw [on_success_other_nick htells]
    · exact .inr (hfits.alone own hwriting hkeeps).2
  · intro _
    by_cases htells : task.request.callback.TellsNick
    · rw [on_success_nick htells, htarget]
    · have hkeeps : task.request.KeepsKey own := by
        by_contra hkeeps
        exact htells (hfits.alone own hwriting hkeeps).1
      rw [on_success_other_nick htells, htarget]
      exact (hfits.keeps own hwriting hkeeps _ hpeer).symm

/-- A step of a task. -/
theorem Kept.execute (h : Kept owner target s) (i : Nat) (hmeets : s.Meets (.execute i)) :
    ∃ owner target, Kept owner target (s.execute i) := by
  unfold State.execute
  split
  · exact ⟨owner, target, h⟩
  split
  · exact ⟨owner, target, h⟩
  rename_i _ task hget _ peer hpeer
  have hfits := h.tasks i task hget
  replace hmeets := hmeets task hget peer hpeer
  obtain ⟨request, control⟩ := task
  have hnoId : ∀ id ∈ (none : Option Int), s.Issued owner request.peer id := by
    intro id hid
    cases hid
  have hissued : ∀ {own : Locals}, s.Issued owner request.peer own.id →
      ∀ id ∈ some own.id, s.Issued owner request.peer id := by
    rintro own hissued id hid
    obtain rfl : own.id = id := by simpa using hid
    exact hissued
  by_cases hdone : control = .done
  · subst hdone
    refine ⟨owner, target, ?_⟩
    obtain ⟨hlt, hsame⟩ := List.getElem?_eq_some_iff.mp hget
    have htasks : s.tasks.set i ⟨request, .done⟩ = s.tasks := by
      rw [← hsame, List.set_getElem_self]
    show Kept owner target { s with tasks := s.tasks.set i ⟨request, .done⟩ }
    rw [htasks]
    exact h
  obtain ⟨details, hdetails⟩ := hfits.connected hdone
  obtain rfl : peer = ⟨details, .connected⟩ := Option.some.inj (hpeer.symm.trans hdetails)
  cases control with
  | readNick => exact ⟨owner, target, h.quiet hget hdone hnoId trivial rfl rfl⟩
  | readDetails originalNick =>
      refine ⟨owner, target, ?_⟩
      dsimp only [State.perform]
      split
      · rename_i hid
        have hpeerId := (h.peers _ _ hpeer).1.resolve_left hid
        exact h.quiet hget hdone (@hissued ⟨originalNick, details, details.id⟩ hpeerId) trivial
          rfl rfl
      · exact h.quiet hget hdone hnoId trivial rfl rfl
  | incr originalNick userDetails =>
      -- below `2 ^ 31` the conversion to `int` does not change the id
      have hcounter := h.counter
      have hid : int32 (s.peerchatId + 1) = s.peerchatId + 1 := int32_eq_self (by omega) hmeets
      dsimp only [State.perform]
      rw [hid]
      refine ⟨_, target, (h.issue request.peer).quiet hget hdone ?_ trivial rfl rfl⟩
      rintro id hid
      obtain rfl : s.peerchatId + 1 = id := by simpa [Control.id?] using hid
      refine ⟨by omega, le_rfl, ?_⟩
      rw [Function.update_self]
  | exist own =>
      have hown := hfits.issued own.id rfl
      refine ⟨owner, target, ?_⟩
      dsimp only [State.perform]
      split
      · exact h.quiet hget hdone hnoId trivial rfl rfl
      split
      · exact h.quiet hget hdone (hissued hown) trivial rfl rfl
      · rename_i hupdate
        -- without `nick_update` the nick is the one that the task has read
        have hkept : own.userDetails.nick = request.summary.nick := by
          by_contra hne
          exact hupdate (.inr fun hsame => hne hsame.symm)
        exact h.quiet hget hdone (hissued hown) hkept rfl rfl
  | delOriginal own =>
      exact ⟨owner, _, h.open hget hpeer rfl (hfits.issued own.id rfl) rfl trivial rfl rfl hmeets⟩
  | hsetNick own =>
      have hown := hfits.issued own.id rfl
      exact ⟨owner, target, h.quiet hget hdone (hissued hown) trivial rfl rfl⟩
  | setUpdated own => exact ⟨owner, target, h.set hget hpeer rfl rfl rfl rfl rfl hmeets⟩
  | applyKeys own =>
      have hown := hfits.issued own.id rfl
      have hkept : own.userDetails.nick = request.summary.nick := hfits.answers
      refine ⟨owner, target, ?_⟩
      dsimp only [State.perform]
      split
      · exact h.quiet hget hdone (hissued hown) hkept rfl rfl
      · refine h.quiet hget hdone (hissued hown) ?_ rfl rfl
        show _ = _
        rw [hkept]
  | delKept own =>
      have hkept : own.userDetails.nick = request.summary.nick := hfits.answers
      exact ⟨owner, _, h.open hget hpeer rfl (hfits.issued own.id rfl) rfl hkept rfl rfl hmeets⟩
  | setKept own =>
      have hkept : own.userDetails.nick = request.summary.nick := hfits.answers
      refine ⟨owner, target, h.set hget hpeer rfl rfl rfl ?_ rfl hmeets⟩
      show _ = _
      rw [hkept]
  | existsNick =>
      refine ⟨owner, target, ?_⟩
      dsimp only [State.perform]
      split
      · exact h.quiet hget hdone hnoId trivial rfl rfl
      · exact h.quiet hget hdone hnoId trivial rfl rfl
  | getNick =>
      refine ⟨owner, target, ?_⟩
      dsimp only [State.perform]
      split
      · exact h.quiet hget hdone hnoId trivial rfl rfl
      · exact h.quiet hget hdone hnoId trivial rfl rfl
  | existsUser userId =>
      refine ⟨owner, target, ?_⟩
      dsimp only [State.perform]
      split
      · exact h.quiet hget hdone hnoId trivial rfl rfl
      · exact h.quiet hget hdone hnoId trivial rfl rfl
  | hmgetUser userId => exact ⟨owner, target, h.quiet hget hdone hnoId trivial rfl rfl⟩
  | succeed own response updated =>
      refine ⟨owner, target, ?_⟩
      cases updated with
      | true => exact h.close_writing hget hpeer rfl
      | false =>
          have hown := hfits.issued own.id rfl
          have hanswers : response = ⟨own.id, request.summary.nick⟩ := hfits.answers
          have hid := on_success_id request.callback response details
          refine h.close_same hget hpeer rfl (hid.imp_right fun hsame => ?_) hmeets
          rw [hsame, hanswers]
          exact hown
  | fail response => exact ⟨owner, target, h.close_same hget hpeer rfl (.inl hmeets.1) hmeets.2⟩
  | done => exact absurd rfl hdone

/-- An empty database. -/
theorem Kept.init : Kept owner (fun _ => []) .init where
  filed := {
    named := fun _ _ hname => by cases hname
    found := fun _ _ _ hshared => absurd rfl hshared }
  filedIds _ _ hname := by cases hname
  counter := le_rfl
  unborn _ _ := rfl
  peers p peer hpeer := by simp [State.init] at hpeer
  tasks i task htask := by simp [State.init] at htask

/-- A request of a peer. -/
theorem Kept.request (h : Kept owner target s) (p : Nat) (nick : Option Bytes)
    (callback : Callback) : Kept owner target (s.addTaskRequest p nick callback) := by
  unfold State.addTaskRequest
  split
  · rename_i details hpeer
    exact @Kept.add _ _ _ h ⟨p, { details with nick := nick.getD details.nick }, callback⟩ _ hpeer
  · exact h

/-- An event that finds what it must. -/
theorem Kept.step (h : Kept owner target s) (event : Event) (hmeets : s.Meets event) :
    ∃ owner target, Kept owner target (s.step event) := by
  cases event with
  | connect =>
      have hpeer : (s.peers ++ [⟨⟨0, []⟩, .connected⟩])[s.peers.length]? =
          some (⟨⟨0, []⟩, .connected⟩ : Peer) := by simp
      exact ⟨owner, target, @Kept.add _ _ _ h.born ⟨s.peers.length, ⟨0, []⟩, .onGetBackendId⟩ _
        hpeer⟩
  | nick p uniquenick param =>
      refine ⟨owner, target, ?_⟩
      simp only [State.step]
      split
      · exact h.request p _ _
      · exact h
  | acquire p uniquenick => exact ⟨owner, target, h.request p _ _⟩
  | refresh p userRegistration => exact ⟨owner, target, h.request p _ _⟩
  | quit p => exact ⟨owner, target, h.quit p⟩
  | execute i => exact h.execute i hmeets
  | delete p => exact ⟨owner, target, h.delete p⟩

/-- When all tasks have finished, the peers go by the nicks that they were told. -/
theorem Kept.owned (h : Kept owner target s) (hfinished : s.Finished) : NicksOwned s := by
  obtain ⟨htasks, -⟩ := hfinished
  refine ⟨fun id key other => h.filed.one_name, ?_, ?_⟩
  · intro peer hmem hlife key hname
    obtain ⟨p, hpeer⟩ := List.mem_iff_getElem?.mp hmem
    have hpos := (h.filedIds key _ hname).1
    rcases (h.peers p peer hpeer).1 with hzero | hissued
    · omega
    -- the id has been issued to the peer that is deleted, and to no other
    · have hgone : s.Gone (owner peer.details.id) := by
        rw [hissued.2.2]
        exact ⟨peer, hpeer, .inr hlife⟩
      exact h.filed.not_named_of_gone hgone key hname
  · have hconnected : ∀ (p : Nat) (peer : Peer), s.peers[p]? = some peer →
        peer.life = .connected →
          ¬ s.Gone p ∧ ¬ s.Away p ∧ target p = nickKey peer.details.nick := by
      intro p peer hpeer hlife
      -- no task is between its `DEL` and its callback any more
      have hbusy : ¬ s.Writing p := not_writing_of_idle fun task hmem _ => htasks task hmem
      refine ⟨?_, fun haway => hbusy haway.writing, (h.peers p peer hpeer).2 hbusy⟩
      obtain ⟨details, life⟩ := peer
      obtain rfl : life = .connected := hlife
      exact not_gone_of_connected hpeer
    intro p q peer other hpeer hother hlife hlifeOther hsame hne
    obtain ⟨hgone, haway, htarget⟩ := hconnected p peer hpeer hlife
    obtain ⟨hgoneOther, hawayOther, htargetOther⟩ := hconnected q other hother hlifeOther
    refine h.filed.one_holder hgone haway hgoneOther hawayOther ?_ ?_
    · rw [htarget, htargetOther, hsame]
    · rw [htarget]
      exact hne

end Invariant

/-- In a run whose events find what they must, the nicks are owned in every state in which all
tasks have finished. -/
theorem nicks_owned_of_meets (run : List Event) (h : AtEach State.step .init State.Meets run) :
    ∀ before, before <+: run → (serve before).Finished → NicksOwned (serve before) := by
  intro before hbefore hfinished
  obtain ⟨owner, target, hkept⟩ := @invariant_of_at_each _ _ State.step .init before
    (fun s => ∃ owner target, Kept owner target s) State.Meets ⟨fun _ => 0, _, Kept.init⟩
    (fun s event ⟨_, _, hkept⟩ hmeets => hkept.step event hmeets) (h.of_prefix hbefore)
  exact hkept.owned hfinished

/-- A peer registers, changes its nick and quits, and another takes the nick that it had first. -/
def nickHandedOn : List Event :=
  List.flatten [[.connect], steps 0 8, [.connect], steps 1 8,
    [.nick 0 [] (ascii "alice")], steps 2 7, [.nick 0 [] (ascii "bob")], steps 3 7,
    [.nick 1 [] (ascii "alice")], steps 4 7, [.quit 0, .delete 0, .delete 0]]

/-- All this is so when the nick is handed on. -/
theorem nick_handed_on_owned : (serve nickHandedOn).Finished ∧ NicksOwned (serve nickHandedOn) := by
  have hfinished : (serve nickHandedOn).Finished := by decide +kernel
  exact ⟨hfinished, nicks_owned_of_meets nickHandedOn (at_every_iff.mpr (by decide +kernel))
    nickHandedOn List.prefix_rfl hfinished⟩

end OpenSpy.Peerchat.NickTasks
