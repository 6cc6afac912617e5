import OpenSpy.Peerchat.ChannelTasks

/-!
# The channel of a name

Users join and part the channel of one name, and the commands of their tasks come in any order.
A JOIN looks up the channel and then adds its user, a PART counts the members and then deletes
the name, and nothing keeps others from changing the name in between. `members_lead_iff` says
which commands come too late: a JOIN that adds its user to a channel that the name does not lead
to any more, and a name that is set or deleted while it leads to a channel with members.
-/

namespace OpenSpy.Peerchat.ChannelNames

open Bytes Commands Redis ChannelTasks

/-- The key of the name of a channel, behind `channelname_`. -/
def channelKey (name : Bytes) : Bytes :=
  cString (name.map toLower)

/-- A JOIN or a PART of a user. -/
inductive ChannelTask where
  | join (env : Environment) (peer : ChatPeer) (request : JoinRequest)
  | part (env : Environment) (peer : ChatPeer) (channelName : Bytes)

/-- The name of the channel that a task is for. -/
def ChannelTask.channelName : ChannelTask → Bytes
  | join _ _ request => request.channelName
  | part _ _ channelName => channelName

/-- The program of a task. -/
def ChannelTask.program : ChannelTask → ChatProg ResponseCode
  | join env peer request => ChannelTasks.performUserJoinChannel env peer request
  | part env peer channelName => ChannelTasks.performUserPartChannel env peer channelName

/-- The tasks for one channel name. -/
abbrev TaskOn (key : Bytes) :=
  { task : ChannelTask // channelKey task.channelName = key }

/-- The database, and tasks for one channel name. -/
abbrev ChatSystem (key : Bytes) := System ChannelStore (TaskOn key) Cmd.Reply ResponseCode

/-- Tasks for one channel name that arrive and go on in some order. -/
abbrev tasks {key : Bytes} (start : ChannelStore) (run : List (Move (TaskOn key))) :
    ChatSystem key :=
  moves exec (fun task => task.val.program) start run

/-- The name leads to every channel that has members. -/
def Leads (key : Bytes) (store : ChannelStore) : Prop :=
  ∀ channelId, store.channelUsers channelId ≠ [] → store.channelname key = some channelId

/-- A command does not come too late: a user is added to the channel that the name leads to, and
the name is set or deleted while the channel that it leads to, if there is another, has no
members. -/
def InTime (key : Bytes) (store : ChannelStore) : Cmd → Prop
  | .zincrbyUser channelId _ => store.channelname key = some channelId
  | .set name channelId =>
      name = key → ∀ other, store.channelname key = some other → other ≠ channelId →
        store.channelUsers other = []
  | .delName name =>
      name = key → ∀ other, store.channelname key = some other → store.channelUsers other = []
  | _ => True

/-- No command of a run comes too late. -/
def RunInTime {key : Bytes} (start : ChannelStore) (run : List (Move (TaskOn key))) : Prop :=
  EachCommand exec (fun task => task.val.program) start (InTime key) run

/-- A JOIN of the user has come to its end with success. -/
def Joined {key : Bytes} (sys : ChatSystem key) (userId : Int) : Prop :=
  ∃ client ∈ sys.clients, client.rest = .done .success ∧
    ∃ env peer request, client.input.val = .join env peer request ∧ peer.details.id = userId

/-- No task has taken the user out of a channel. -/
def Stayed {key : Bytes} (sys : ChatSystem key) (userId : Int) : Prop :=
  ∀ channelId, ¬ sys.Issued (.zremUser channelId userId)

section Step

variable {key : Bytes} {store : ChannelStore}

/-- A command that changes neither the name nor the members. -/
theorem leads_of_same {after : ChannelStore} (hname : after.channelname = store.channelname)
    (husers : after.channelUsers = store.channelUsers) : Leads key after ↔ Leads key store := by
  unfold Leads
  rw [hname, husers]

/-- A command keeps the name leading to the members exactly if it does not come too late. -/
theorem leads_exec (h : Leads key store) (cmd : Cmd) :
    Leads key (exec cmd store).2 ↔ InTime key store cmd := by
  have hsame : ∀ after : ChannelStore, after.channelname = store.channelname →
      after.channelUsers = store.channelUsers → (Leads key after ↔ True) :=
    fun after hname husers => iff_true_intro ((leads_of_same hname husers).mpr h)
  cases cmd with
  | zincrbyUser channelId userId =>
      constructor
      · intro hafter
        refine hafter channelId ?_
        have hmem : userId ∈ zadd (store.channelUsers channelId) userId := mem_zadd.mpr (.inr rfl)
        simpa [exec] using List.ne_nil_of_mem hmem
      · intro hname other hmembers
        by_cases hother : other = channelId
        · rw [hother]
          exact hname
        · exact h other (by simpa [exec, hother] using hmembers)
  | zremUser channelId userId =>
      refine iff_of_true (fun other hmembers => h other fun hempty => hmembers ?_) trivial
      by_cases hother : other = channelId
      · subst hother
        simp [exec, hempty, zrem]
      · simp [exec, hother, hempty]
  | set name channelId =>
      by_cases hname : name = key
      · subst hname
        -- the name leads to `channelId` now, so no other channel may have members
        have hafter : Leads name (exec (.set name channelId) store).2 ↔
            ∀ other, store.channelUsers other ≠ [] → other = channelId := by
          simp only [Leads, exec, Function.update_self, Option.some.injEq, ne_eq]
          exact forall₂_congr fun _ _ => eq_comm
        rw [hafter]
        constructor
        · intro hall _ other _ hne
          by_contra hmembers
          exact hne (hall other hmembers)
        · intro hin other hmembers
          by_contra hne
          exact hmembers (hin rfl other (h other hmembers) hne)
      · refine iff_of_true (fun other hmembers => ?_) fun heq => absurd heq hname
        simpa [exec, Ne.symm hname] using h other hmembers
  | delName name =>
      by_cases hname : name = key
      · subst hname
        -- the name leads nowhere now
        have hafter : Leads name (exec (.delName name) store).2 ↔
            ∀ other, store.channelUsers other = [] := by
          simp [Leads, exec]
        rw [hafter]
        constructor
        · exact fun hall _ other _ => hall other
        · intro hin other
          by_contra hmembers
          exact hmembers (hin rfl other (h other hmembers))
      · refine iff_of_true (fun other hmembers => ?_) fun heq => absurd heq hname
        simpa [exec, Ne.symm hname] using h other hmembers
  | get | existsChannel | incr | hmsetChannel | applyChanProps | writeUsermodes
  | associateUsermodes | hmgetChannel | hmgetUser | hgetFlags | scanUsers | scanUserChannels
  | scanUsermodes | zaddChannel | hmsetFlags | zremChannel | delFlags | delUsermodes =>
      exact hsame _ rfl rfl

end Step

section Run

variable {key : Bytes} {start : ChannelStore} {run : List (Move (TaskOn key))}

/-- The name leads to the members in every state that is reached exactly if no command comes too
late. -/
theorem leads_iff (hstart : Leads key start) :
    (∀ before, before <+: run → Leads key (tasks start before).store) ↔ RunInTime start run :=
  holds_throughout_iff hstart fun _ cmd h => leads_exec h cmd

/-- A member stays one unless a command takes him out. -/
theorem member_kept {store : ChannelStore} {channelId : BitVec 32} {userId : Int}
    (h : userId ∈ store.channelUsers channelId) {cmd : Cmd}
    (hcmd : ∀ other, cmd ≠ .zremUser other userId) :
    userId ∈ (exec cmd store).2.channelUsers channelId := by
  cases cmd with
  | zincrbyUser other added =>
      by_cases hother : channelId = other
      · subst hother
        simp [exec, h]
      · simpa [exec, hother] using h
  | zremUser other removed =>
      by_cases hother : channelId = other
      · subst hother
        have hne : userId ≠ removed := fun heq => hcmd channelId (by rw [heq])
        simp [exec, h, hne]
      · simpa [exec, hother] using h
  | get | existsChannel | incr | hmsetChannel | set | applyChanProps | writeUsermodes
  | associateUsermodes | hmgetChannel | hmgetUser | hgetFlags | scanUsers | scanUserChannels
  | scanUsermodes | zaddChannel | hmsetFlags | zremChannel | delFlags | delName | delUsermodes =>
      exact h

/-- A user whom a JOIN has added is a member until a task takes him out. -/
theorem added_stays {channelId : BitVec 32} {userId : Int}
    (hadded : (tasks start run).Issued (.zincrbyUser channelId userId))
    (hstayed : Stayed (tasks start run) userId) :
    userId ∈ (tasks start run).store.channelUsers channelId := by
  induction run using List.reverseRecOn with
  | nil =>
      obtain ⟨client, hclient, -⟩ := hadded
      cases hclient
  | append_singleton run next ih =>
      rw [tasks, moves_append] at hadded hstayed ⊢
      have hbefore : Stayed (tasks start run) userId :=
        fun other hissued => hstayed other (issued_move.mpr (.inl hissued))
      cases hcall : (tasks start run).nextCall next with
      | none =>
          rw [move_store_of_no_call hcall]
          refine ih ?_ hbefore
          simpa [issued_move, hcall] using hadded
      | some call =>
          obtain ⟨client, cmd⟩ := call
          rw [move_store hcall]
          -- the user was added before this command, or by it
          rcases issued_move.mp hadded with hissued | ⟨_, hnow⟩
          · refine member_kept (ih hissued hbefore) fun other heq => hstayed other ?_
            exact issued_move.mpr (.inr ⟨client, heq ▸ hcall⟩)
          · obtain ⟨-, rfl⟩ : _ ∧ cmd = .zincrbyUser channelId userId := by
              simpa using hcall.symm.trans hnow
            simp [exec]

/-- A user who is let in has been added to the channel. -/
theorem admit_adds (env : Environment) (peer : ChatPeer) (request : JoinRequest)
    (channel : ChannelSummary) (flags : BitVec 32) (past : Past Cmd.Reply) :
    Along (fun _ _ => True) past (admitUser env peer request channel flags)
      fun past result => result = .success →
        ∃ channelId, ⟨.zincrbyUser channelId peer.details.id, ()⟩ ∈ past := by
  refine Along.bind (along_true _) fun past usermode _ => ?_
  refine Along.bind (along_true _) fun past allowed _ => ?_
  refine along_ite.mpr ⟨fun _ => ?_, fun _ hresult => ?_⟩
  · refine ⟨trivial, fun _ => ⟨trivial, fun _ => ⟨trivial, fun _ _ => ?_⟩⟩⟩
    exact ⟨channel.channelId, by simp⟩
  · cases hresult

/-- So has the user of a JOIN with success. -/
theorem join_adds (env : Environment) (peer : ChatPeer) (request : JoinRequest) :
    Along (fun _ _ => True) [] (ChannelTasks.performUserJoinChannel env peer request)
      fun past result => result = .success →
        ∃ channelId, ⟨.zincrbyUser channelId peer.details.id, ()⟩ ∈ past := by
  refine Along.bind (along_true _) fun past found _ => ?_
  obtain ⟨channel, created⟩ := found
  refine Along.bind (along_true _) fun past flags _ => ?_
  refine along_ite.mpr ⟨fun _ hresult => ?_, fun _ => ?_⟩
  · cases hresult
  · refine along_ite.mpr ⟨fun _ => ?_, fun _ => admit_adds env peer request channel flags past⟩
    exact Along.bind (along_true _) fun past _ _ => admit_adds env peer request channel flags past

/-- What a JOIN with success has done, for the programs of both tasks. -/
def AddsUser : ChannelTask → Past Cmd.Reply → ResponseCode → Prop
  | .join _ peer _, past, result =>
      result = .success → ∃ channelId, ⟨.zincrbyUser channelId peer.details.id, ()⟩ ∈ past
  | .part _ _ _, _, _ => True

theorem program_adds (task : TaskOn key) :
    Along (fun _ _ => True) [] task.val.program (AddsUser task.val) := by
  obtain ⟨task, hkey⟩ := task
  cases task with
  | join env peer request => exact join_adds env peer request
  | part env peer channelName => exact along_true _

/-- A user who has joined and stayed is a member of a channel. -/
theorem joined_member {userId : Int} (hjoined : Joined (tasks start run) userId)
    (hstayed : Stayed (tasks start run) userId) :
    ∃ channelId, userId ∈ (tasks start run).store.channelUsers channelId := by
  obtain ⟨client, hclient, hdone, env, peer, request, hinput, rfl⟩ := hjoined
  have halong := clients_along program_adds start run client hclient
  rw [hdone, hinput] at halong
  obtain ⟨channelId, hpast⟩ := halong rfl
  exact ⟨channelId, added_stays ⟨client, hclient, _, hpast⟩ hstayed⟩

/-- The tasks of one channel name, on a database where the name leads to every channel that has
members: it does so in every state that they reach if and only if no command comes too late. In
such a run all users who joined and stayed are members of the channel that the name leads to. -/
theorem members_lead_iff (key : Bytes) (start : ChannelStore) (hstart : Leads key start)
    (run : List (Move (TaskOn key))) :
    ((∀ before, before <+: run → Leads key (tasks start before).store) ↔ RunInTime start run) ∧
      (RunInTime start run →
        ∃ channelId, ∀ userId, Joined (tasks start run) userId → Stayed (tasks start run) userId →
          userId ∈ (tasks start run).store.channelUsers channelId ∧
            (tasks start run).store.channelname key = some channelId) := by
  refine ⟨leads_iff hstart, fun hrun => ?_⟩
  have hleads := (leads_iff hstart).mpr hrun run List.prefix_rfl
  have hmember : ∀ userId, Joined (tasks start run) userId → Stayed (tasks start run) userId →
      ∃ channelId, userId ∈ (tasks start run).store.channelUsers channelId ∧
        (tasks start run).store.channelname key = some channelId := by
    intro userId hjoined hstayed
    obtain ⟨channelId, hmem⟩ := joined_member hjoined hstayed
    exact ⟨channelId, hmem, hleads channelId (List.ne_nil_of_mem hmem)⟩
  refine ⟨((tasks start run).store.channelname key).getD 0, fun userId hjoined hstayed => ?_⟩
  obtain ⟨channelId, hmem, hname⟩ := hmember userId hjoined hstayed
  rw [hname]
  exact ⟨hmem, rfl⟩

end Run

/-- A JOIN of the channel `#a` by a user. -/
def joinTask (peer : ChatPeer) : TaskOn (ascii "#a") :=
  ⟨.join quietEnvironment peer ⟨ascii "#a", [], 0⟩, by
    have hkey : channelKey (ascii "#a") = ascii "#a" := by decide
    exact hkey⟩

/-- Without channels the name leads to all that have members. -/
theorem two_users_lead : Leads (ascii "#a") twoUsers :=
  fun _ hmembers => absurd rfl hmembers

/-- One user joins, and nobody else. -/
def oneJoin : List (Move (TaskOn (ascii "#a"))) :=
  .arrive (joinTask (chatPeer 1 (ascii "alice") 0)) :: List.replicate 14 (.execute 0)

/-- A user who joins alone is in the channel that the name leads to, if no command comes too
late. -/
theorem one_join_leads :
    ((∀ before, before <+: oneJoin → Leads (ascii "#a") (tasks twoUsers before).store) ↔
      RunInTime twoUsers oneJoin) ∧
      (RunInTime twoUsers oneJoin →
        ∃ channelId, ∀ userId, Joined (tasks twoUsers oneJoin) userId →
          Stayed (tasks twoUsers oneJoin) userId →
          userId ∈ (tasks twoUsers oneJoin).store.channelUsers channelId ∧
            (tasks twoUsers oneJoin).store.channelname (ascii "#a") = some channelId) :=
  members_lead_iff (ascii "#a") twoUsers two_users_lead oneJoin

/-- Two users join the channel, and both look the name up before one of them creates it. -/
def twoCreators : List (Move (TaskOn (ascii "#a"))) :=
  [.arrive (joinTask (chatPeer 1 (ascii "alice") 0)),
    .arrive (joinTask (chatPeer 2 (ascii "bob") 0)), .execute 0, .execute 1] ++
    List.replicate 13 (.execute 0) ++ List.replicate 13 (.execute 1)

/-- Then each is in a channel of his own. -/
theorem two_creators_split :
    ¬ ∀ (key : Bytes) (start : ChannelStore), Leads key start →
      ∀ run : List (Move (TaskOn key)), (tasks start run).Finished →
        Leads key (tasks start run).store := by
  intro h
  have hleads := h (ascii "#a") twoUsers two_users_lead twoCreators (by decide)
  have hmembers : (tasks twoUsers twoCreators).store.channelUsers 1 = [1] := by decide
  have hname : (tasks twoUsers twoCreators).store.channelname (ascii "#a") = some 2 := by decide
  have hone := hleads 1 (by rw [hmembers]; exact List.cons_ne_nil _ _)
  rw [hname] at hone
  exact absurd hone (by decide)

end OpenSpy.Peerchat.ChannelNames
