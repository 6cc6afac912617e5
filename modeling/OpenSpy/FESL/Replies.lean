import Mathlib.Data.List.Perm.Basic
import OpenSpy.FESL.Profiles
import OpenSpy.Library.Runs

/-!
# Replies to the profile commands

A FESL peer whose user has logged in takes commands while the search for the profiles and the
requests of earlier commands are with the backend. `replies_match_iff` says for which runs every
command is answered under its own `TXN` and `TID`. A persona that is added is answered as a sub
account, and before the profiles are there only one list of a kind is remembered, with one TID
for both kinds, which `GetSubAccounts` does not even set.
-/

namespace OpenSpy.FESL

open Bytes Runs

/-- The `TXN` and the `TID` of a packet. -/
def Packet.header (packet : Packet) : Bytes × Option Int :=
  (packet.txn, packet.tid)

/-- How a TID goes out. -/
def tidOption (tid : Int) : Option Int :=
  if tid ≠ -1 then some tid else none

/-- A command that a client sent, with its keys and values. -/
structure CommandRequest where
  command : Command
  kvList : List (Bytes × Bytes)
  deriving DecidableEq

namespace CommandRequest

variable (request : CommandRequest)

/-- The TID that the client gave, the number in the first pair of that name. -/
def tid : Option Int :=
  (request.kvList.lookup (ascii "TID")).map atoi

/-- The `TXN` and `TID` that an answer must have. -/
def asked : Bytes × Option Int :=
  (request.command.txn, request.tid)

/-- The command asks for a list of the profiles. -/
def IsList : Prop :=
  request.command = .getSubAccounts ∨ request.command = .nuGetPersonas

instance : Decidable request.IsList := by
  unfold IsList; infer_instance

/-- The command is not one that is answered as another one, and its TID is not the one that
stands for none. -/
def Plain : Prop :=
  request.command ≠ .nuAddPersona ∧ request.tid ≠ some (-1)

instance : Decidable request.Plain := by
  unfold Plain; infer_instance

/-- The `TXN` and `TID` under which the handler or its callback answers. -/
def given : Bytes × Option Int :=
  (if request.command = .nuAddPersona then Command.addSubAccount.txn else request.command.txn,
    tidOption (readTid request.kvList))

end CommandRequest

/-- A peer, whether its search is still with the backend, and the other requests that are. -/
structure Session where
  peer : Peer
  searching : Bool
  tasks : List ProfileRequest

/-- What can happen to a peer: a command arrives, the backend answers the search, or it answers
the `n`th of the other requests. -/
inductive SessionEvent where
  | request (request : CommandRequest)
  | searchReply (results : List Profile)
  | reply (n : Nat) (code : WebErrorCode) (results : List Profile)
  deriving DecidableEq

namespace Session

variable (s : Session)

/-- A command arrives. -/
def request (request : CommandRequest) : Session :=
  let (peer, requests) := s.peer.handle request.command request.kvList
  { s with peer := peer, tasks := s.tasks ++ requests }

/-- The backend answers the search. -/
def searchReply (results : List Profile) : Session :=
  if s.searching then { s with peer := s.peer.searchCallback results, searching := false } else s

/-- The backend answers a request. -/
def reply (n : Nat) (code : WebErrorCode) (results : List Profile) : Session :=
  match s.tasks[n]? with
  | some task => { s with peer := s.peer.callback task code results, tasks := s.tasks.eraseIdx n }
  | none => s

/-- What an event does. -/
def step : SessionEvent → Session
  | .request request => s.request request
  | .searchReply results => s.searchReply results
  | .reply n code results => s.reply n code results

/-- A user has logged in, and the search for its profiles is with the backend. -/
def start (userId : Int) (sessionKey : Bytes) (profile : Profile) : Session :=
  ⟨Peer.init userId sessionKey profile, true, []⟩

/-- All replies have arrived. -/
def Complete : Prop :=
  s.searching = false ∧ s.tasks = []

instance : Decidable s.Complete := by
  unfold Complete; infer_instance

end Session

/-- The commands of a run. -/
def requests (run : List SessionEvent) : List CommandRequest :=
  run.filterMap fun
    | .request request => some request
    | _ => none

/-- The event is not the answer to the search. -/
def beforeSearch : SessionEvent → Bool
  | .searchReply _ => false
  | _ => true

/-- The requests of one command. -/
def ofCommand (command : Command) (all : List CommandRequest) : List CommandRequest :=
  all.filter fun request => request.command = command

/-- The TIDs of the requests of one command. -/
def tidsOf (command : Command) (all : List CommandRequest) : List (Option Int) :=
  (ofCommand command all).map CommandRequest.tid

/-- Each kind of list is asked for once at most, and `GetSubAccounts` with the TID of
`NuGetPersonas` or, if that is not asked for, with none. -/
structure ListsAgree (all : List CommandRequest) : Prop where
  subAccounts : (tidsOf .getSubAccounts all).length ≤ 1
  personas : (tidsOf .nuGetPersonas all).length ≤ 1
  shared : ∀ tid ∈ tidsOf .getSubAccounts all, tid = (tidsOf .nuGetPersonas all).getLastD none

/-- Every command is plain, and the lists that are asked for before the profiles are there
agree. -/
structure RunMatches (run : List SessionEvent) : Prop where
  plain : ∀ request ∈ requests run, request.Plain
  lists : ListsAgree (requests (run.takeWhile beforeSearch))

/-- The commands are answered one by one, each under its own `TXN` and `TID`. -/
def Answered (s : Session) (run : List SessionEvent) : Prop :=
  (s.peer.sent.map Packet.header).Perm ((requests run).map CommandRequest.asked)

instance (s : Session) (run : List SessionEvent) : Decidable (Answered s run) := by
  unfold Answered; infer_instance

section Given

variable {request : CommandRequest}

/-- A TID is an `int`, and is taken as it was written. -/
theorem tid_of_decimal {tid : Int} (hlow : -2 ^ 31 ≤ tid) (hhigh : tid < 2 ^ 31)
    (h : request.kvList.lookup (ascii "TID") = some (printInt tid)) : request.tid = some tid := by
  rw [CommandRequest.tid, h, Option.map_some, atoi_print_int_self hlow hhigh]

/-- What the handlers read, with -1 for no TID. -/
theorem read_tid_eq (request : CommandRequest) :
    readTid request.kvList = request.tid.getD (-1) := by
  unfold readTid hasKey getValueInt CommandRequest.tid
  induction request.kvList with
  | nil => rfl
  | cons pair rest ih =>
      obtain ⟨key, value⟩ := pair
      by_cases hkey : key = ascii "TID"
      · simp [hkey]
      · have hne : (key == ascii "TID") = false := beq_false_of_ne hkey
        have hne' : (ascii "TID" == key) = false := beq_false_of_ne (Ne.symm hkey)
        rw [List.any_cons, List.find?_cons, List.lookup_cons, hne, hne', Bool.false_or]
        exact ih

theorem tid_option_ne (tid : Int) : tidOption tid ≠ some (-1) := by
  unfold tidOption
  split <;> simp_all

theorem txn_inj {command other : Command} (h : command.txn = other.txn) : command = other := by
  revert h
  cases command <;> cases other <;> decide

/-- No answer says that a persona was added. -/
theorem given_fst_ne (request : CommandRequest) :
    request.given.1 ≠ Command.nuAddPersona.txn := by
  intro h
  unfold CommandRequest.given at h
  by_cases hcommand : request.command = .nuAddPersona
  · rw [if_pos hcommand] at h
    have hadd : Command.addSubAccount = Command.nuAddPersona := txn_inj h
    exact nomatch hadd
  · rw [if_neg hcommand] at h
    exact hcommand (txn_inj h)

theorem given_snd_ne (request : CommandRequest) : request.given.2 ≠ some (-1) :=
  tid_option_ne _

/-- A TID that does not stand for none goes out as it came. -/
theorem tid_option_read_tid (h : request.tid ≠ some (-1)) :
    tidOption (readTid request.kvList) = request.tid := by
  rw [read_tid_eq]
  cases htid : request.tid with
  | none => rfl
  | some tid => exact if_pos fun heq => h (htid.trans (congrArg some heq))

theorem given_eq_asked (h : request.Plain) : request.given = request.asked := by
  unfold CommandRequest.given CommandRequest.asked
  rw [if_neg h.1, tid_option_read_tid h.2]

/-- A command that is not plain is asked for under a `TXN` and `TID` that nobody answers. -/
theorem plain_of_asked {header : Bytes × Option Int} (htxn : header.1 ≠ Command.nuAddPersona.txn)
    (htid : header.2 ≠ some (-1)) (h : request.asked = header) : request.Plain := by
  subst h
  exact ⟨fun hcommand => htxn (congrArg Command.txn hcommand), htid⟩

end Given

namespace Peer

variable {peer : Peer}

/-- What a peer has answered. -/
def answered (peer : Peer) : List (Bytes × Option Int) :=
  peer.sent.map Packet.header

/-- Whether the profiles are there, and which lists wait for them. -/
def flags (peer : Peer) : Bool × Bool × Bool :=
  (peer.gotProfiles, peer.pendingSubaccounts, peer.pendingNugetPersonas)

/-- One packet goes out, and lists are answered as before. -/
structure Answers (peer peer' : Peer) (header : Bytes × Option Int) : Prop where
  answered : peer'.answered = peer.answered ++ [header]
  flags : peer'.flags = peer.flags
  last : peer'.lastProfileLookupTid = peer.lastProfileLookupTid

section Answers

variable {txn body : Bytes} {tid : Int} {code : WebErrorCode} {results : List Profile}

theorem send_packet_answers :
    peer.Answers (peer.sendPacket txn tid body) (txn, tidOption tid) where
  answered := by simp [answered, sendPacket, Packet.header, tidOption]
  flags := rfl
  last := rfl

theorem handle_web_error_answers :
    peer.Answers (peer.handleWebError code txn tid) (txn, tidOption tid) := by
  unfold handleWebError
  split <;> exact send_packet_answers

/-- Writes to other members before the packet goes out do not show. -/
theorem Answers.of_same {peer₁ peer' : Peer} {header : Bytes × Option Int}
    (h : peer₁.Answers peer' header) (hsent : peer₁.sent = peer.sent)
    (hflags : peer₁.flags = peer.flags)
    (hlast : peer₁.lastProfileLookupTid = peer.lastProfileLookupTid) :
    peer.Answers peer' header where
  answered := by rw [h.answered, Peer.answered, hsent, Peer.answered]
  flags := h.flags.trans hflags
  last := h.last.trans hlast

theorem create_profile_callback_answers :
    peer.Answers (peer.createProfileCallback code results tid)
      (Command.addSubAccount.txn, tidOption tid) := by
  unfold createProfileCallback
  split
  · exact send_packet_answers.of_same rfl rfl rfl
  · exact handle_web_error_answers

theorem delete_profile_callback_answers {profileid : Int} :
    peer.Answers (peer.deleteProfileCallback code profileid tid)
      (Command.disableSubAccount.txn, tidOption tid) := by
  unfold deleteProfileCallback
  split
  · exact send_packet_answers.of_same rfl rfl rfl
  · exact send_packet_answers

theorem login_to_sub_account_answers {uniquenick : Bytes} :
    peer.Answers (peer.loginToSubAccount uniquenick tid)
      (Command.loginSubAccount.txn, tidOption tid) := by
  unfold loginToSubAccount
  split
  · exact send_packet_answers.of_same rfl rfl rfl
  · exact send_packet_answers

end Answers

/-- The lists that wait for the profiles, as they will be answered. -/
def waitingLists (peer : Peer) : List (Bytes × Option Int) :=
  (if peer.pendingSubaccounts then
    [(Command.getSubAccounts.txn, tidOption peer.lastProfileLookupTid)] else []) ++
  (if peer.pendingNugetPersonas then
    [(Command.nuGetPersonas.txn, tidOption peer.lastProfileLookupTid)] else [])

/-- The search callback sends the lists that wait, and none waits any longer. -/
theorem search_callback_answered (peer : Peer) (results : List Profile) :
    (peer.searchCallback results).answered = peer.answered ++ peer.waitingLists ∧
      (peer.searchCallback results).flags = (true, false, false) := by
  obtain ⟨_, _, _, _, subs, personas, _, _, _, _⟩ := peer
  cases subs <;> cases personas
  all_goals
    exact ⟨by simp [searchCallback, sendPending, waitingLists, answered, sendSubaccounts,
      sendPersonas, sendPacket, Packet.header, tidOption, Command.txn], rfl⟩

end Peer

/-- What the callback of a request will answer, whatever the backend says. -/
def ProfileRequest.answer : ProfileRequest → List (Bytes × Option Int)
  | .profiles _ => []
  | .createProfile _ _ tid => [(Command.addSubAccount.txn, tidOption tid)]
  | .deleteProfile _ tid => [(Command.disableSubAccount.txn, tidOption tid)]

namespace Session

variable {s s' : Session} {request : CommandRequest}

/-- What has been answered and what the callbacks will answer. -/
def total (s : Session) : List (Bytes × Option Int) :=
  s.peer.answered ++ s.tasks.flatMap ProfileRequest.answer

/-- The search is not among the requests that `reply` answers. -/
def NoSearch (s : Session) : Prop :=
  ∀ userId, .profiles userId ∉ s.tasks

/-- An event adds to what is answered in the end, and to nothing else. -/
structure Leads (s s' : Session) (headers : List (Bytes × Option Int)) : Prop where
  total : s'.total.Perm (s.total ++ headers)
  flags : s'.peer.flags = s.peer.flags
  searching : s'.searching = s.searching
  noSearch : s.NoSearch → s'.NoSearch

/-- An answer that goes out at once. -/
theorem Leads.of_answered {header : Bytes × Option Int}
    (hanswered : s'.peer.answered = s.peer.answered ++ [header])
    (hflags : s'.peer.flags = s.peer.flags) (hsearching : s'.searching = s.searching)
    (htasks : s'.tasks = s.tasks) : s.Leads s' [header] where
  total := by
    rw [Session.total, Session.total, hanswered, htasks, List.append_assoc, List.append_assoc]
    exact List.perm_append_comm.append_left _
  flags := hflags
  searching := hsearching
  noSearch := by simp only [NoSearch, htasks, imp_self]

/-- An answer that a callback will give. -/
theorem Leads.of_submitted {task : ProfileRequest} (htask : ∀ userId, task ≠ .profiles userId) :
    s.Leads { s with tasks := s.tasks ++ [task] } task.answer where
  total := by simp [Session.total]
  flags := rfl
  searching := rfl
  noSearch h userId hmem := by
    rcases List.mem_append.mp hmem with hmem | hmem
    · exact h userId hmem
    · exact htask userId (List.mem_singleton.mp hmem).symm

/-- What a command that is not a list leads to is its own answer, now or from its callback. -/
theorem request_leads (h : ¬ request.IsList) : s.Leads (s.request request) [request.given] := by
  obtain ⟨command, kvList⟩ := request
  cases command with
  | getSubAccounts => exact absurd (Or.inl rfl) h
  | nuGetPersonas => exact absurd (Or.inr rfl) h
  | addSubAccount | nuAddPersona => exact Leads.of_submitted nofun
  | disableSubAccount =>
      unfold Session.request
      simp only [Peer.handle, Peer.acctDisableSubAccount]
      cases s.peer.findProfile (getValue kvList (ascii "name")) with
      | some profile => exact Leads.of_submitted nofun
      | none =>
          exact Leads.of_answered Peer.send_packet_answers.answered rfl rfl (List.append_nil _)
  | loginSubAccount =>
      have hanswers := @Peer.login_to_sub_account_answers s.peer (readTid kvList)
        (getValue kvList (ascii "name"))
      exact Leads.of_answered hanswers.answered hanswers.flags rfl (List.append_nil _)

/-- Nor does it touch the TID of the lists. -/
theorem request_last (h : ¬ request.IsList) :
    (s.request request).peer.lastProfileLookupTid = s.peer.lastProfileLookupTid := by
  obtain ⟨command, kvList⟩ := request
  cases command with
  | getSubAccounts => exact absurd (Or.inl rfl) h
  | nuGetPersonas => exact absurd (Or.inr rfl) h
  | addSubAccount | nuAddPersona => rfl
  | disableSubAccount =>
      unfold Session.request
      simp only [Peer.handle, Peer.acctDisableSubAccount]
      cases s.peer.findProfile (getValue kvList (ascii "name")) <;> rfl
  | loginSubAccount => exact Peer.login_to_sub_account_answers.last

/-- Once the profiles are there a list is answered at once. -/
theorem request_leads_of_got (request : CommandRequest) (hgot : s.peer.gotProfiles = true) :
    s.Leads (s.request request) [request.given] := by
  by_cases hlist : request.IsList
  · obtain ⟨command, kvList⟩ := request
    have hsub : s.peer.acctGetSubAccounts kvList =
        { s.peer with lastProfileLookupTid := readTid kvList }.sendSubaccounts := by
      simp [Peer.acctGetSubAccounts, hgot]
    have hnu : s.peer.acctGetPersonas kvList =
        { s.peer with lastProfileLookupTid := readTid kvList }.sendPersonas := by
      simp [Peer.acctGetPersonas, hgot]
    rcases hlist with rfl | rfl
    · refine Leads.of_answered ?_ ?_ rfl (List.append_nil _)
      · exact (congrArg Peer.answered hsub).trans Peer.send_packet_answers.answered
      · exact (congrArg Peer.flags hsub).trans rfl
    · refine Leads.of_answered ?_ ?_ rfl (List.append_nil _)
      · exact (congrArg Peer.answered hnu).trans Peer.send_packet_answers.answered
      · exact (congrArg Peer.flags hnu).trans rfl
  · exact request_leads hlist

/-- The callback of a request answers what it was to answer. -/
theorem callback_answers {task : ProfileRequest} (htask : ∀ userId, task ≠ .profiles userId)
    (code : WebErrorCode) (results : List Profile) :
    ∃ header, task.answer = [header] ∧
      s.peer.Answers (s.peer.callback task code results) header := by
  cases task with
  | profiles userId => exact absurd rfl (htask userId)
  | createProfile _ _ tid => exact ⟨_, rfl, Peer.create_profile_callback_answers⟩
  | deleteProfile _ tid => exact ⟨_, rfl, Peer.delete_profile_callback_answers⟩

/-- A reply adds nothing to what is answered in the end. -/
theorem reply_leads (n : Nat) (code : WebErrorCode) (results : List Profile)
    (h : s.NoSearch) :
    s.Leads (s.reply n code results) [] ∧
      (s.reply n code results).peer.lastProfileLookupTid = s.peer.lastProfileLookupTid := by
  unfold reply
  split
  · next task htask =>
      obtain ⟨hlt, rfl⟩ := List.getElem?_eq_some_iff.mp htask
      obtain ⟨header, hanswer, hpeer⟩ := callback_answers (s := s)
        (fun userId heq => h userId (heq ▸ List.getElem_mem hlt)) code results
      have htasks : (s.tasks.flatMap ProfileRequest.answer).Perm
          ([header] ++ (s.tasks.eraseIdx n).flatMap ProfileRequest.answer) := by
        rw [← hanswer, ← List.flatMap_cons]
        exact (List.getElem_cons_eraseIdx_perm hlt).symm.flatMap_right _
      refine ⟨⟨?_, hpeer.flags, rfl, ?_⟩, hpeer.last⟩
      · rw [List.append_nil, total, total, hpeer.answered, List.append_assoc]
        exact htasks.symm.append_left _
      · exact fun _ userId hmem => h userId (List.mem_of_mem_eraseIdx hmem)
  · exact ⟨⟨by simp, rfl, rfl, id⟩, rfl⟩

/-- The TIDs of the requests of a command as they go out. -/
def givenTids (command : Command) (all : List CommandRequest) : List (Option Int) :=
  (ofCommand command all).map fun request => request.given.2

/-- The requests that are not about a list. -/
def others (all : List CommandRequest) : List CommandRequest :=
  all.filter fun request => ¬ request.IsList

/-- What holds before the search reply: a list is remembered by the flag of its kind, and of
the TIDs the last that `NuGetPersonas` had. -/
structure Early (all : List CommandRequest) (s : Session) : Prop where
  searching : s.searching = true
  got : s.peer.gotProfiles = false
  noSearch : s.NoSearch
  total : s.total.Perm ((others all).map CommandRequest.given)
  subAccounts : s.peer.pendingSubaccounts = !(givenTids .getSubAccounts all).isEmpty
  personas : s.peer.pendingNugetPersonas = !(givenTids .nuGetPersonas all).isEmpty
  last : tidOption s.peer.lastProfileLookupTid = (givenTids .nuGetPersonas all).getLastD none

theorem given_tids_other {command : Command} {all : List CommandRequest}
    (h : request.command ≠ command) :
    givenTids command (all ++ [request]) = givenTids command all := by
  simp [givenTids, ofCommand, h]

theorem given_tids_same {command : Command} {all : List CommandRequest}
    (h : request.command = command) :
    givenTids command (all ++ [request]) = givenTids command all ++ [request.given.2] := by
  simp [givenTids, ofCommand, h]

theorem others_list {all : List CommandRequest} (h : request.IsList) :
    others (all ++ [request]) = others all := by
  simp [others, h]

theorem others_concat {all : List CommandRequest} (h : ¬ request.IsList) :
    others (all ++ [request]) = others all ++ [request] := by
  simp [others, h]

/-- `GetSubAccounts` that comes early only leaves its flag. -/
theorem Early.sub_accounts {all : List CommandRequest} (h : Early all s)
    (hcommand : request.command = .getSubAccounts) :
    Early (all ++ [request]) (s.request request) := by
  have hrequest : s.request request =
      { s with peer := { s.peer with pendingSubaccounts := true } } := by
    simp [Session.request, Peer.handle, Peer.acctGetSubAccounts, hcommand, h.got]
  have hpersonas : givenTids .nuGetPersonas (all ++ [request]) = givenTids .nuGetPersonas all :=
    given_tids_other (by simp [hcommand])
  rw [hrequest]
  exact
    { searching := h.searching
      got := h.got
      noSearch := h.noSearch
      total := by rw [others_list (Or.inl hcommand)]; exact h.total
      subAccounts := by simp [given_tids_same hcommand]
      personas := by rw [hpersonas]; exact h.personas
      last := by rw [hpersonas]; exact h.last }

/-- `NuGetPersonas` that comes early leaves its flag and its TID. -/
theorem Early.get_personas {all : List CommandRequest} (h : Early all s)
    (hcommand : request.command = .nuGetPersonas) :
    Early (all ++ [request]) (s.request request) := by
  have hrequest : s.request request =
      { s with peer := { s.peer with
        lastProfileLookupTid := readTid request.kvList, pendingNugetPersonas := true } } := by
    simp [Session.request, Peer.handle, Peer.acctGetPersonas, hcommand, h.got]
  have hsubs : givenTids .getSubAccounts (all ++ [request]) = givenTids .getSubAccounts all :=
    given_tids_other (by simp [hcommand])
  rw [hrequest]
  exact
    { searching := h.searching
      got := h.got
      noSearch := h.noSearch
      total := by rw [others_list (Or.inr hcommand)]; exact h.total
      subAccounts := by rw [hsubs]; exact h.subAccounts
      personas := by simp [given_tids_same hcommand]
      last := by rw [given_tids_same hcommand, List.getLastD_concat]; rfl }

/-- What changes nothing about the lists keeps the invariant. -/
theorem Early.of_leads {all more : List CommandRequest} {headers : List (Bytes × Option Int)}
    (h : Early all s) (hleads : s.Leads s' headers)
    (hlast : s'.peer.lastProfileLookupTid = s.peer.lastProfileLookupTid)
    (hothers : (others all).map CommandRequest.given ++ headers =
      (others more).map CommandRequest.given)
    (hsubs : givenTids .getSubAccounts more = givenTids .getSubAccounts all)
    (hnus : givenTids .nuGetPersonas more = givenTids .nuGetPersonas all) : Early more s' := by
  have hflags := hleads.flags
  simp only [Peer.flags, Prod.mk.injEq] at hflags
  obtain ⟨hgot, hsub, hnu⟩ := hflags
  exact
    { searching := hleads.searching.trans h.searching
      got := hgot.trans h.got
      noSearch := hleads.noSearch h.noSearch
      total := hothers ▸ hleads.total.trans (h.total.append_right _)
      subAccounts := by rw [hsub, hsubs, h.subAccounts]
      personas := by rw [hnu, hnus, h.personas]
      last := by rw [hlast, hnus, h.last] }

theorem Early.command {all : List CommandRequest} (h : Early all s) :
    Early (all ++ [request]) (s.request request) := by
  by_cases hlist : request.IsList
  · exact hlist.elim h.sub_accounts h.get_personas
  · refine h.of_leads (request_leads hlist) (request_last hlist) ?_ ?_ ?_
    · rw [others_concat hlist, List.map_append, List.map_singleton]
    · exact given_tids_other fun heq => hlist (Or.inl heq)
    · exact given_tids_other fun heq => hlist (Or.inr heq)

theorem requests_concat {run : List SessionEvent} {event : SessionEvent} :
    requests (run ++ [event]) = requests run ++ requests [event] :=
  List.filterMap_append

/-- Up to the search reply the invariant holds. -/
theorem early_after (userId : Int) (sessionKey : Bytes) (profile : Profile)
    {run : List SessionEvent} (h : ∀ event ∈ run, beforeSearch event = true) :
    Early (requests run) (after step (start userId sessionKey profile) run) := by
  induction run using List.reverseRecOn with
  | nil => exact ⟨rfl, rfl, nofun, by rfl, rfl, rfl, rfl⟩
  | append_singleton run event ih =>
      have hrun := ih fun event hmem => h event (List.mem_append_left _ hmem)
      have hevent := h event (List.mem_append_right _ (List.mem_singleton_self _))
      rw [after_concat, requests_concat]
      cases event with
      | request request => exact hrun.command
      | searchReply results => exact nomatch hevent
      | reply n code results =>
          obtain ⟨hleads, hlast⟩ := reply_leads n code results hrun.noSearch
          exact hrun.of_leads hleads hlast (by simp [requests]) (by simp [requests])
            (by simp [requests])

/-- What holds from the search reply on. -/
structure Late (s : Session) : Prop where
  searching : s.searching = false
  flags : s.peer.flags = (true, false, false)
  noSearch : s.NoSearch

/-- The lists that the search reply sends. -/
def flushed (all : List CommandRequest) : List (Bytes × Option Int) :=
  (if givenTids .getSubAccounts all = [] then [] else
    [(Command.getSubAccounts.txn, (givenTids .nuGetPersonas all).getLastD none)]) ++
  (if givenTids .nuGetPersonas all = [] then [] else
    [(Command.nuGetPersonas.txn, (givenTids .nuGetPersonas all).getLastD none)])

/-- The search reply sends one list of each kind that waits. -/
theorem search_reply_total {all : List CommandRequest} (results : List Profile)
    (h : Early all s) :
    (s.searchReply results).total.Perm ((others all).map CommandRequest.given ++ flushed all) ∧
      (s.searchReply results).Late := by
  obtain ⟨hanswered, hflags⟩ := s.peer.search_callback_answered results
  have hwaiting : s.peer.waitingLists = flushed all := by
    unfold Peer.waitingLists flushed
    rw [h.subAccounts, h.personas, h.last]
    cases givenTids .getSubAccounts all <;> cases givenTids .nuGetPersonas all <;> rfl
  unfold searchReply
  rw [if_pos h.searching]
  refine ⟨?_, rfl, hflags, h.noSearch⟩
  rw [total, hanswered, hwaiting, List.append_assoc]
  have hswap : (s.peer.answered ++ (flushed all ++ s.tasks.flatMap ProfileRequest.answer)).Perm
      (s.total ++ flushed all) := by
    rw [total, List.append_assoc]
    exact List.perm_append_comm.append_left _
  exact hswap.trans (h.total.append_right _)

/-- From the search reply on every command is answered as its handler does. -/
theorem late_after (run : List SessionEvent) (h : s.Late) :
    (after step s run).Late ∧
      (after step s run).total.Perm (s.total ++ (requests run).map CommandRequest.given) := by
  induction run using List.reverseRecOn with
  | nil => exact ⟨h, by simp [requests]⟩
  | append_singleton run event ih =>
      obtain ⟨hlate, htotal⟩ := ih
      obtain ⟨hgot, -, -⟩ : _ ∧ _ ∧ _ := by simpa [Peer.flags] using hlate.flags
      rw [after_concat, requests_concat]
      cases event with
      | request request =>
          have hleads := request_leads_of_got request hgot
          refine ⟨⟨hleads.searching.trans hlate.searching, hleads.flags.trans hlate.flags,
            hleads.noSearch hlate.noSearch⟩, hleads.total.trans ?_⟩
          rw [List.map_append, ← List.append_assoc]
          exact htotal.append_right _
      | searchReply results =>
          have hstep : step (after step s run) (.searchReply results) = after step s run := by
            simp [step, searchReply, hlate.searching]
          rw [hstep]
          exact ⟨hlate, by simpa [requests] using htotal⟩
      | reply n code results =>
          obtain ⟨hleads, -⟩ := reply_leads n code results hlate.noSearch
          refine ⟨⟨hleads.searching.trans hlate.searching, hleads.flags.trans hlate.flags,
            hleads.noSearch hlate.noSearch⟩, ?_⟩
          simpa [requests, step] using hleads.total.trans (htotal.append_right _)

end Session

section Match

open Session

variable {all early late : List CommandRequest} {headers : List (Bytes × Option Int)}

/-- The requests, with the lists apart. -/
theorem others_append_lists (all : List CommandRequest) :
    (others all ++ (ofCommand .getSubAccounts all ++ ofCommand .nuGetPersonas all)).Perm all := by
  induction all with
  | nil => exact .refl _
  | cons request all ih =>
      by_cases hsub : request.command = .getSubAccounts
      · have hlist : request.IsList := Or.inl hsub
        simp only [others, ofCommand, hlist, hsub, List.filter_cons, not_true, decide_false,
          decide_true, if_true, reduceCtorEq, Bool.false_eq_true, if_false] at ih ⊢
        exact List.perm_middle.trans (ih.cons _)
      by_cases hnu : request.command = .nuGetPersonas
      · have hlist : request.IsList := Or.inr hnu
        simp only [others, ofCommand, hlist, hnu, List.filter_cons, not_true, decide_false,
          decide_true, if_true, reduceCtorEq, Bool.false_eq_true, if_false,
          ← List.append_assoc] at ih ⊢
        exact List.perm_middle.trans (ih.cons _)
      · have hlist : ¬ request.IsList := fun h => h.elim hsub hnu
        simp only [others, ofCommand, hlist, hsub, hnu, List.filter_cons, not_false_eq_true,
          decide_false, decide_true, if_true, Bool.false_eq_true, if_false] at ih ⊢
        exact ih.cons _

/-- One answer for a kind of list is right exactly if it was asked for once at most, with the
TID of the answer. -/
theorem list_perm_iff {txn : Bytes} {tids : List (Option Int)} {last : Option Int} :
    (if tids = [] then [] else [(txn, last)]).Perm (tids.map (Prod.mk txn)) ↔
      tids.length ≤ 1 ∧ ∀ tid ∈ tids, tid = last := by
  cases tids with
  | nil => simp
  | cons tid rest =>
      cases rest with
      | nil => simp [eq_comm]
      | cons other rest =>
          constructor
          · intro h
            simpa using h.length_eq
          · rintro ⟨h, -⟩
            simp at h

/-- The lists are answered right exactly if each kind was asked for once at most, and both with
the TID of the answers. -/
theorem lists_perm_iff {txn txn' : Bytes} (hne : txn ≠ txn') {tids tids' : List (Option Int)}
    {last : Option Int} (hlast : last = tids'.getLastD none) :
    ((if tids = [] then [] else [(txn, last)]) ++
        (if tids' = [] then [] else [(txn', last)])).Perm
      (tids.map (Prod.mk txn) ++ tids'.map (Prod.mk txn')) ↔
    tids.length ≤ 1 ∧ tids'.length ≤ 1 ∧ ∀ tid ∈ tids, tid = last := by
  constructor
  · intro h
    have hfirst : (if tids = [] then [] else [(txn, last)]).Perm (tids.map (Prod.mk txn)) := by
      have hfilter := h.filter fun header => header.1 = txn
      split_ifs at hfilter <;>
        simp_all [List.filter_map, Function.comp_def, Ne.symm hne]
    have hsecond : (if tids' = [] then [] else [(txn', last)]).Perm (tids'.map (Prod.mk txn')) := by
      have hfilter := h.filter fun header => header.1 = txn'
      split_ifs at hfilter <;> simp_all [List.filter_map, Function.comp_def]
    obtain ⟨hlen, htids⟩ := list_perm_iff.mp hfirst
    exact ⟨hlen, (list_perm_iff.mp hsecond).1, htids⟩
  · rintro ⟨hlen, hlen', htids⟩
    refine (list_perm_iff.mpr ⟨hlen, htids⟩).append (list_perm_iff.mpr ⟨hlen', ?_⟩)
    intro tid hmem
    obtain ⟨tid', rfl⟩ := List.length_eq_one_iff.mp
      (Nat.le_antisymm hlen' (List.length_pos_of_mem hmem))
    rw [hlast, List.mem_singleton.mp hmem]
    rfl

/-- Nor do the lists say that a persona was added, or go out with a TID that stands for none. -/
theorem flushed_ne {header : Bytes × Option Int} (h : header ∈ flushed all) :
    header.1 ≠ Command.nuAddPersona.txn ∧ header.2 ≠ some (-1) := by
  have hlast : (givenTids .nuGetPersonas all).getLastD none ≠ some (-1) := by
    rw [List.getLastD_eq_getLast?]
    cases hlast : (givenTids .nuGetPersonas all).getLast? with
    | none => exact nofun
    | some tid =>
        obtain ⟨request, -, rfl⟩ := List.mem_map.mp (List.mem_of_getLast? hlast)
        exact given_snd_ne request
  unfold flushed at h
  rcases List.mem_append.mp h with h | h
  all_goals
    split at h
    · exact nomatch h
    · rw [List.mem_singleton.mp h]
      exact ⟨by dsimp only; decide, hlast⟩

/-- Commands that are all answered are plain. -/
theorem plain_of_perm
    (h : headers.Perm ((others early).map CommandRequest.given ++ flushed early ++
      late.map CommandRequest.given))
    (hasked : headers.Perm ((early ++ late).map CommandRequest.asked)) :
    ∀ request ∈ early ++ late, request.Plain := by
  intro request hmem
  have hheader : request.asked ∈ headers := hasked.mem_iff.mpr (List.mem_map_of_mem hmem)
  have hgiven : ∀ all : List CommandRequest,
      request.asked ∈ all.map CommandRequest.given → request.Plain := by
    intro all hmem
    obtain ⟨other, -, heq⟩ := List.mem_map.mp hmem
    exact plain_of_asked (given_fst_ne other) (given_snd_ne other) heq.symm
  rcases List.mem_append.mp (h.mem_iff.mp hheader) with hmem | hmem
  · rcases List.mem_append.mp hmem with hmem | hmem
    · exact hgiven _ hmem
    · exact plain_of_asked (flushed_ne hmem).1 (flushed_ne hmem).2 rfl
  · exact hgiven _ hmem

theorem map_given_eq (h : ∀ request ∈ all, request.Plain) :
    all.map CommandRequest.given = all.map CommandRequest.asked :=
  List.map_congr_left fun request hmem => given_eq_asked (h request hmem)

theorem map_asked_of_command {command : Command} :
    (ofCommand command all).map CommandRequest.asked =
      (tidsOf command all).map (Prod.mk command.txn) := by
  rw [tidsOf, List.map_map]
  refine List.map_congr_left fun request hmem => ?_
  have hcommand : request.command = command := by
    simpa [ofCommand] using (List.mem_filter.mp hmem).2
  exact congrArg (fun command => (Command.txn command, request.tid)) hcommand

theorem given_tids_eq {command : Command} (h : ∀ request ∈ all, request.Plain) :
    givenTids command all = tidsOf command all :=
  List.map_congr_left fun request hmem =>
    congrArg Prod.snd (given_eq_asked (h request (List.mem_of_mem_filter hmem)))

/-- Of plain commands the lists decide whether what is answered is what was asked for. -/
theorem asked_iff_of_plain
    (h : headers.Perm ((others early).map CommandRequest.given ++ flushed early ++
      late.map CommandRequest.given))
    (hplain : ∀ request ∈ early ++ late, request.Plain) :
    headers.Perm ((early ++ late).map CommandRequest.asked) ↔ ListsAgree early := by
  have hearly : ∀ request ∈ early, request.Plain :=
    fun request hmem => hplain request (List.mem_append_left _ hmem)
  have hothers : (others early).map CommandRequest.given =
      (others early).map CommandRequest.asked :=
    map_given_eq fun request hmem => hearly request (List.mem_of_mem_filter hmem)
  rw [hothers, map_given_eq fun request hmem => hplain request (List.mem_append_right _ hmem)] at h
  have hasked : ((early ++ late).map CommandRequest.asked).Perm
      ((others early).map CommandRequest.asked ++
        ((ofCommand .getSubAccounts early).map CommandRequest.asked ++
          (ofCommand .nuGetPersonas early).map CommandRequest.asked) ++
        late.map CommandRequest.asked) := by
    have hsplit := (others_append_lists early).symm.map CommandRequest.asked
    rw [List.map_append, List.map_append] at hsplit
    rw [List.map_append]
    exact hsplit.append_right _
  rw [h.congr_left, hasked.congr_right, List.perm_append_right_iff, List.perm_append_left_iff,
    map_asked_of_command, map_asked_of_command, flushed, given_tids_eq hearly,
    given_tids_eq hearly]
  exact (lists_perm_iff (by decide) rfl).trans
    ⟨fun ⟨hsubs, hnus, hshared⟩ => ⟨hsubs, hnus, hshared⟩,
      fun ⟨hsubs, hnus, hshared⟩ => ⟨hsubs, hnus, hshared⟩⟩

/-- What the handlers answer is what was asked for exactly if the commands are plain and the
early lists agree. -/
theorem asked_iff
    (h : headers.Perm ((others early).map CommandRequest.given ++ flushed early ++
      late.map CommandRequest.given)) :
    headers.Perm ((early ++ late).map CommandRequest.asked) ↔
      (∀ request ∈ early ++ late, request.Plain) ∧ ListsAgree early := by
  constructor
  · intro hasked
    have hplain := plain_of_perm h hasked
    exact ⟨hplain, (asked_iff_of_plain h hplain).mp hasked⟩
  · rintro ⟨hplain, hlists⟩
    exact (asked_iff_of_plain h hplain).mpr hlists

end Match

namespace Session

variable {userId : Int} {sessionKey : Bytes} {profile : Profile} {run : List SessionEvent}

/-- A run after which all replies have arrived has the search reply in it. -/
theorem exists_search_reply
    (h : (after step (start userId sessionKey profile) run).Complete) :
    ∃ results late, run = run.takeWhile beforeSearch ++ .searchReply results :: late := by
  cases hrest : run.dropWhile beforeSearch with
  | nil =>
      have hbefore : ∀ event ∈ run, beforeSearch event = true := List.dropWhile_eq_nil_iff.mp hrest
      have hsearching := (early_after userId sessionKey profile hbefore).searching
      rw [h.1] at hsearching
      exact nomatch hsearching
  | cons event late =>
      have hevent : beforeSearch event = false := by
        simpa [hrest] using List.head?_dropWhile_not beforeSearch run
      cases event with
      | searchReply results =>
          exact ⟨results, late, by rw [← hrest, List.takeWhile_append_dropWhile]⟩
      | request request => exact nomatch hevent
      | reply n code results => exact nomatch hevent

/-- What has been answered in the end, for the commands before and after the search reply. -/
theorem sent_of_complete (h : (after step (start userId sessionKey profile) run).Complete) :
    ∃ late, requests run = requests (run.takeWhile beforeSearch) ++ late ∧
      (after step (start userId sessionKey profile) run).peer.answered.Perm
        ((others (requests (run.takeWhile beforeSearch))).map CommandRequest.given ++
          flushed (requests (run.takeWhile beforeSearch)) ++ late.map CommandRequest.given) := by
  obtain ⟨results, late, hrun⟩ := exists_search_reply h
  have hbefore : ∀ event ∈ run.takeWhile beforeSearch, beforeSearch event = true :=
    fun event hmem => List.mem_takeWhile_imp hmem
  obtain ⟨htotal, hlate⟩ :=
    search_reply_total results (early_after userId sessionKey profile hbefore)
  have hafter : after step (start userId sessionKey profile) run =
      after step ((after step (start userId sessionKey profile)
        (run.takeWhile beforeSearch)).searchReply results) late := by
    conv_lhs => rw [hrun, after_append]
    rfl
  refine ⟨requests late, ?_, ?_⟩
  · conv_lhs => rw [hrun]
    simp [requests]
  · have hsent := (late_after late hlate).2.trans (htotal.append_right _)
    rw [← hafter, total, h.2, List.flatMap_nil, List.append_nil] at hsent
    exact hsent

/-- Once all replies have arrived every command has been answered by one packet with its own
`TXN` and `TID` exactly if the run matches. -/
theorem replies_match_iff (userId : Int) (sessionKey : Bytes) (profile : Profile)
    (run : List SessionEvent)
    (h : (after step (start userId sessionKey profile) run).Complete) :
    Answered (after step (start userId sessionKey profile) run) run ↔ RunMatches run := by
  obtain ⟨late, hrequests, hsent⟩ := sent_of_complete h
  have hiff := asked_iff hsent
  rw [← hrequests] at hiff
  exact hiff.trans ⟨fun ⟨hplain, hlists⟩ => ⟨hplain, hlists⟩,
    fun ⟨hplain, hlists⟩ => ⟨hplain, hlists⟩⟩

/-- The list that waits for the profiles and a sub account that is added meanwhile. -/
def addWhileSearching : List SessionEvent :=
  [.request ⟨.getSubAccounts, []⟩,
    .request ⟨.addSubAccount, [(ascii "name", ascii "nova"), (ascii "TID", ascii "3")]⟩,
    .searchReply [⟨5, ascii "vega"⟩], .reply 0 .success [⟨6, ascii "nova"⟩]]

theorem replies_match_add_while_searching :
    (after step (start 9 (ascii "key") ⟨4, ascii "user"⟩) addWhileSearching).Complete ∧
    (Answered (after step (start 9 (ascii "key") ⟨4, ascii "user"⟩) addWhileSearching)
      addWhileSearching ↔ RunMatches addWhileSearching) :=
  ⟨by decide, replies_match_iff 9 (ascii "key") ⟨4, ascii "user"⟩ addWhileSearching (by decide)⟩

/-- A persona that is added is answered as a sub account. -/
theorem persona_answered_as_sub_account :
    ¬ ∀ (userId : Int) (sessionKey : Bytes) (profile : Profile) (run : List SessionEvent),
      (after step (start userId sessionKey profile) run).Complete →
      Answered (after step (start userId sessionKey profile) run) run := by
  intro h
  have hanswered := h 9 (ascii "key") ⟨4, ascii "user"⟩
    [.searchReply [], .request ⟨.nuAddPersona, [(ascii "name", ascii "nova")]⟩,
      .reply 0 .success [⟨6, ascii "nova"⟩]] (by decide)
  revert hanswered
  decide

end Session

end OpenSpy.FESL
