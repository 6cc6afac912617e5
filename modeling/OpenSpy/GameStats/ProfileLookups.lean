import OpenSpy.GameStats.AuthReplies

/-!
# The replies to `getpid`

`handle_getpid` numbers its lookups, as `handle_getpd` and `handle_setpd` number their requests, but
`m_getpid_cb` does not look at the number: it sends its reply at once, and `m_getpid_wait_ctx` is
not used. `getpid_replies_in_order_iff` says which runs still get their replies in order.
-/

namespace OpenSpy.GS

open Bytes Commands Runs
open scoped List

/-- The fields of a `getpid` command, each of which may be missing. -/
structure GetpidCommand where
  nick : Option Bytes
  keyhash : Option Bytes
  lid : Option Int
  deriving DecidableEq

/-- The members of `GPPersistRequestData` that `handle_getpid` sets. -/
structure GPPersistRequestData where
  waitIndex : UInt32
  operationId : Int
  deriving DecidableEq

/-- The request for a lookup, `EPersistRequestType_GetProfileIDFromCDKey`. -/
structure LookupRequest where
  extra : GPPersistRequestData
  authToken : Bytes
  profileNick : Bytes
  profileid : Int
  deriving DecidableEq

/-- What a peer sends: the reply to a lookup, with which one it was, or an error. -/
inductive LookupPacket where
  | getpidr (number : Nat) (packet : Bytes)
  | error (packet : Bytes)
  deriving DecidableEq

/-- The lookup that a packet replies to. -/
def LookupPacket.number : LookupPacket → Option Nat
  | .getpidr number _ => some number
  | .error _ => none

/-- The members of a peer that `getpid` uses, and the packets that were passed to `SendPacket`,
which queues none for a peer that is being deleted. -/
structure LookupPeer where
  user : User
  profile : Profile
  gameid : Int
  getpidRequestIndex : UInt32
  deleteFlag : Bool
  sent : List LookupPacket
  deriving DecidableEq

/-- The text of a failed lookup. -/
def lookupErrorMsg : WebErrorCode → Bytes
  | .badCdKey => ascii "The cdkey is invalid. "
  | code => (replyErrorCode code).msg

namespace LookupPeer

/-- The members as the constructor of `Peer` leaves them, for a game. -/
def init (gameid : Int) : LookupPeer :=
  ⟨.default, .default, gameid, 0, false, []⟩

/-- `Peer::send_error` with `GP_PARSE`, which ends the session. -/
def sendParseError (peer : LookupPeer) : LookupPeer :=
  { peer with
    sent := peer.sent ++ [.error (ascii "\\error\\\\err\\" ++ printInt GPErrorCode.parse.error ++
      ascii "\\errmsg\\" ++ GPErrorCode.parse.msg ++ ascii "\\fatal\\1")]
    deleteFlag := true }

/-- `Peer::handle_getpid`, with the request that it adds. -/
def handleGetpid (peer : LookupPeer) (command : GetpidCommand) :
    LookupPeer × Option LookupRequest :=
  match command.nick, command.keyhash, command.lid with
  | some nick, some keyhash, some operationId =>
      ({ peer with getpidRequestIndex := peer.getpidRequestIndex + 1 },
        some ⟨⟨peer.getpidRequestIndex, operationId⟩, keyhash, nick, peer.gameid⟩)
  | _, _, _ => (peer.sendParseError, none)

/-- `Peer::m_getpid_cb`, for the lookup with a number. It uses `operation_id` and not
`wait_index`. -/
def getpidCb (peer : LookupPeer) (number : Nat) (extra : GPPersistRequestData) :
    Outcome → LookupPeer
  | .success user profile =>
      { peer with
        profile := profile
        user := user
        sent := peer.sent ++ [.getpidr number (ascii "\\getpidr\\" ++ printInt profile.id ++
          ascii "\\lid\\" ++ printInt extra.operationId)] }
  | .failure code =>
      { peer with
        sent := peer.sent ++ [.getpidr number (ascii "\\getpidr\\-1\\errmsg\\" ++
          lookupErrorMsg code ++ ascii "\\lid\\" ++ printInt extra.operationId)] }

/-- The lookups that were replied to, in the order of the replies. -/
def replied (peer : LookupPeer) : List Nat :=
  peer.sent.filterMap LookupPacket.number

end LookupPeer

/-- A peer with the number of lookups that it asked for and those that have not completed. -/
structure LookupSystem where
  peer : LookupPeer
  requested : Nat
  waiting : List (Nat × LookupRequest)
  deriving DecidableEq

/-- A `getpid` command comes, or a lookup completes. -/
inductive LookupEvent where
  | getpid (command : GetpidCommand)
  | completed (number : Nat) (outcome : Outcome)
  deriving DecidableEq

namespace LookupSystem

/-- A new peer. -/
def init (gameid : Int) : LookupSystem :=
  ⟨.init gameid, 0, []⟩

/-- A lookup has not completed. -/
def Waits (sys : LookupSystem) (number : Nat) : Prop :=
  number ∈ sys.waiting.map Prod.fst

/-- One event. Only a lookup that waits completes. -/
def step (sys : LookupSystem) : LookupEvent → LookupSystem
  | .getpid command =>
      match sys.peer.handleGetpid command with
      | (peer, none) => { sys with peer := peer }
      | (peer, some request) =>
          { peer := peer
            requested := sys.requested + 1
            waiting := sys.waiting ++ [(sys.requested, request)] }
  | .completed number outcome =>
      match sys.waiting.find? (·.1 = number) with
      | none => sys
      | some (_, request) =>
          { sys with
            peer := sys.peer.getpidCb number request.extra outcome
            waiting := sys.waiting.eraseP (·.1 = number) }

/-- Of two replies the one to the earlier request was sent first. -/
def RepliesInOrder (sys : LookupSystem) : Prop :=
  sys.peer.replied.Pairwise (· < ·)

/-- Where a lookup completes, all that were requested later still wait. -/
def CompletesInTurn (sys : LookupSystem) : LookupEvent → Prop
  | .getpid _ => True
  | .completed number _ =>
      sys.Waits number → ∀ later, number < later → later < sys.requested → sys.Waits later

/-- Each lookup waits or was replied to, once. -/
def Accounted (sys : LookupSystem) : Prop :=
  (sys.waiting.map Prod.fst ++ sys.peer.replied).Perm (List.range sys.requested)

end LookupSystem

open LookupSystem

section Order

variable {sys : LookupSystem}

theorem handle_getpid_replied (peer : LookupPeer) (command : GetpidCommand) :
    (peer.handleGetpid command).1.replied = peer.replied := by
  rw [LookupPeer.handleGetpid]
  split
  · rfl
  · simp [LookupPeer.replied, LookupPeer.sendParseError, LookupPacket.number]

theorem getpid_cb_replied (peer : LookupPeer) (number : Nat) (extra : GPPersistRequestData)
    (outcome : Outcome) :
    (peer.getpidCb number extra outcome).replied = peer.replied ++ [number] := by
  cases outcome <;> simp [LookupPeer.getpidCb, LookupPeer.replied, LookupPacket.number]

/-- A command replies to no lookup, and asks for one at most. -/
theorem step_getpid (sys : LookupSystem) (command : GetpidCommand) :
    (sys.step (.getpid command)).peer.replied = sys.peer.replied ∧
      ((sys.step (.getpid command)).requested = sys.requested ∧
          (sys.step (.getpid command)).waiting = sys.waiting ∨
        (sys.step (.getpid command)).requested = sys.requested + 1 ∧
          ∃ request, (sys.step (.getpid command)).waiting =
            sys.waiting ++ [(sys.requested, request)]) := by
  have hreplied := handle_getpid_replied sys.peer command
  rw [LookupSystem.step]
  rcases hhandled : sys.peer.handleGetpid command with ⟨peer, _ | request⟩
  · rw [hhandled] at hreplied
    exact ⟨hreplied, .inl ⟨rfl, rfl⟩⟩
  · rw [hhandled] at hreplied
    exact ⟨hreplied, .inr ⟨rfl, request, rfl⟩⟩

/-- A lookup that waits is replied to when it completes. -/
theorem step_completed {number : Nat} (hwaits : sys.Waits number) (outcome : Outcome) :
    (sys.step (.completed number outcome)).peer.replied = sys.peer.replied ++ [number] ∧
      (sys.step (.completed number outcome)).requested = sys.requested ∧
        (sys.waiting.map Prod.fst).Perm
          (number :: (sys.step (.completed number outcome)).waiting.map Prod.fst) := by
  cases hfind : sys.waiting.find? (·.1 = number) with
  | none =>
      obtain ⟨entry, hmem, heq⟩ := List.mem_map.mp hwaits
      exact absurd (List.find?_eq_none.mp hfind entry hmem) (by simpa using heq)
  | some found =>
      obtain ⟨hfound, before, after, hsplit, hbefore⟩ := List.find?_eq_some_iff_append.mp hfind
      have hnumber : found.1 = number := by simpa using hfound
      have hskip : ∀ entry ∈ before, ¬ (decide (entry.1 = number)) = true := by
        intro entry hentry
        simpa using hbefore entry hentry
      have herase : sys.waiting.eraseP (·.1 = number) = before ++ after := by
        rw [hsplit, List.eraseP_append_right _ hskip,
          List.eraseP_cons_of_pos (by simpa using hfound)]
      simp only [LookupSystem.step, hfind]
      refine ⟨getpid_cb_replied _ _ _ _, trivial, ?_⟩
      rw [herase, hsplit, ← hnumber]
      exact List.perm_middle.map Prod.fst

/-- Another completion changes nothing. -/
theorem step_not_waiting {number : Nat} (hwaits : ¬ sys.Waits number) (outcome : Outcome) :
    sys.step (.completed number outcome) = sys := by
  have hfind : sys.waiting.find? (·.1 = number) = none := by
    rw [List.find?_eq_none]
    intro entry hmem heq
    exact hwaits (List.mem_map.mpr ⟨entry, hmem, by simpa using heq⟩)
  rw [LookupSystem.step, hfind]

/-- Every event keeps the account. -/
theorem LookupSystem.Accounted.step (h : sys.Accounted) (event : LookupEvent) :
    (sys.step event).Accounted := by
  cases event with
  | getpid command =>
      obtain ⟨hreplied, ⟨hrequested, hwaiting⟩ | ⟨hrequested, request, hwaiting⟩⟩ :=
        step_getpid sys command
      · rw [Accounted, hreplied, hrequested, hwaiting]
        exact h
      · rw [Accounted, hreplied, hrequested, hwaiting, List.range_succ, List.map_append]
        calc sys.waiting.map Prod.fst ++ [sys.requested] ++ sys.peer.replied
          _ = sys.waiting.map Prod.fst ++ sys.requested :: sys.peer.replied := by simp
          _ ~ sys.requested :: (sys.waiting.map Prod.fst ++ sys.peer.replied) := List.perm_middle
          _ ~ sys.requested :: List.range sys.requested := h.cons _
          _ ~ List.range sys.requested ++ [sys.requested] := (List.perm_append_singleton _ _).symm
  | completed number outcome =>
      by_cases hwaits : sys.Waits number
      · obtain ⟨hreplied, hrequested, hperm⟩ := step_completed hwaits outcome
        rw [Accounted, hreplied, hrequested]
        refine List.Perm.trans ?_ h
        rw [← List.append_assoc]
        calc (sys.step (.completed number outcome)).waiting.map Prod.fst ++ sys.peer.replied ++
              [number]
          _ ~ number :: ((sys.step (.completed number outcome)).waiting.map Prod.fst ++
                sys.peer.replied) := List.perm_append_singleton _ _
          _ ~ sys.waiting.map Prod.fst ++ sys.peer.replied := (hperm.append_right _).symm
      · rw [step_not_waiting hwaits]
        exact h

/-- While all lookups are accounted for, the reply to one that waits is in order exactly if those
that were requested later still wait. -/
theorem in_turn_iff (h : sys.Accounted) {number : Nat} (hwaits : sys.Waits number) :
    (∀ other ∈ sys.peer.replied, other < number) ↔
      ∀ later, number < later → later < sys.requested → sys.Waits later := by
  have hnodup : (sys.waiting.map Prod.fst ++ sys.peer.replied).Nodup :=
    h.nodup_iff.mpr List.nodup_range
  have hmem : ∀ other, (sys.Waits other ∨ other ∈ sys.peer.replied) ↔ other < sys.requested := by
    intro other
    rw [← List.mem_range, ← h.mem_iff, List.mem_append]
    rfl
  constructor
  · intro hbelow later hlater hrequested
    rcases (hmem later).mpr hrequested with hin | hreplied
    · exact hin
    · exact absurd (hbelow later hreplied) (by omega)
  · intro hall other hother
    have hrequested := (hmem other).mp (.inr hother)
    have hdisjoint : ∀ waits, sys.Waits waits → waits ≠ other := by
      rintro _ hin rfl
      exact List.disjoint_of_nodup_append hnodup hin hother
    rcases Nat.lt_trichotomy other number with hlt | heq | hgt
    · exact hlt
    · exact absurd heq.symm (hdisjoint number hwaits)
    · exact absurd rfl (hdisjoint other (hall other hgt hrequested))

/-- An event keeps the order of the replies exactly if no lookup completes out of turn. -/
theorem step_in_order_iff (h : sys.Accounted) (horder : sys.RepliesInOrder) (event : LookupEvent) :
    (sys.step event).RepliesInOrder ↔ sys.CompletesInTurn event := by
  cases event with
  | getpid command =>
      rw [LookupSystem.RepliesInOrder, (step_getpid sys command).1]
      exact iff_of_true horder trivial
  | completed number outcome =>
      by_cases hwaits : sys.Waits number
      · rw [LookupSystem.RepliesInOrder, (step_completed hwaits outcome).1, List.pairwise_append]
        rw [LookupSystem.RepliesInOrder] at horder
        simp only [horder, List.pairwise_singleton, true_and, List.mem_singleton, forall_eq,
          CompletesInTurn, hwaits, forall_const]
        exact in_turn_iff h hwaits
      · rw [step_not_waiting hwaits]
        exact iff_of_true horder fun hin => absurd hin hwaits

end Order

/-- All through a run of `getpid` commands and completed lookups the replies are sent in the order
of the requests if and only if whenever a lookup completes all that were requested later still
wait. -/
theorem getpid_replies_in_order_iff (gameid : Int) (run : List LookupEvent) :
    (∀ before, before <+: run →
        (after LookupSystem.step (.init gameid) before).RepliesInOrder) ↔
      AtEach LookupSystem.step (.init gameid) CompletesInTurn run := by
  have hstart : Accounted (.init gameid) := List.Perm.refl _
  have hiff := @throughout_iff _ _ LookupSystem.step (.init gameid)
    (fun sys => sys.Accounted ∧ sys.RepliesInOrder) CompletesInTurn ⟨hstart, List.Pairwise.nil⟩
    (fun sys event h => (and_iff_right (h.1.step event)).trans (step_in_order_iff h.1 h.2 event))
    run
  rw [← hiff]
  refine forall₂_congr fun before _ => (and_iff_right ?_).symm
  exact invariant hstart (fun _ event h => h.step event) before

/-- The lookup of the second request completes first. -/
theorem later_lookup_overtakes :
    ¬ ∀ (gameid : Int) (run : List LookupEvent), ∀ before, before <+: run →
      (after LookupSystem.step (.init gameid) before).RepliesInOrder := by
  intro h
  have horder := h 1 [.getpid ⟨some [], some [], some 1⟩, .getpid ⟨some [], some [], some 1⟩,
    .completed 1 (.failure .noSuchUser), .completed 0 (.failure .badCdKey)] _ List.prefix_rfl
  exact absurd (show List.Pairwise (· < ·) [1, 0] from horder) (by decide)

end OpenSpy.GS
