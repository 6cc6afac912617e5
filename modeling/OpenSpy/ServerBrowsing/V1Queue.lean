import Mathlib.Logic.Relation
import OpenSpy.ServerBrowsing.V1Session

/-!
# The packets that wait

A packet that comes while the peer waits for a game is put at the end of the queue. That includes
the packets that `flushWaitingPackets` takes off the queue: a list command sets the peer to wait
once more, for a game that nobody asked for, and the packets behind it go round for ever
(`flush_goes_on_iff`).

No packet gets lost or is handled twice, but a packet that is read between the answer for the game
and the next turn of the loop overtakes those that wait (`packets_in_order_iff`).

Both are about a machine that leaves out what is sent. Each event of a peer is some of its moves
(`step_moves`).
-/

namespace OpenSpy.ServerBrowsing

open Bytes Relation Runs

namespace V1Control

variable {challenge : Bytes} {control next : V1Control} {packet : V1Packet}

/-- A move of what decides. -/
inductive Move (challenge : Bytes) (control : V1Control) : V1Control → Prop where
  | wait (data : Bytes) (hidle : control.flushing = false)
      (hwaiting : control.waitingGamedata = 1) :
      Move challenge control { control with
        arrived := control.arrived + 1
        waitingPackets := control.waitingPackets ++ [⟨control.arrived, data⟩] }
  | arrive (data : Bytes) (hidle : control.flushing = false)
      (hready : control.waitingGamedata ≠ 1) (next : V1Control)
      (h : { control with arrived := control.arrived + 1 }.Handles ⟨control.arrived, data⟩ next) :
      Move challenge control next
  | rotate (packet : V1Packet) (rest : List V1Packet) (hbusy : control.flushing = true)
      (hwaiting : control.waitingGamedata = 1) (hqueue : control.waitingPackets = packet :: rest) :
      Move challenge control { control with waitingPackets := rest ++ [packet] }
  | take (packet : V1Packet) (rest : List V1Packet) (hbusy : control.flushing = true)
      (hready : control.waitingGamedata ≠ 1) (hqueue : control.waitingPackets = packet :: rest)
      (next : V1Control) (h : { control with waitingPackets := rest }.Handles packet next) :
      Move challenge control next
  | finish (hbusy : control.flushing = true) (hqueue : control.waitingPackets = []) :
      Move challenge control { control with flushing := false }
  | flush (hidle : control.flushing = false) (hwaiting : control.waitingGamedata = 2) :
      Move challenge control { control with waitingGamedata := 0, flushing := true }
  | unknownGame (gamename : Bytes) (rest : List Bytes)
      (hasked : control.unanswered = gamename :: rest) :
      Move challenge control { control with unanswered := rest, waitingGamedata := 2 }
  | knownGame (gamename : Bytes) (rest : List Bytes)
      (hasked : control.unanswered = gamename :: rest) (game : Game)
      (hsecret : cString game.secretkey ≠ []) (validated : Bool)
      (hvalidated : validated = true ↔ control.validated = true ∨
        cString (gsseckeyOf (cString challenge) (cString game.secretkey) control.enctype) =
          cString control.validation) :
      Move challenge control { control with
        unanswered := rest, waitingGamedata := 2, game := game, validated := validated }

/-- Handling a packet does not touch the queue, nor who goes round in it. -/
theorem Handles.queue (h : control.Handles packet next) :
    next.waitingPackets = control.waitingPackets ∧ next.flushing = control.flushing ∧
      next.arrived = control.arrived ∧ next.handled = control.handled ++ [packet] := by
  cases h with
  | passed => exact ⟨rfl, rfl, rfl, rfl⟩
  | game => exact ⟨rfl, rfl, rfl, rfl⟩
  | list => exact ⟨rfl, rfl, rfl, rfl⟩

end V1Control

open V1Control

namespace V1Session

variable {random : V1Random} {session : V1Session}

theorem arrive_waits (now : Int) (data : Bytes) (hwaiting : session.waitingGamedata = 1) :
    session.arrive random now data =
      { session with
        arrived := session.arrived + 1
        waitingPackets := session.waitingPackets ++ [⟨session.arrived, data⟩] } :=
  if_pos hwaiting

theorem arrive_handles (now : Int) (data : Bytes) (hready : session.waitingGamedata ≠ 1) :
    { session.toV1Control with arrived := session.arrived + 1 }.Handles ⟨session.arrived, data⟩
      (session.arrive random now data).toV1Control := by
  have heq : session.arrive random now data =
      { session with arrived := session.arrived + 1 }.handleNow random now
        ⟨session.arrived, data⟩ := if_neg hready
  rw [heq]
  exact @handle_now_handles random { session with arrived := session.arrived + 1 } now
    ⟨session.arrived, data⟩

/-- The arrival of a packet is a move. -/
theorem arrive_move (now : Int) (data : Bytes) (hidle : session.flushing = false) :
    Move random.challenge session.toV1Control (session.arrive random now data).toV1Control ∧
      (session.arrive random now data).flushing = false := by
  by_cases hwaiting : session.waitingGamedata = 1
  · rw [arrive_waits now data hwaiting]
    exact ⟨.wait data hidle hwaiting, hidle⟩
  · have hhandles := @arrive_handles random session now data hwaiting
    exact ⟨.arrive data hidle hwaiting _ hhandles, hhandles.queue.2.1.trans hidle⟩

/-- So are all arrivals of a read. -/
theorem arrive_moves (now : Int) (packets : List Bytes) (hidle : session.flushing = false) :
    ReflTransGen (Move random.challenge) session.toV1Control
      (packets.foldl (fun session data => session.arrive random now data) session).toV1Control := by
  induction packets generalizing session with
  | nil => exact .refl
  | cons data rest ih =>
      obtain ⟨hmove, hstill⟩ := arrive_move now data hidle
      exact .head hmove (ih hstill)

/-- A read does nothing else to what decides. -/
theorem on_stream_read_control (now : Int) (chunk : Bytes) :
    (session.onStreamRead random now chunk).toV1Control =
      ((splitCommands (session.kvAccumulator ++ chunk)
        ((session.kvAccumulator ++ chunk).length + 1) 0).1.foldl
          (fun session data => session.arrive random now data) session).toV1Control := by
  have hstore : ∀ (session : V1Session) (rest : Bytes),
      (if rest.length > maxUnprocessedData then
        { session with kvAccumulator := rest }.delete random
      else { session with kvAccumulator := rest }).toV1Control = session.toV1Control := by
    intro session rest
    split
    · exact delete_control
    · rfl
  exact hstore _ _

/-- The answer for a game is a move. -/
theorem game_info_move {gamename : Bytes} {rest : List Bytes}
    (hasked : session.unanswered = gamename :: rest) (gameData : Game) :
    Move random.challenge session.toV1Control
      ({ session with unanswered := rest }.onRecievedGameInfo random gameData).toV1Control := by
  apply on_recieved_game_info_ends (motive := fun next =>
    Move random.challenge session.toV1Control next.toV1Control) gameData
  case unknown =>
    rw [send_error_control]
    exact .unknownGame gamename rest hasked
  case again =>
    intro hsecret hvalidated
    have hbefore : session.validated = true := hvalidated
    exact .knownGame gamename rest hasked gameData hsecret session.validated (by simp [hbefore])
  case right =>
    intro hsecret _ hright
    have hanswer : cString (gsseckeyOf (cString random.challenge) (cString gameData.secretkey)
        session.enctype) = cString session.validation := hright
    exact .knownGame gamename rest hasked gameData hsecret true (by simp [hanswer])
  case wrong =>
    intro hsecret hbefore hwrong
    have hbefore : session.validated = false := hbefore
    have hanswer : cString (gsseckeyOf (cString random.challenge) (cString gameData.secretkey)
        session.enctype) ≠ cString session.validation := hwrong
    rw [send_error_control]
    exact .knownGame gamename rest hasked gameData hsecret session.validated
      (by simp [hbefore, hanswer])

/-- An event of a peer is some moves of what decides. -/
theorem step_moves (event : V1Event) :
    ReflTransGen (Move random.challenge) session.toV1Control
      (session.step random event).toV1Control := by
  cases event with
  | read now chunk =>
      show ReflTransGen _ _ (if session.flushing || session.socketDeleted then session
        else session.onStreamRead random now chunk).toV1Control
      split
      case isTrue => exact .refl
      case isFalse hfree =>
        rw [Bool.or_eq_true, not_or] at hfree
        rw [on_stream_read_control]
        exact arrive_moves now _ (Bool.eq_false_iff.mpr hfree.1)
  | think now =>
      show ReflTransGen _ _
        (if session.flushing then session else session.think random now).toV1Control
      split
      case isTrue => exact .refl
      case isFalse hidle =>
        unfold think
        split
        · exact .refl
        · split
          case isTrue hwaiting => exact .single (.flush (Bool.eq_false_iff.mpr hidle) hwaiting)
          case isFalse =>
            rw [check_timeout_control]
  | flushRound now =>
      show ReflTransGen _ _
        (if session.flushing then session.flushRound random now else session).toV1Control
      split
      case isFalse => exact .refl
      case isTrue hbusy =>
        unfold flushRound
        split
        case h_1 hqueue =>
          rw [check_timeout_control]
          exact .single (.finish hbusy hqueue)
        case h_2 cmd rest hqueue =>
          unfold handlePacket
          split
          case isTrue hwaiting => exact .single (.rotate cmd rest hbusy hwaiting hqueue)
          case isFalse hready =>
            have hhandles := @handle_now_handles random { session with waitingPackets := rest } now
              cmd
            exact .single (.take cmd rest hbusy hready hqueue _ hhandles)
  | gameInfo gameData =>
      unfold step
      dsimp only
      split
      case h_1 => exact .refl
      case h_2 gamename rest hasked => exact .single (game_info_move hasked gameData)
  | servers req results =>
      show ReflTransGen _ _ (session.onRetrievedServers random req results).toV1Control
      rw [on_retrieved_servers_control]
  | groups packets lastSet =>
      show ReflTransGen _ _ (session.onRetrievedGroups random packets lastSet).toV1Control
      rw [on_retrieved_groups_control]
  | socketClosed =>
      show ReflTransGen _ _ (if session.flushing then session
        else { session with socketDeleted := true }.delete random).toV1Control
      split
      · exact .refl
      · rw [delete_control]

/-- What every move keeps, every run keeps. -/
theorem run_keeps {holds : V1Control → Prop}
    (hmove : ∀ control next, Move random.challenge control next → holds control → holds next)
    (h : holds session.toV1Control) (run : List V1Event) :
    holds (after (step random) session run).toV1Control := by
  refine @invariant _ _ (step random) session (fun session => holds session.toV1Control) h
    (fun session event h => ?_) run
  have hmoves := @step_moves random session event
  generalize (step random session event).toV1Control = next at hmoves ⊢
  induction hmoves with
  | refl => exact h
  | tail _ hlast ih => exact hmove _ _ hlast ih

end V1Session

namespace V1Control

variable {challenge : Bytes} {control next : V1Control} {packet : V1Packet}

section Endless

/-- At most one game is asked for at a time, by a client that is not validated and that waits. -/
def AsksOnce (control : V1Control) : Prop :=
  control.unanswered = [] ∨
    control.waitingGamedata = 1 ∧ control.validated = false ∧
      ∃ gamename, control.unanswered = [gamename]

theorem AsksOnce.none (h : control.AsksOnce) (hready : control.waitingGamedata ≠ 1) :
    control.unanswered = [] :=
  h.resolve_right fun h => hready h.1

theorem AsksOnce.none_of_validated (h : control.AsksOnce) (hvalidated : control.validated = true) :
    control.unanswered = [] :=
  h.resolve_right fun h => Bool.false_ne_true (h.2.1.symm.trans hvalidated)

/-- A packet is only handled when no game is asked for. -/
theorem asks_once_handles (h : control.Handles packet next) (hnone : control.unanswered = []) :
    next.AsksOnce := by
  cases h with
  | passed => exact .inl hnone
  | game hgame =>
      have hone : ∀ gamename, control.unanswered ++ [gamename] = [gamename] := by simp [hnone]
      exact .inr ⟨rfl, hgame.2, _, hone _⟩
  | list => exact .inl hnone

theorem asks_once_move (hmove : Move challenge control next) (h : control.AsksOnce) :
    next.AsksOnce := by
  cases hmove with
  | wait => exact h
  | arrive data _ hready _ hhandles =>
      exact asks_once_handles hhandles (h.none hready)
  | rotate => exact h
  | take packet rest _ hready _ _ hhandles =>
      exact asks_once_handles hhandles (h.none hready)
  | finish => exact h
  | flush _ hwaiting => exact .inl (h.none (by rw [hwaiting]; decide))
  | unknownGame gamename rest hasked =>
      obtain hnone | ⟨-, -, only, hone⟩ := h
      · cases hnone.symm.trans hasked
      · exact .inl (List.cons.inj (hone.symm.trans hasked)).2.symm
  | knownGame gamename rest hasked =>
      obtain hnone | ⟨-, -, only, hone⟩ := h
      · cases hnone.symm.trans hasked
      · exact .inl (List.cons.inj (hone.symm.trans hasked)).2.symm

/-- What keeps the loop of `flushWaitingPackets` going: the peer waits with packets in the queue, or
the queue has a list command in front of its last packet. -/
def Trapped (control : V1Control) : Prop :=
  control.waitingGamedata = 1 ∧ control.waitingPackets ≠ [] ∨
    control.waitingGamedata ≠ 1 ∧
      ∃ packet ∈ control.waitingPackets.dropLast, control.AsksForList packet

instance (control : V1Control) : Decidable control.Trapped :=
  inferInstanceAs (Decidable (_ ∨ _))

theorem trapped_waiting (hwaiting : control.waitingGamedata = 1) :
    control.Trapped ↔ control.waitingPackets ≠ [] := by
  simp [Trapped, hwaiting]

theorem trapped_ready (hready : control.waitingGamedata ≠ 1) :
    control.Trapped ↔ ∃ packet ∈ control.waitingPackets.dropLast, control.AsksForList packet := by
  simp [Trapped, hready]

/-- A validated client in whose loop no answer for a game is awaited. -/
structure InLoop (control : V1Control) : Prop where
  flushing : control.flushing = true
  validated : control.validated = true
  unanswered : control.unanswered = []

theorem InLoop.handles (h : control.InLoop) (hhandles : control.Handles packet next) :
    next.InLoop := by
  cases hhandles with
  | passed => exact ⟨h.flushing, h.validated, h.unanswered⟩
  | game hgame => exact absurd (hgame.2.symm.trans h.validated) Bool.false_ne_true
  | list => exact ⟨h.flushing, h.validated, h.unanswered⟩

/-- A packet in front of others sets the trap or leaves it as it is. -/
theorem InLoop.trapped (h : control.InLoop) (hhandles : control.Handles packet next)
    (hqueue : control.waitingPackets ≠ []) :
    next.Trapped ↔ control.AsksForList packet ∨ control.Trapped := by
  cases hhandles with
  | passed _ hlist =>
      rw [or_iff_right hlist]
      rfl
  | game hgame => exact absurd (hgame.2.symm.trans h.validated) Bool.false_ne_true
  | list h => exact iff_of_true ((trapped_waiting rfl).mpr hqueue) (.inl h)

/-- The queue with a packet in front of others. -/
theorem trapped_cons {rest : List V1Packet} (hready : control.waitingGamedata ≠ 1)
    (hqueue : control.waitingPackets = packet :: rest) (hrest : rest ≠ []) :
    control.Trapped ↔
      control.AsksForList packet ∨ { control with waitingPackets := rest }.Trapped := by
  rw [trapped_ready hready, hqueue, List.dropLast_cons_of_ne_nil hrest,
    @trapped_ready { control with waitingPackets := rest } hready]
  simp only [List.mem_cons, exists_eq_or_imp]
  rfl

/-- No move leaves a trapped loop. -/
theorem trapped_move (hmove : Move challenge control next) (hloop : control.InLoop)
    (h : control.Trapped) : next.InLoop ∧ next.Trapped := by
  cases hmove with
  | wait _ hidle | arrive _ hidle | flush hidle =>
      exact absurd (hidle.symm.trans hloop.flushing) Bool.false_ne_true
  | rotate packet rest hbusy hwaiting hqueue =>
      refine ⟨⟨hbusy, hloop.validated, hloop.unanswered⟩, ?_⟩
      exact (@trapped_waiting { control with waitingPackets := rest ++ [packet] } hwaiting).mpr
        (by simp)
  | take packet rest hbusy hready hqueue next hhandles =>
      have hinner : { control with waitingPackets := rest }.InLoop :=
        ⟨hbusy, hloop.validated, hloop.unanswered⟩
      refine ⟨hinner.handles hhandles, ?_⟩
      -- A trapped queue has a packet behind its list command.
      have hrest : rest ≠ [] := by
        intro hempty
        subst hempty
        rw [trapped_ready hready, hqueue] at h
        simp at h
      exact (hinner.trapped hhandles hrest).mpr
        ((trapped_cons hready hqueue hrest).mp h)
  | finish _ hqueue =>
      simp [Trapped, hqueue] at h
  | unknownGame _ _ hasked | knownGame _ _ hasked => cases hloop.unanswered.symm.trans hasked

end Endless

end V1Control

namespace V1Control

variable {challenge : Bytes} {control next : V1Control} {packet : V1Packet}

section Order

/-- The packets that were handled and those that wait. -/
def packets (control : V1Control) : List V1Packet :=
  control.handled ++ control.waitingPackets

/-- Their numbers. -/
def numbers (control : V1Control) : List Nat :=
  (control.handled ++ control.waitingPackets).map (·.number)

/-- The packets that arrived, in that order, are those that were handled and those that wait. -/
def InOrder (control : V1Control) : Prop :=
  control.numbers = List.range control.arrived

instance (control : V1Control) : Decidable control.InOrder :=
  inferInstanceAs (Decidable (_ = _))

/-- The order is that of the packets. -/
theorem InOrder.same (h : control.InOrder)
    (hsame : next.packets = control.packets ∧ next.arrived = control.arrived) : next.InOrder := by
  show next.packets.map _ = List.range next.arrived
  rw [hsame.1, hsame.2]
  exact h

/-- The packet that is handled leaves the front of the queue, or was never in it. -/
theorem Handles.packets (h : control.Handles packet next) :
    next.packets = control.handled ++ packet :: control.waitingPackets := by
  obtain ⟨hqueue, -, -, hhandled⟩ := h.queue
  rw [V1Control.packets, hqueue, hhandled, List.append_assoc, List.singleton_append]

theorem Handles.numbers (h : control.Handles packet next) :
    next.numbers = control.handled.map (·.number) ++
      packet.number :: control.waitingPackets.map (·.number) := by
  rw [V1Control.numbers]
  show next.packets.map _ = _
  rw [h.packets, List.map_append, List.map_cons]

/-- The packets of `next` are those of `control` and those that are brought. -/
structure Brings (control : V1Control) (brought : List V1Packet) (next : V1Control) : Prop where
  packets : next.packets.Perm (control.packets ++ brought)
  arrived : next.arrived = control.arrived + brought.length

theorem Brings.same (hsame : next.packets = control.packets ∧ next.arrived = control.arrived) :
    control.Brings [] next :=
  ⟨by rw [hsame.1, List.append_nil], hsame.2⟩

theorem Brings.trans {last : V1Control} {first second : List V1Packet}
    (h : control.Brings first next) (hlast : next.Brings second last) :
    control.Brings (first ++ second) last := by
  refine ⟨?_, ?_⟩
  · rw [← List.append_assoc]
    exact hlast.packets.trans (h.packets.append_right _)
  · rw [List.length_append, ← Nat.add_assoc, ← h.arrived]
    exact hlast.arrived

/-- What was handled stays so, in its order. -/
theorem handled_move (hmove : Move challenge control next) : control.handled <+: next.handled := by
  cases hmove with
  | arrive _ _ _ _ hhandles | take _ _ _ _ _ _ hhandles =>
      rw [hhandles.queue.2.2.2]
      exact List.prefix_append _ _
  | wait | rotate | finish | flush | unknownGame | knownGame => exact List.prefix_refl _

theorem handled_moves (hmoves : ReflTransGen (Move challenge) control next) :
    control.handled <+: next.handled := by
  induction hmoves with
  | refl => exact List.prefix_refl _
  | tail _ hmove ih => exact ih.trans (handled_move hmove)

/-- A packet that was handled before one that arrived earlier stays so. -/
theorem not_in_order_of_prefix {handled : List V1Packet} (hfirst : handled <+: control.handled)
    (hbroken : handled.map (·.number) ≠ List.range handled.length) : ¬ control.InOrder := by
  intro h
  apply hbroken
  have hall : handled.map (·.number) <+: List.range control.arrived := by
    rw [← h, V1Control.numbers, List.map_append]
    exact (hfirst.map _).trans (List.prefix_append _ _)
  have htake := List.prefix_iff_eq_take.mp hall
  have hlength := hall.length_le
  rw [List.length_map] at htake hlength
  rw [List.length_range] at hlength
  rw [htake, List.take_range, Nat.min_eq_left hlength]

end Order

end V1Control

namespace V1Session

variable {random : V1Random} {session : V1Session}

theorem flush_round_empty (now : Int) (hbusy : session.flushing = true)
    (hqueue : session.waitingPackets = []) :
    (session.step random (.flushRound now)).toV1Control =
      { session.toV1Control with flushing := false } := by
  show (if session.flushing then session.flushRound random now else session).toV1Control = _
  rw [if_pos hbusy]
  unfold flushRound
  split
  case h_1 => rw [check_timeout_control]
  case h_2 hcons => cases hqueue.symm.trans hcons

theorem flush_round_rotates {cmd : V1Packet} {rest : List V1Packet} (now : Int)
    (hbusy : session.flushing = true) (hwaiting : session.waitingGamedata = 1)
    (hqueue : session.waitingPackets = cmd :: rest) :
    (session.step random (.flushRound now)).toV1Control =
      { session.toV1Control with waitingPackets := rest ++ [cmd] } := by
  show (if session.flushing then session.flushRound random now else session).toV1Control = _
  rw [if_pos hbusy]
  unfold flushRound
  rw [hqueue]
  show (handlePacket random { session with waitingPackets := rest } now cmd).toV1Control = _
  exact congrArg toV1Control (if_pos hwaiting)

theorem flush_round_handles {cmd : V1Packet} {rest : List V1Packet} (now : Int)
    (hbusy : session.flushing = true) (hready : session.waitingGamedata ≠ 1)
    (hqueue : session.waitingPackets = cmd :: rest) :
    { session.toV1Control with waitingPackets := rest }.Handles cmd
      (session.step random (.flushRound now)).toV1Control := by
  have heq : session.step random (.flushRound now) =
      { session with waitingPackets := rest }.handleNow random now cmd := by
    show (if session.flushing then session.flushRound random now else session) = _
    rw [if_pos hbusy]
    unfold flushRound
    rw [hqueue]
    show handlePacket random { session with waitingPackets := rest } now cmd = _
    exact if_neg hready
  rw [heq]
  exact @handle_now_handles random { session with waitingPackets := rest } now cmd

/-- A loop that is not trapped ends, after a round for each packet and one more. -/
theorem flush_ends (now : Int) (hloop : session.InLoop) (h : ¬ session.Trapped) :
    ∃ more, (after (step random) session more).flushing = false := by
  -- A packet in front of others is no list command, so the next round takes one again.
  induction hqueue : session.waitingPackets generalizing session with
  | nil =>
      exact ⟨[.flushRound now],
        congrArg V1Control.flushing (flush_round_empty now hloop.flushing hqueue)⟩
  | cons cmd rest ih =>
      have hready : session.waitingGamedata ≠ 1 := fun hwaiting =>
        h ((trapped_waiting hwaiting).mpr (by rw [hqueue]; exact List.cons_ne_nil _ _))
      have hhandles := @flush_round_handles random session cmd rest now hloop.flushing hready hqueue
      have hinner : { session.toV1Control with waitingPackets := rest }.InLoop :=
        ⟨hloop.flushing, hloop.validated, hloop.unanswered⟩
      have hnext : (session.step random (.flushRound now)).InLoop := hinner.handles hhandles
      have hrest : (session.step random (.flushRound now)).waitingPackets = rest := hhandles.queue.1
      have hfree : ¬ (session.step random (.flushRound now)).Trapped := by
        by_cases hempty : rest = []
        · simp [Trapped, hrest, hempty]
        · rw [hinner.trapped hhandles hempty]
          rwa [trapped_cons hready hqueue hempty] at h
      obtain ⟨more, hmore⟩ := ih hnext hfree hrest
      exact ⟨.flushRound now :: more, hmore⟩

/-- The right answer validates a client. -/
theorem game_info_right {gamename : Bytes} {rest : List Bytes} {gameData : Game}
    (hasked : session.unanswered = gamename :: rest) (hsecret : cString gameData.secretkey ≠ [])
    (hright : cString (gsseckeyOf (cString random.challenge) (cString gameData.secretkey)
      session.enctype) = cString session.validation) :
    session.step random (.gameInfo gameData) = { session with
      unanswered := rest, waitingGamedata := 2, game := gameData, validated := true } := by
  unfold step
  rw [hasked]
  dsimp only
  unfold onRecievedGameInfo
  dsimp only
  rw [if_neg hsecret]
  split
  case isTrue hvalidated => rw [hvalidated]
  case isFalse => rfl

/-- The loop that empties the queue of a validated client never ends, whatever happens from then on,
exactly if a list command was before the last packet of the queue, or the peer waits with packets in
the queue. -/
theorem flush_goes_on_iff {connected : Int} {run : List V1Event}
    (hbusy : (after (step random) (start random connected) run).flushing = true)
    (hvalidated : (after (step random) (start random connected) run).validated = true) :
    (∀ more, (after (step random) (after (step random) (start random connected) run)
        more).flushing = true) ↔
      (after (step random) (start random connected) run).Trapped := by
  have honce := @run_keeps random (start random connected) AsksOnce
    (fun _ _ => asks_once_move) (.inl rfl) run
  generalize after (step random) (start random connected) run = session at *
  have hloop : session.InLoop := ⟨hbusy, hvalidated, honce.none_of_validated hvalidated⟩
  constructor
  · intro hforever
    by_contra hfree
    obtain ⟨more, hends⟩ := @flush_ends random session 0 hloop hfree
    exact Bool.false_ne_true (hends.symm.trans (hforever more))
  · intro htrapped more
    exact (@run_keeps random session (fun control => control.InLoop ∧ control.Trapped)
      (fun _ _ hmove h => trapped_move hmove h.1 h.2) ⟨hloop, htrapped⟩ more).1.flushing

/-- A challenge of six characters, and zeros for what else is random. -/
def sampleRandom : V1Random where
  challenge := ascii "ABCDEF"
  cryptkey := .replicate _ 0
  memory := ⟨.replicate _ 0, .replicate _ ⟨0, 0, 0⟩, 0, ⟨0, 0, 0⟩, [], none⟩
  rand := zeroRand
  stack := zeroKey

/-- The game of a client, with its secret key. -/
def sampleGame : Game := ⟨⟨1, ascii "g"⟩, 6500, ascii "HA6zkS", []⟩

theorem sample_answer :
    gsseckeyOf (cString sampleRandom.challenge) (cString sampleGame.secretkey) 2 =
      ascii "3gMJOhl1" := by
  decide +kernel

/-- A client sends its first packets, and its game is looked up. -/
def sampleEvents (chunk : Bytes) : List V1Event :=
  [.read 0 chunk, .gameInfo sampleGame]

/-- A client of type 2 that gives the right answer is validated. -/
theorem sample_validated {chunk : Bytes}
    (hread : (step sampleRandom (start sampleRandom 0) (.read 0 chunk)).unanswered = [ascii "g"] ∧
      (step sampleRandom (start sampleRandom 0) (.read 0 chunk)).enctype = 2 ∧
      (step sampleRandom (start sampleRandom 0) (.read 0 chunk)).validation = ascii "3gMJOhl1") :
    after (step sampleRandom) (start sampleRandom 0) (sampleEvents chunk) =
      { step sampleRandom (start sampleRandom 0) (.read 0 chunk) with
        unanswered := [], waitingGamedata := 2, game := sampleGame, validated := true } := by
  obtain ⟨hasked, henctype, hvalidation⟩ := hread
  refine game_info_right hasked (by decide) ?_
  rw [henctype, hvalidation, sample_answer]

/-- A client names its game with the right answer to the challenge and asks for two lists, all
before its game is known. -/
def twoLists : List V1Event :=
  sampleEvents (ascii ("\\gamename\\g\\enctype\\2\\validate\\3gMJOhl1\\final\\" ++
    "\\list\\\\final\\\\list\\\\final\\")) ++ [.think 0]

theorem two_lists_go_on :
    (after (step sampleRandom) (start sampleRandom 0) twoLists).Trapped ∧
      ∀ more, (after (step sampleRandom)
        (after (step sampleRandom) (start sampleRandom 0) twoLists) more).flushing = true := by
  have hloop : (after (step sampleRandom) (start sampleRandom 0) twoLists).Trapped ∧
      (after (step sampleRandom) (start sampleRandom 0) twoLists).flushing = true ∧
      (after (step sampleRandom) (start sampleRandom 0) twoLists).validated = true := by
    rw [twoLists, after_append, sample_validated (by decide +kernel)]
    decide +kernel
  exact ⟨hloop.1, (flush_goes_on_iff hloop.2.1 hloop.2.2).mpr hloop.1⟩

/-- The packets that an event brings: what is cut off a read, with the numbers of the arrivals. -/
def readPackets (session : V1Session) : V1Event → List V1Packet
  | .read _ chunk =>
      if session.flushing || session.socketDeleted then []
      else
        (splitCommands (session.kvAccumulator ++ chunk)
          ((session.kvAccumulator ++ chunk).length + 1) 0).1.mapIdx
            fun i data => ⟨session.arrived + i, data⟩
  | _ => []

/-- The packets that a run brings. -/
def arrivals (random : V1Random) : V1Session → List V1Event → List V1Packet
  | _, [] => []
  | session, event :: rest =>
      session.readPackets event ++ arrivals random (session.step random event) rest

/-- A packet that arrives is handled or waits. -/
theorem arrive_brings (now : Int) (data : Bytes) :
    session.Brings [⟨session.arrived, data⟩] (session.arrive random now data).toV1Control := by
  by_cases hwaiting : session.waitingGamedata = 1
  · rw [arrive_waits now data hwaiting]
    refine ⟨?_, rfl⟩
    rw [V1Control.packets, V1Control.packets, List.append_assoc]
  · have hhandles := @arrive_handles random session now data hwaiting
    refine ⟨?_, hhandles.queue.2.2.1⟩
    rw [hhandles.packets]
    exact List.perm_middle.trans (List.perm_append_singleton _ _).symm

/-- So are those of a read. -/
theorem arrivals_bring (now : Int) (packets : List Bytes) :
    session.Brings (packets.mapIdx fun i data => ⟨session.arrived + i, data⟩)
      (packets.foldl (fun session data => session.arrive random now data) session).toV1Control := by
  induction packets generalizing session with
  | nil => exact .same ⟨rfl, rfl⟩
  | cons data rest ih =>
      have hfirst := @arrive_brings random session now data
      have hrest := @ih (session.arrive random now data)
      rw [hfirst.arrived] at hrest
      have hnumbered :
          (data :: rest).mapIdx (fun i data => V1Packet.mk (session.arrived + i) data) =
            [⟨session.arrived, data⟩] ++
              rest.mapIdx fun i data => ⟨session.arrived + 1 + i, data⟩ := by
        rw [List.mapIdx_cons]
        simp only [Nat.add_zero, Nat.add_assoc, Nat.add_comm 1, List.singleton_append]
      rw [hnumbered]
      exact hfirst.trans hrest

/-- A round of the loop handles a packet or puts it off. -/
theorem flush_round_brings (now : Int) :
    session.Brings [] (session.step random (.flushRound now)).toV1Control := by
  by_cases hbusy : session.flushing = true
  case neg =>
    have hsame : session.step random (.flushRound now) = session := if_neg hbusy
    rw [hsame]
    exact .same ⟨rfl, rfl⟩
  case pos =>
    cases hqueue : session.waitingPackets with
    | nil =>
        rw [flush_round_empty now hbusy hqueue]
        exact .same ⟨rfl, rfl⟩
    | cons cmd rest =>
        have hpackets : session.packets = session.handled ++ cmd :: rest := by
          rw [V1Control.packets, hqueue]
        by_cases hwaiting : session.waitingGamedata = 1
        · -- The packet goes from the front of the queue to its end.
          rw [flush_round_rotates now hbusy hwaiting hqueue]
          refine ⟨?_, rfl⟩
          rw [hpackets, List.append_nil]
          exact (List.perm_append_singleton cmd rest).append_left _
        · have hhandles := @flush_round_handles random session cmd rest now hbusy hwaiting hqueue
          refine ⟨?_, hhandles.queue.2.2.1⟩
          rw [hpackets, List.append_nil, hhandles.packets]

/-- Packets are moved by a read or a round of the loop only. -/
theorem step_same_packets {event : V1Event} (hread : ∀ now chunk, event ≠ .read now chunk)
    (hround : ∀ now, event ≠ .flushRound now) :
    (session.step random event).packets = session.packets ∧
      (session.step random event).arrived = session.arrived := by
  have hsame : ∀ next : V1Session, next.toV1Control = session.toV1Control →
      next.packets = session.packets ∧ V1Control.arrived next.toV1Control = session.arrived := by
    intro next h
    rw [h]
    exact ⟨rfl, rfl⟩
  cases event with
  | read now chunk => exact absurd rfl (hread now chunk)
  | flushRound now => exact absurd rfl (hround now)
  | think now =>
      show V1Control.packets (if session.flushing then session else session.think random
        now).toV1Control = _ ∧ V1Control.arrived (if session.flushing then session else
          session.think random now).toV1Control = _
      unfold think
      split
      · exact ⟨rfl, rfl⟩
      · split
        · exact ⟨rfl, rfl⟩
        · split
          · exact ⟨rfl, rfl⟩
          · exact hsame _ (check_timeout_control now)
  | gameInfo gameData =>
      unfold step
      dsimp only
      split
      case h_1 => exact ⟨rfl, rfl⟩
      case h_2 =>
        apply on_recieved_game_info_ends (motive := fun next =>
          next.packets = session.packets ∧ next.arrived = session.arrived) gameData
        case unknown =>
          rw [send_error_control]
          exact ⟨rfl, rfl⟩
        case again => exact fun _ _ => ⟨rfl, rfl⟩
        case right => exact fun _ _ _ => ⟨rfl, rfl⟩
        case wrong =>
          intro _ _ _
          rw [send_error_control]
          exact ⟨rfl, rfl⟩
  | servers req results => exact hsame _ (on_retrieved_servers_control req results)
  | groups packets lastSet => exact hsame _ (on_retrieved_groups_control packets lastSet)
  | socketClosed =>
      refine hsame _ ?_
      show (if session.flushing then session
        else { session with socketDeleted := true }.delete random).toV1Control = _
      split
      · rfl
      · exact delete_control

/-- No event loses a packet or has it twice. -/
theorem step_brings (event : V1Event) :
    session.Brings (session.readPackets event) (session.step random event).toV1Control := by
  cases event with
  | read now chunk =>
      show session.Brings (if session.flushing || session.socketDeleted then [] else _)
        (if session.flushing || session.socketDeleted then session
          else session.onStreamRead random now chunk).toV1Control
      split
      case isTrue => exact .same ⟨rfl, rfl⟩
      case isFalse =>
        rw [on_stream_read_control]
        exact arrivals_bring now _
  | flushRound now => exact flush_round_brings now
  | think | gameInfo | servers | groups | socketClosed =>
      exact .same (step_same_packets (by simp) (by simp))

theorem run_brings (run : List V1Event) :
    session.Brings (arrivals random session run)
      (after (step random) session run).toV1Control := by
  induction run generalizing session with
  | nil => exact .same ⟨rfl, rfl⟩
  | cons event rest ih => exact (step_brings event).trans ih

/-- The packets that arrive are numbered. -/
theorem arrivals_numbers (run : List V1Event) :
    (arrivals random session run).map (·.number) =
      List.range' session.arrived (arrivals random session run).length := by
  induction run generalizing session with
  | nil => rfl
  | cons event rest ih =>
      have hread : (session.readPackets event).map (·.number) =
          List.range' session.arrived (session.readPackets event).length := by
        cases event with
        | read now chunk =>
            rw [readPackets]
            split
            · rfl
            · exact List.ext_getElem (by simp) fun i _ _ => by simp
        | think | flushRound | gameInfo | servers | groups | socketClosed => rfl
      rw [arrivals, List.map_append, hread, ih, (@step_brings random session event).arrived,
        List.length_append, ← List.range'_append_1]

/-- Each packet that arrived was handled or waits, as it came, and only once. -/
theorem packets_kept (connected : Int) (run : List V1Event) :
    (after (step random) (start random connected) run).packets.Perm
        (arrivals random (start random connected) run) ∧
      (arrivals random (start random connected) run).map (·.number) =
        List.range (after (step random) (start random connected) run).arrived := by
  have hrun := @run_brings random (start random connected) run
  refine ⟨hrun.packets, ?_⟩
  rw [arrivals_numbers, hrun.arrived, List.range_eq_range']
  show List.range' 0 _ = List.range' 0 (0 + _)
  rw [Nat.zero_add]

/-- The packets of a read are handled or wait in their order, unless they overtake the queue. -/
theorem arrive_in_order_iff (now : Int) (packets : List Bytes) (hidle : session.flushing = false)
    (h : session.InOrder) :
    (packets.foldl (fun session data => session.arrive random now data) session).InOrder ↔
      packets = [] ∨ session.waitingGamedata = 1 ∨ session.waitingPackets = [] := by
  induction packets generalizing session with
  | nil => exact iff_of_true h (.inl rfl)
  | cons data rest ih =>
      rw [List.foldl_cons]
      obtain ⟨hmove, hstill⟩ := @arrive_move random session now data hidle
      have hrest := @arrive_moves random (session.arrive random now data) now rest hstill
      by_cases hwaiting : session.waitingGamedata = 1
      · refine iff_of_true ((ih hstill ?_).mpr ?_) (.inr (.inl hwaiting))
        · rw [arrive_waits now data hwaiting]
          show V1Control.numbers _ = List.range (session.arrived + 1)
          rw [List.range_succ, V1Control.numbers, ← List.append_assoc, List.map_append]
          exact congrArg (· ++ [session.arrived]) h
        · rw [arrive_waits now data hwaiting]
          exact .inr (.inl hwaiting)
      · have hhandles := @arrive_handles random session now data hwaiting
        by_cases hqueue : session.waitingPackets = []
        · refine iff_of_true ((ih hstill ?_).mpr (.inr (.inr ?_))) (.inr (.inr hqueue))
          · show V1Control.numbers _ = List.range (V1Control.arrived _)
            rw [hhandles.numbers, hhandles.queue.2.2.1]
            show _ ++ session.arrived :: session.waitingPackets.map (·.number) =
              List.range (session.arrived + 1)
            rw [List.range_succ, ← h, V1Control.numbers, hqueue, List.append_nil]
            rfl
          · rw [hhandles.queue.1]
            exact hqueue
        · refine iff_of_false ?_ (by simp [hwaiting, hqueue])
          -- The packet overtook those that wait, and it does not go back.
          refine not_in_order_of_prefix (handled_moves hrest) ?_
          rw [hhandles.queue.2.2.2]
          intro hrange
          have hlast := congrArg List.getLast? hrange
          rw [List.map_append, List.map_singleton, List.getLast?_concat, List.length_append,
            List.length_singleton, List.range_succ, List.getLast?_concat] at hlast
          have hlength := congrArg List.length h
          rw [V1Control.numbers, List.length_map, List.length_append, List.length_range] at hlength
          have harrived : session.arrived = session.handled.length := Option.some.inj hlast
          exact hqueue (List.length_eq_zero_iff.mp (by omega))

/-- An event that keeps the packets in the order of their arrival: a read handles no packet while
others wait, and the loop does not put off a packet that is not alone. -/
def Orderly (session : V1Session) : V1Event → Prop
  | .read _ chunk =>
      session.flushing = true ∨ session.socketDeleted = true ∨
        (splitCommands (session.kvAccumulator ++ chunk)
          ((session.kvAccumulator ++ chunk).length + 1) 0).1 = [] ∨
        session.waitingGamedata = 1 ∨ session.waitingPackets = []
  | .flushRound _ =>
      session.flushing = false ∨ session.waitingGamedata ≠ 1 ∨ session.waitingPackets.length ≤ 1
  | _ => True

/-- A round of the loop keeps the order, unless it puts off a packet behind another. -/
theorem flush_round_in_order_iff (now : Int) (hbusy : session.flushing = true)
    (h : session.InOrder) :
    (session.step random (.flushRound now)).InOrder ↔
      session.waitingGamedata ≠ 1 ∨ session.waitingPackets.length ≤ 1 := by
  cases hqueue : session.waitingPackets with
  | nil =>
      refine iff_of_true ?_ (.inr (Nat.zero_le _))
      rw [flush_round_empty now hbusy hqueue]
      exact h
  | cons cmd rest =>
      by_cases hwaiting : session.waitingGamedata = 1
      case neg =>
        refine iff_of_true ?_ (.inl hwaiting)
        have hhandles := @flush_round_handles random session cmd rest now hbusy hwaiting hqueue
        show V1Control.numbers _ = List.range (V1Control.arrived _)
        rw [hhandles.numbers, hhandles.queue.2.2.1]
        show _ = List.range session.arrived
        rw [← h, V1Control.numbers, hqueue, List.map_append, List.map_cons]
      case pos =>
        rw [flush_round_rotates now hbusy hwaiting hqueue, or_iff_right (not_not_intro hwaiting)]
        have hnodup : session.numbers.Nodup := by
          rw [h]
          exact List.nodup_range
        have hsame : { session.toV1Control with waitingPackets := rest ++ [cmd] }.InOrder ↔
            rest.map (·.number) ++ [cmd.number] = cmd.number :: rest.map (·.number) := by
          show (session.handled ++ (rest ++ [cmd])).map (·.number) = List.range session.arrived ↔ _
          rw [← h, V1Control.numbers, hqueue, List.map_append, List.map_append, List.map_append,
            List.append_cancel_left_eq, List.map_singleton, List.map_cons]
        rw [hsame]
        cases rest with
        | nil => simp
        | cons second rest =>
            -- The packet that was put off would have the number of the second.
            refine iff_of_false (fun heq => ?_) (by simp)
            have hsecond : second.number = cmd.number := (List.cons.inj heq).1
            rw [V1Control.numbers, hqueue, List.map_append, List.map_cons, List.map_cons,
              hsecond] at hnodup
            have hqueued := (List.nodup_append.mp hnodup).2.1
            exact (List.nodup_cons.mp hqueued).1 List.mem_cons_self

/-- One event keeps the order exactly if it is orderly. -/
theorem step_in_order_iff (event : V1Event) (h : session.InOrder) :
    (session.step random event).InOrder ↔ session.Orderly event := by
  cases event with
  | read now chunk =>
      show (if session.flushing || session.socketDeleted then session
        else session.onStreamRead random now chunk).InOrder ↔ _
      split
      case isTrue hbusy =>
        refine iff_of_true h ?_
        obtain hbusy | hclosed := Bool.or_eq_true_iff.mp hbusy
        · exact .inl hbusy
        · exact .inr (.inl hclosed)
      case isFalse hfree =>
        rw [Bool.or_eq_true, not_or] at hfree
        rw [on_stream_read_control, arrive_in_order_iff now _ (Bool.eq_false_iff.mpr hfree.1) h]
        show _ ↔ session.flushing = true ∨ session.socketDeleted = true ∨ _
        rw [or_iff_right hfree.1, or_iff_right hfree.2]
  | flushRound now =>
      by_cases hbusy : session.flushing = true
      · rw [flush_round_in_order_iff now hbusy h]
        have hnot : ¬ session.flushing = false := fun hidle =>
          Bool.false_ne_true (hidle.symm.trans hbusy)
        show _ ↔ session.flushing = false ∨ _
        rw [or_iff_right hnot]
      · refine iff_of_true ?_ (.inl (Bool.eq_false_iff.mpr hbusy))
        show (if session.flushing then session.flushRound random now else session).InOrder
        rwa [if_neg hbusy]
  | think | gameInfo | servers | groups | socketClosed =>
      exact iff_of_true (h.same (step_same_packets (by simp) (by simp))) trivial

/-- The packets are handled and wait in the order of their arrival, all through a run, exactly if
every event of it is orderly. -/
theorem packets_in_order_iff (connected : Int) (run : List V1Event) :
    (∀ before, before <+: run → (after (step random) (start random connected) before).InOrder) ↔
      AtEach (step random) (start random connected) Orderly run :=
  @throughout_iff _ _ (step random) (start random connected) (fun session => session.InOrder)
    Orderly rfl (fun _ event h => step_in_order_iff event h) run

end V1Session

end OpenSpy.ServerBrowsing
