import Mathlib.Algebra.Order.Ring.Int
import OpenSpy.Library.LeakyBucket
import OpenSpy.Library.Runs
import OpenSpy.Peerchat.Flags
import OpenSpy.Peerchat.LineReader

/-!
# Commands and floods

`handle_command` looks a command up in the table of commands and calls its handler if the user may
use it and has given enough parameters. Each call adds the weight of the command to the flood weight
of the peer, and each turn of the loop takes `FLOOD_DECR_PER_TICK` off, once it has looked whether
the peer is to go. So the flood weight is a leaky bucket, and `excess_flood_iff` says which windows
of commands are a flood.

What the handlers do is a parameter of the model: they change the rest of the peer, the session, in
any way. The flood weight is an integer here and an `int` in the source. For a peer that is exempt
from the limit it can grow for as long as the peer stays; `flood_weight_fits` says how many commands
it takes at least to leave the range of an `int`.
-/

namespace OpenSpy.Peerchat

open Bytes LeakyBucket Runs

/-- `MAX_FLOOD_WEIGHT`. -/
def maxFloodWeight : Int := 10000

/-- `FLOOD_DECR_PER_TICK`. -/
def floodDecrPerTick : Int := 25

/-- `WARNING_FLOOD_WEIGHT_THRESHOLD`. -/
def warningFloodWeightThreshold : Int := 5500

/-- `REGISTRATION_TIMEOUT`. -/
def registrationTimeout : Int := 60

/-- `PEERCHAT_PING_TIMEOUT_TIME`. -/
def peerchatPingTimeoutTime : Int := 300

/-- `OPERPRIVS_KILL`. -/
def operKill : BitVec 32 := BitVec.twoPow 32 7

/-- `OPERPRIVS_FLOODEXCEMPT`. -/
def floodExcempt : BitVec 32 := BitVec.twoPow 32 8

/-- A `CommandEntry` without its handler, which goes by the name. -/
structure CommandEntry where
  name : String
  loginRequired : Bool
  minimumArgs : Nat
  requiredOperflags : BitVec 32 := 0
  weight : Int := 50

/-- `Peer::m_commands`. -/
def commands : List CommandEntry :=
  [⟨"CRYPT", false, 3, 0, 50⟩, ⟨"NICK", false, 1, 0, 150⟩, ⟨"REGISTERNICK", false, 1, 0, 150⟩,
    ⟨"USER", false, 4, 0, 50⟩, ⟨"PING", false, 0, 0, 50⟩, ⟨"PONG", false, 0, 0, 50⟩,
    ⟨"CDKEY", false, 1, 0, 50⟩, ⟨"OPER", false, 3, 0, 250⟩, ⟨"LOGIN", false, 3, 0, 250⟩,
    ⟨"LOGINPREAUTH", false, 2, 0, 250⟩, ⟨"PRIVMSG", true, 2, 0, 50⟩, ⟨"NOTICE", true, 2, 0, 50⟩,
    ⟨"UTM", true, 2, 0, 50⟩, ⟨"ATM", true, 2, 0, 50⟩, ⟨"JOIN", true, 1, 0, 100⟩,
    ⟨"PART", true, 1, 0, 50⟩, ⟨"QUIT", false, 1, 0, 50⟩, ⟨"MODE", true, 1, 0, 100⟩,
    ⟨"NAMES", true, 1, 0, 50⟩, ⟨"USRIP", false, 0, 0, 50⟩, ⟨"USERHOST", false, 0, 0, 50⟩,
    ⟨"TOPIC", true, 1, 0, 100⟩, ⟨"LIST", true, 0, 0, 300⟩, ⟨"LISTLIMIT", true, 2, 0, 300⟩,
    ⟨"WHOIS", true, 1, 0, 100⟩, ⟨"WHO", true, 1, 0, 50⟩, ⟨"SETCKEY", true, 3, 0, 10⟩,
    ⟨"GETCKEY", true, 5, 0, 10⟩, ⟨"SETCHANKEY", true, 2, 0, 10⟩, ⟨"GETCHANKEY", true, 4, 0, 10⟩,
    ⟨"SETKEY", true, 1, 0, 10⟩, ⟨"GETKEY", true, 4, 0, 10⟩, ⟨"KICK", true, 2, 0, 200⟩,
    ⟨"SETGROUP", true, 2, 0, 100⟩, ⟨"LUSERS", true, 0, listOpers, 50⟩,
    ⟨"KILL", true, 2, operKill, 50⟩, ⟨"SETUSERMODE", true, 2, globalOwner, 50⟩,
    ⟨"DELUSERMODE", true, 1, globalOwner, 50⟩, ⟨"LISTUSERMODES", true, 1, globalOwner, 50⟩,
    ⟨"LISTCHANPROPS", true, 1, globalOwner, 50⟩, ⟨"SETCHANPROPS", true, 1, globalOwner, 50⟩,
    ⟨"DELCHANPROPS", true, 1, globalOwner, 50⟩]

/-- `toupper`. -/
def toUpper (b : UInt8) : UInt8 :=
  if 97 ≤ b && b ≤ 122 then b - 32 else b

/-- What the commands and the loop need of the rest of the peer. -/
structure CommandHandler (σ : Type) where
  /-- `m_user_details.id`. -/
  userId : σ → Int
  /-- `m_sent_client_init`. -/
  sentClientInit : σ → Bool
  /-- `Peer::GetOperFlags`. -/
  operFlags : σ → BitVec 32
  /-- `m_delete_flag`. -/
  deleteFlag : σ → Bool
  /-- `m_connect_time`. -/
  connectTime : σ → Int
  /-- `m_last_recv`. -/
  lastRecv : σ → Int
  /-- `m_last_recv` is set. -/
  received : σ → Int → σ
  /-- The handler of a command. -/
  callback : String → σ → List Bytes → σ
  /-- `Peer::send_numeric`, without a colon. -/
  sendNumeric : σ → Nat → Bytes → σ
  /-- `Peer::send_flood_warning`, with the flood weight. -/
  sendFloodWarning : σ → Int → σ
  /-- `Peer::send_ping` and `Peer::perform_keepalive`. -/
  upkeep : σ → Int → σ
  /-- `Peer::Delete(timeout, reason)`. -/
  delete : σ → Bool → Bytes → σ

/-- A peer with the record of what it did. `floodWeight` is `m_flood_weight`, without the bounds of
its type (`flood_weight_fits`). `handled` are the commands whose handlers were called
since the last turn of the loop, `periods` those of the turns before, and `excess` tells whether a
turn deleted it for an excess flood. -/
structure CommandPeer (σ : Type) where
  session : σ
  floodWeight : Int
  handled : List CommandEntry
  periods : List (List CommandEntry)
  excess : Bool

namespace CommandPeer

variable {σ : Type} (handler : CommandHandler σ) (peer : CommandPeer σ)

/-- A peer that has just been accepted. -/
def start (session : σ) : CommandPeer σ :=
  ⟨session, 0, [], [], false⟩

/-- The user may use a command. -/
def permitted (session : σ) (entry : CommandEntry) : Bool :=
  (!entry.loginRequired || handler.userId session != 0 && handler.sentClientInit session) &&
    (entry.requiredOperflags == 0 || hasFlag (handler.operFlags session) entry.requiredOperflags)

/-- The call of a handler in `handle_command`. -/
def call (entry : CommandEntry) (commandItems : List Bytes) : CommandPeer σ :=
  let floodWeight := peer.floodWeight + entry.weight
  let session :=
    if floodWeight ≥ warningFloodWeightThreshold then
      handler.sendFloodWarning peer.session floodWeight
    else peer.session
  { peer with
    session := handler.callback entry.name session commandItems
    floodWeight := floodWeight
    handled := peer.handled ++ [entry] }

/-- `Peer::handle_command`. A command that the user may not use is answered like one that there is
not, and neither that nor a command without enough parameters has a weight. -/
def handleCommand (input : Bytes) : CommandPeer σ :=
  let commandItems := keyStringToVector input (char ' ')
  match commandItems with
  | [] => peer
  | command :: _ =>
      let commandUpper := command.map toUpper
      let unknown :=
        { peer with
          session := handler.sendNumeric peer.session 421
            (commandUpper ++ ascii " :Unknown Command") }
      match commands.find? fun entry => ascii entry.name == commandUpper with
      | none => unknown
      | some entry =>
          if permitted handler peer.session entry then
            if commandItems.length ≥ entry.minimumArgs + 1 then
              peer.call handler entry commandItems
            else
              { peer with
                session := handler.sendNumeric peer.session 461
                  (commandUpper ++ ascii " :Not enough parameters") }
          else unknown

/-- `Peer::think`. The flood weight is looked at before it goes down. -/
def think (now : Int) : CommandPeer σ :=
  if handler.deleteFlag peer.session then peer
  else
    let session := handler.upkeep peer.session now
    if !hasFlag (handler.operFlags session) floodExcempt && peer.floodWeight ≥ maxFloodWeight then
      { peer with
        session := handler.delete session false (ascii "Excess flood")
        excess := true }
    else
      let floodWeight :=
        if peer.floodWeight > 0 then peer.floodWeight - floodDecrPerTick else peer.floodWeight
      let session :=
        if now - handler.connectTime session > registrationTimeout &&
            !handler.sentClientInit session then
          handler.delete session true (ascii "Registration Timeout")
        else if now - handler.lastRecv session > peerchatPingTimeoutTime then
          handler.delete session true (ascii "Ping Timeout")
        else session
      { peer with
        session := session
        floodWeight := if floodWeight < 0 then 0 else floodWeight
        handled := []
        periods := peer.periods ++ [peer.handled] }

/-- The peer as the reader of lines needs it. -/
def lineHandler : LineHandler (CommandPeer σ) where
  handleCommand := handleCommand handler
  deleteFlag peer := handler.deleteFlag peer.session
  delete peer reason := { peer with session := handler.delete peer.session false reason }

end CommandPeer

/-- What happens to a peer: bytes that are read, a turn of the loop, and a task or another peer that
changes the session. -/
inductive FloodEvent (σ : Type) where
  | read (now : Int) (chunk : Bytes)
  | think (now : Int)
  | change (changed : σ → σ)

/-- An event of a peer. -/
def floodStep {σ : Type} (handler : CommandHandler σ) (peer : LinePeer (CommandPeer σ)) :
    FloodEvent σ → LinePeer (CommandPeer σ)
  | .read now chunk =>
      let session := { peer.session with session := handler.received peer.session.session now }
      { peer with session := session }.onStreamRead (CommandPeer.lineHandler handler) chunk
  | .think now => { peer with session := peer.session.think handler now }
  | .change changed =>
      { peer with session := { peer.session with session := changed peer.session.session } }

/-- The weight of some commands. -/
def totalWeight (handled : List CommandEntry) : Int :=
  (handled.map (·.weight)).sum

/-- The commands since the last turn of the loop are a flood, with those of some turns before: they
weigh as much as is allowed at once and as has been taken off since. -/
def Floods {σ : Type} (peer : CommandPeer σ) : Prop :=
  ∃ window, window <:+ peer.periods ∧
    maxFloodWeight + window.length * floodDecrPerTick ≤
      totalWeight window.flatten + totalWeight peer.handled

namespace CommandPeer

variable {σ : Type} {handler : CommandHandler σ} {peer : CommandPeer σ}

/-- The flood weight is what the bucket of the periods holds, and the commands behind them. -/
def Weighed (peer : CommandPeer σ) : Prop :=
  peer.floodWeight = level floodDecrPerTick (peer.periods.map totalWeight) +
    totalWeight peer.handled

theorem total_weight_concat (handled : List CommandEntry) (entry : CommandEntry) :
    totalWeight (handled ++ [entry]) = totalWeight handled + entry.weight := by
  simp [totalWeight]

theorem total_weight_flatten (window : List (List CommandEntry)) :
    totalWeight window.flatten = (window.map totalWeight).sum := by
  induction window with
  | nil => rfl
  | cons handled window ih =>
      rw [List.flatten_cons, List.map_cons, List.sum_cons, ← ih]
      simp [totalWeight]

/-- Windows of the periods are windows of their weights. -/
theorem Weighed.floods_iff (h : peer.Weighed) :
    maxFloodWeight ≤ peer.floodWeight ↔ Floods peer := by
  have hshift : maxFloodWeight ≤ peer.floodWeight ↔
      maxFloodWeight - totalWeight peer.handled ≤
        level floodDecrPerTick (peer.periods.map totalWeight) := by
    rw [h]
    omega
  rw [hshift, le_level_iff]
  constructor
  · rintro ⟨weights, hweights, hheavy⟩
    obtain ⟨window, hwindow, rfl⟩ := List.suffix_map_iff.mp hweights
    refine ⟨window, hwindow, ?_⟩
    rw [total_weight_flatten]
    rw [List.length_map, nsmul_eq_mul] at hheavy
    omega
  · rintro ⟨window, hwindow, hheavy⟩
    refine ⟨window.map totalWeight, hwindow.map totalWeight, ?_⟩
    rw [total_weight_flatten] at hheavy
    rw [List.length_map, nsmul_eq_mul]
    omega

/-- A command calls a handler, or an answer is all there is. -/
theorem handle_command_cases (handler : CommandHandler σ) (peer : CommandPeer σ) (input : Bytes) :
    (∃ session, peer.handleCommand handler input = { peer with session := session }) ∨
      ∃ entry ∈ commands, ∃ commandItems, peer.handleCommand handler input =
        peer.call handler entry commandItems := by
  rw [handleCommand]
  dsimp only
  split
  · exact .inl ⟨peer.session, rfl⟩
  · split
    · exact .inl ⟨_, rfl⟩
    case h_2 entry hfind =>
      split
      · split
        · exact .inr ⟨entry, List.mem_of_find?_eq_some hfind, _, rfl⟩
        · exact .inl ⟨_, rfl⟩
      · exact .inl ⟨_, rfl⟩

/-- A turn of the loop that finds a flood. -/
def FloodFound (handler : CommandHandler σ) (peer : CommandPeer σ) (now : Int) : Prop :=
  handler.deleteFlag peer.session = false ∧
    hasFlag (handler.operFlags (handler.upkeep peer.session now)) floodExcempt = false ∧
    maxFloodWeight ≤ peer.floodWeight

/-- A turn of the loop does nothing, or deletes the peer for a flood, or begins a period. -/
theorem think_cases (handler : CommandHandler σ) (peer : CommandPeer σ) (now : Int) :
    (¬ FloodFound handler peer now ∧ peer.think handler now = peer) ∨
      (FloodFound handler peer now ∧ ∃ session,
        peer.think handler now = { peer with session := session, excess := true }) ∨
      (¬ FloodFound handler peer now ∧ ∃ session, peer.think handler now =
        { peer with
          session := session
          floodWeight := settle floodDecrPerTick peer.floodWeight 0
          handled := []
          periods := peer.periods ++ [peer.handled] }) := by
  rw [think]
  dsimp only
  split
  case isTrue hdeleted =>
    exact .inl ⟨fun h => Bool.false_ne_true (h.1.symm.trans hdeleted), rfl⟩
  case isFalse hdeleted =>
    have hdeleted : handler.deleteFlag peer.session = false := Bool.eq_false_iff.mpr hdeleted
    split
    case isTrue hflood =>
      rw [Bool.and_eq_true, Bool.not_eq_true', decide_eq_true_eq] at hflood
      exact .inr (.inl ⟨⟨hdeleted, hflood⟩, _, rfl⟩)
    case isFalse hflood =>
      rw [Bool.and_eq_true, Bool.not_eq_true', decide_eq_true_eq] at hflood
      -- What is left over is never below zero, whether or not the weight was above what leaks.
      have hleft : (if (if peer.floodWeight > 0 then peer.floodWeight - floodDecrPerTick
            else peer.floodWeight) < 0 then 0
          else if peer.floodWeight > 0 then peer.floodWeight - floodDecrPerTick
            else peer.floodWeight) = settle floodDecrPerTick peer.floodWeight 0 := by
        rw [settle, floodDecrPerTick]
        omega
      rw [hleft]
      exact .inr (.inr ⟨fun h => hflood h.2, _, rfl⟩)

/-- The calls of handlers are weighed as they are made. -/
theorem Weighed.handleCommand (h : peer.Weighed) (input : Bytes) :
    (peer.handleCommand handler input).Weighed := by
  obtain ⟨session, heq⟩ | ⟨entry, -, commandItems, heq⟩ := handle_command_cases handler peer input
  · rw [heq]
    exact h
  · rw [heq]
    show peer.floodWeight + entry.weight =
      level floodDecrPerTick (peer.periods.map totalWeight) + totalWeight (peer.handled ++ [entry])
    rw [total_weight_concat, ← Int.add_assoc, ← h]

/-- A turn of the loop begins a period, unless it deletes the peer for a flood. -/
theorem Weighed.think (h : peer.Weighed) (now : Int) : (peer.think handler now).Weighed := by
  obtain ⟨-, heq⟩ | ⟨-, session, heq⟩ | ⟨-, session, heq⟩ := think_cases handler peer now
  · rw [heq]
    exact h
  · rw [heq]
    exact h
  · rw [heq]
    show settle floodDecrPerTick peer.floodWeight 0 =
      level floodDecrPerTick ((peer.periods ++ [peer.handled]).map totalWeight) + 0
    rw [List.map_append, List.map_singleton, level_concat, Int.add_zero, h, settle, settle,
      Int.add_zero]

/-- The commands whose handlers were called. -/
def calls (peer : CommandPeer σ) : List CommandEntry :=
  peer.periods.flatten ++ peer.handled

/-- No command weighs more than 300, so the weight is at most that for each call. -/
structure Bounded (peer : CommandPeer σ) : Prop where
  nonneg : 0 ≤ peer.floodWeight
  le : peer.floodWeight ≤ 300 * peer.calls.length

theorem commands_weight : ∀ entry ∈ commands, 0 ≤ entry.weight ∧ entry.weight ≤ 300 := by
  decide

theorem Bounded.handleCommand (h : peer.Bounded) (input : Bytes) :
    (peer.handleCommand handler input).Bounded := by
  obtain ⟨session, heq⟩ | ⟨entry, hmem, commandItems, heq⟩ :=
    handle_command_cases handler peer input
  · rw [heq]
    exact ⟨h.nonneg, h.le⟩
  · obtain ⟨hlow, hhigh⟩ := commands_weight entry hmem
    have hcalls : (peer.call handler entry commandItems).calls.length = peer.calls.length + 1 := by
      simp only [calls, call, List.length_append, List.length_singleton, Nat.add_assoc]
    rw [heq]
    refine ⟨Int.add_nonneg h.nonneg hlow, ?_⟩
    rw [hcalls, Nat.cast_add_one, Int.mul_add, Int.mul_one]
    exact Int.add_le_add h.le hhigh

theorem Bounded.think (h : peer.Bounded) (now : Int) : (peer.think handler now).Bounded := by
  obtain ⟨-, heq⟩ | ⟨-, session, heq⟩ | ⟨-, session, heq⟩ := think_cases handler peer now
  · rw [heq]
    exact h
  · rw [heq]
    exact ⟨h.nonneg, h.le⟩
  · rw [heq]
    have hsettle : 0 ≤ settle floodDecrPerTick peer.floodWeight 0 ∧
        settle floodDecrPerTick peer.floodWeight 0 ≤ peer.floodWeight := by
      have hnonneg := h.nonneg
      rw [settle, floodDecrPerTick]
      omega
    refine ⟨hsettle.1, hsettle.2.trans ?_⟩
    simpa [calls] using h.le

theorem handle_command_excess (peer : CommandPeer σ) (input : Bytes) :
    (peer.handleCommand handler input).excess = peer.excess := by
  obtain ⟨session, heq⟩ | ⟨entry, -, commandItems, heq⟩ := handle_command_cases handler peer input
  · rw [heq]
  · rw [heq, call]

/-- A turn of the loop deletes a peer for a flood exactly if it finds one. -/
theorem think_excess (peer : CommandPeer σ) (now : Int) :
    (peer.think handler now).excess = true ↔
      peer.excess = true ∨ FloodFound handler peer now := by
  obtain ⟨hnone, heq⟩ | ⟨hfound, session, heq⟩ | ⟨hnone, session, heq⟩ :=
    think_cases handler peer now
  · rw [heq, or_iff_left hnone]
  · rw [heq]
    exact iff_of_true rfl (.inr hfound)
  · rw [heq, or_iff_left hnone]

end CommandPeer

/-- A read keeps what every command and the deletion for a long line keep. -/
theorem LinePeer.on_stream_read_keeps {σ : Type*} {handler : LineHandler σ} {holds : σ → Prop}
    (hcommand : ∀ session input, holds session → holds (handler.handleCommand session input))
    (hdelete : ∀ session reason, holds session → holds (handler.delete session reason))
    {peer : LinePeer σ} (h : holds peer.session) (chunk : Bytes) :
    holds (peer.onStreamRead handler chunk).session := by
  have hlines : ∀ (lines : List Bytes) (peer : LinePeer σ), holds peer.session →
      holds (peer.handleCommandLines handler lines).session := by
    intro lines
    induction lines with
    | nil => exact fun peer h => h
    | cons line rest ih =>
        intro peer h
        rw [LinePeer.handleCommandLines]
        split
        · exact h
        · exact ih _ (hcommand _ _ h)
  have hloop : ∀ (fuel : Nat) (peer : LinePeer σ) (p : Bytes), holds peer.session →
      holds (readLoop handler fuel peer p).session := by
    intro fuel
    induction fuel with
    | zero => exact fun peer p h => h
    | succ fuel ih =>
        intro peer p h
        rw [readLoop]
        split
        · exact h
        · split
          · exact ih _ _ (hlines _ _ h)
          · exact h
  rw [LinePeer.onStreamRead]
  split
  · exact hdelete _ _ (hloop _ _ _ h)
  · exact hloop _ _ _ h

section Runs

variable {σ : Type} {handler : CommandHandler σ}

/-- Every event keeps the weights. -/
theorem flood_step_weighed {peer : LinePeer (CommandPeer σ)} (h : peer.session.Weighed)
    (event : FloodEvent σ) : (floodStep handler peer event).session.Weighed := by
  cases event with
  | read now chunk =>
      exact @LinePeer.on_stream_read_keeps _ (CommandPeer.lineHandler handler) CommandPeer.Weighed
        (fun _ input h => h.handleCommand input) (fun _ _ h => h)
        { peer with
          session := { peer.session with session := handler.received peer.session.session now } }
        h chunk
  | think now => exact h.think now
  | change changed => exact h

theorem flood_step_bounded {peer : LinePeer (CommandPeer σ)} (h : peer.session.Bounded)
    (event : FloodEvent σ) : (floodStep handler peer event).session.Bounded := by
  cases event with
  | read now chunk =>
      exact @LinePeer.on_stream_read_keeps _ (CommandPeer.lineHandler handler) CommandPeer.Bounded
        (fun _ input h => h.handleCommand input) (fun _ _ h => ⟨h.nonneg, h.le⟩)
        { peer with
          session := { peer.session with session := handler.received peer.session.session now } }
        ⟨h.nonneg, h.le⟩ chunk
  | think now => exact h.think now
  | change changed => exact ⟨h.nonneg, h.le⟩

/-- The flood weight of a peer is in the range of an `int` up to that many commands, whoever may
send them. -/
theorem flood_weight_fits {session : σ} {run : List (FloodEvent σ)}
    (hcalls : (after (floodStep handler) (LinePeer.start (CommandPeer.start session))
      run).session.calls.length ≤ 7158278) :
    0 ≤ (after (floodStep handler) (LinePeer.start (CommandPeer.start session))
        run).session.floodWeight ∧
      (after (floodStep handler) (LinePeer.start (CommandPeer.start session))
        run).session.floodWeight < 2 ^ 31 := by
  have hbounded : (after (floodStep handler) (LinePeer.start (CommandPeer.start session))
      run).session.Bounded :=
    @invariant _ _ _ _ (fun peer : LinePeer (CommandPeer σ) => peer.session.Bounded)
      ⟨le_refl 0, le_refl 0⟩ (fun _ event h => flood_step_bounded h event) run
  have hle := hbounded.le
  exact ⟨hbounded.nonneg, by omega⟩

/-- Only turns of the loop delete a peer for a flood. -/
theorem read_excess (peer : LinePeer (CommandPeer σ)) (now : Int) (chunk : Bytes) :
    (floodStep handler peer (.read now chunk)).session.excess = peer.session.excess :=
  @LinePeer.on_stream_read_keeps _ _ (fun session => session.excess = peer.session.excess)
    (fun session input h => (CommandPeer.handle_command_excess session input).trans h)
    (fun _ _ h => h)
    { peer with
      session := { peer.session with session := handler.received peer.session.session now } }
    rfl chunk

/-- An event deletes a peer for a flood exactly if it is a turn of the loop that finds one. -/
theorem flood_step_excess (peer : LinePeer (CommandPeer σ)) (event : FloodEvent σ) :
    (floodStep handler peer event).session.excess = true ↔ peer.session.excess = true ∨
      ∃ now, event = .think now ∧ CommandPeer.FloodFound handler peer.session now := by
  cases event with
  | read now chunk => rw [read_excess, or_iff_left (by rintro ⟨_, hthink, -⟩; cases hthink)]
  | think now =>
      show (peer.session.think handler now).excess = true ↔ _
      rw [CommandPeer.think_excess]
      simp
  | change changed => exact (or_iff_left (by rintro ⟨_, hthink, -⟩; cases hthink)).symm

/-- Whatever a peer reads, in whatever chunks, and however the turns of the loop and the changes
that others make fall between: a turn deletes it for an excess flood exactly if some turn met a
peer that was not deleted nor exempt, and whose commands were a flood. -/
theorem excess_flood_iff (handler : CommandHandler σ) (session : σ) (run : List (FloodEvent σ)) :
    (after (floodStep handler) (LinePeer.start (CommandPeer.start session)) run).session.excess =
        true ↔
      ∃ before now rest, run = before ++ .think now :: rest ∧
        let peer := (after (floodStep handler) (LinePeer.start (CommandPeer.start session))
          before).session
        handler.deleteFlag peer.session = false ∧
          hasFlag (handler.operFlags (handler.upkeep peer.session now)) floodExcempt = false ∧
          Floods peer := by
  have hweighed : ∀ run, (after (floodStep handler)
      (LinePeer.start (CommandPeer.start session)) run).session.Weighed :=
    @invariant _ _ _ _ (fun peer : LinePeer (CommandPeer σ) => peer.session.Weighed) rfl
      fun _ event h => flood_step_weighed h event
  have hexcess := @shown_iff _ _ (floodStep handler) (LinePeer.start (CommandPeer.start session))
    (fun peer : LinePeer (CommandPeer σ) => peer.session.excess = true) _ Bool.false_ne_true
    flood_step_excess run
  rw [hexcess]
  constructor
  · rintro ⟨before, _, rest, hrun, now, rfl, hdeleted, hexempt, hweight⟩
    exact ⟨before, now, rest, hrun, hdeleted, hexempt, (hweighed before).floods_iff.mp hweight⟩
  · rintro ⟨before, now, rest, hrun, hdeleted, hexempt, hflood⟩
    exact ⟨before, _, rest, hrun, now, rfl, hdeleted, hexempt,
      (hweighed before).floods_iff.mpr hflood⟩

end Runs

end OpenSpy.Peerchat
