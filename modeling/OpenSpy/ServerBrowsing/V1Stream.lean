import OpenSpy.Core.FinalMarker

/-!
# Framing of the V1 server browser

V1 clients end each command with `\final\`, too, and may put a query id in front of it. The
loop of `V1Peer::on_stream_read` differs from that of the other peers: it strips the query id
of each piece, stops at a piece that is then empty, and hands the text behind the last
terminator to `handle_packet` as well as keeping it.

A cut is harmless if nothing is left of the pending bytes without their query id, and they are
kept. `v1_handles_each_command` says that a stream with harmless cuts only is handled command
by command.
-/

namespace OpenSpy.ServerBrowsing

open Delimited Bytes

/-- `MAX_UNPROCESSED_DATA` of `V1Peer.h`. -/
def maxUnprocessedData : Nat := 5000

/-- The query id at the front is skipped, with the backslash behind it if there is one. -/
def stripId (s : Bytes) : Bytes :=
  if s.take 9 = ascii "\\queryid\\" then
    let s := s.drop 9
    if char '\\' ∈ s then s.drop (s.idxOf (char '\\') + 1) else s
  else s

/-- `V1Peer::skip_queryid`, which skips a new line as well. -/
def skipQueryid (s : Bytes) : Bytes :=
  let s := stripId s
  if s.take 2 = ascii "\r\n" then s.drop 2 else s

/-- The string as an argument of `handle_packet`, unless it is empty. -/
def unlessEmpty (partialString : Bytes) : List Bytes :=
  if partialString = [] then [] else [partialString]

/-- The loop of `on_stream_read`: what is given to `handle_packet`, and the final `last_pos`. -/
def splitCommands (recvBuf : Bytes) : Nat → Nat → List Bytes × Nat
  | 0, lastPos => ([], lastPos)
  | fuel + 1, lastPos =>
      match findFinal recvBuf lastPos with
      | none => (unlessEmpty (skipQueryid (recvBuf.drop lastPos)), lastPos)
      | some finalPos =>
          let partialString := skipQueryid (substr recvBuf lastPos (finalPos - lastPos))
          if partialString = [] then ([], finalPos + 7)
          else
            let rest := splitCommands recvBuf fuel (finalPos + 7)
            (partialString :: rest.1, rest.2)

/-- What a read uses and changes of a V1 peer; `handled` lists the arguments of `handle_packet`
so far. -/
structure V1Peer where
  kvAccumulator : Bytes
  deleteFlag : Bool
  handled : List Bytes
  deriving DecidableEq, Repr

namespace V1Peer

/-- A peer that has read nothing. -/
def start : V1Peer := ⟨[], false, []⟩

/-- `V1Peer::on_stream_read`. Each round but the last moves `last_pos` by at least seven, so
the text bounds the number of rounds. -/
def onStreamRead (peer : V1Peer) (chunk : Bytes) : V1Peer :=
  let recvBuf := peer.kvAccumulator ++ chunk
  let cut := splitCommands recvBuf (recvBuf.length + 1) 0
  let kvAccumulator := if cut.2 < chunk.length then recvBuf.drop cut.2 else []
  { kvAccumulator := kvAccumulator
    deleteFlag := if kvAccumulator.length > maxUnprocessedData then true else peer.deleteFlag
    handled := peer.handled ++ cut.1 }

end V1Peer

/-- A command as a client sends it: a query id or none, and the text of the command. -/
structure Command where
  queryid : Option Bytes
  text : Bytes
  deriving DecidableEq, Repr

/-- The bytes of a command without its terminator. -/
def Command.wire (command : Command) : Bytes :=
  match command.queryid with
  | none => command.text
  | some id => ascii "\\queryid\\" ++ id ++ char '\\' :: command.text

/-- A query id ends at its backslash, and the terminator stands only behind the command. -/
def Command.WellFormed (command : Command) : Prop :=
  (∀ id ∈ command.queryid, char '\\' ∉ id) ∧ ¬finalMarker <:+: command.wire

/-- The command has a text of its own: it is not empty, does not start with what
`skip_queryid` strips, and lends no byte to its terminator. -/
def Command.Plain (command : Command) : Prop :=
  command.text ≠ [] ∧ ¬ascii "\r\n" <+: command.text ∧
    (command.queryid = none → ¬ascii "\\queryid\\" <+: command.text) ∧
    ¬ascii "\\final" <:+ command.wire

instance (command : Command) : Decidable command.WellFormed :=
  inferInstanceAs (Decidable (_ ∧ _))

instance (command : Command) : Decidable command.Plain :=
  inferInstanceAs (Decidable (_ ∧ _ ∧ _ ∧ _))

/-- The pending bytes behind a chunk are a query id and no more, they are kept, as there are
more of them than before the chunk, and they fit the accumulator. -/
def harmlessTail (accumulator _chunk tail : Bytes) : Bool :=
  skipQueryid tail = [] && accumulator.length < tail.length && tail.length ≤ maxUnprocessedData

/-- At every cut of the stream the pending bytes are none, or harmless. -/
def CutsHarmless (chunks : List Bytes) : Prop :=
  ∀ before chunk after, chunks = before ++ chunk :: after →
    pending finalMarker (before ++ [chunk]).flatten = [] ∨
      harmlessTail (pending finalMarker before.flatten) chunk
        (pending finalMarker (before ++ [chunk]).flatten)

/-- The text of a command is what is handled. -/
theorem skip_queryid_wire {command : Command} (hwell : command.WellFormed)
    (hplain : command.Plain) : skipQueryid command.wire = command.text := by
  obtain ⟨-, hnewline, hqueryid, -⟩ := hplain
  have htake (prefixed text : Bytes) : text.take prefixed.length = prefixed ↔ prefixed <+: text :=
    ⟨fun h => h ▸ List.take_prefix _ _, fun h => (List.prefix_iff_eq_take.mp h).symm⟩
  have hline : command.text.take 2 ≠ ascii "\r\n" := fun h => hnewline ((htake _ _).mp h)
  have hstrip : stripId command.wire = command.text := by
    cases hid : command.queryid with
    | none =>
        have hname : command.text.take 9 ≠ ascii "\\queryid\\" :=
          fun h => hqueryid hid ((htake _ _).mp h)
        simp [Command.wire, hid, stripId, hname]
    | some id =>
        have hbackslash : char '\\' ∉ id := hwell.1 id hid
        have hwire : command.wire =
            ascii "\\queryid\\" ++ (id ++ char '\\' :: command.text) := by
          simp [Command.wire, hid]
        have hdrop : command.wire.drop 9 = id ++ char '\\' :: command.text := by
          rw [hwire]
          rfl
        have hname : command.wire.take 9 = ascii "\\queryid\\" := by
          rw [hwire]
          rfl
        rw [stripId, if_pos hname, hdrop, if_pos (by simp),
          List.idxOf_append_of_notMem hbackslash, List.idxOf_cons_self, Nat.add_zero,
          ← List.drop_drop, List.drop_left]
        rfl
  rw [skipQueryid, hstrip, if_neg hline]

/-- The loop handles the pieces in front of a terminator, if none is empty, and then what is
pending, and stops where that starts. -/
theorem split_commands_eq (recvBuf : Bytes) {fuel lastPos : Nat} (hpos : lastPos ≤ recvBuf.length)
    (hfuel : recvBuf.length < lastPos + fuel)
    (hpieces : ∀ m ∈ (frames finalMarker (recvBuf.drop lastPos)).1, skipQueryid m ≠ []) :
    splitCommands recvBuf fuel lastPos =
      ((frames finalMarker (recvBuf.drop lastPos)).1.map skipQueryid ++
          unlessEmpty (skipQueryid (pending finalMarker (recvBuf.drop lastPos))),
        recvBuf.length - (pending finalMarker (recvBuf.drop lastPos)).length) := by
  induction fuel generalizing lastPos with
  | zero => omega
  | succ fuel ih =>
      cases hfind : findFirst finalMarker (recvBuf.drop lastPos) with
      | none =>
          have hlast : recvBuf.length - (recvBuf.drop lastPos).length = lastPos := by
            rw [List.length_drop]
            omega
          simp only [pending, frames_clean hfind, hlast]
          simp [splitCommands, findFinal, hfind]
      | some n =>
          obtain ⟨hsplit, hframed⟩ := find_first_split hfind
          have hnext : (recvBuf.drop lastPos).drop (n + finalMarker.length) =
              recvBuf.drop (lastPos + n + 7) := by
            rw [List.drop_drop, final_marker_length, Nat.add_assoc]
          rw [hnext] at hsplit
          have hlen := congrArg List.length hsplit
          have hle := (find_first_eq_some.mp hfind).1
          simp only [List.length_append, List.length_take, List.length_drop,
            final_marker_length] at hlen hle
          have hcut := frames_cut final_marker_ne_nil hframed (recvBuf.drop (lastPos + n + 7))
          rw [← hsplit] at hcut
          simp only [pending, hcut, List.forall_mem_cons] at hpieces ⊢
          have hrest := @ih (lastPos + n + 7) (by omega) (by omega) hpieces.2
          have hpiece : lastPos + n - lastPos = n := by omega
          simp [splitCommands, findFinal, hfind, substr, hpiece, hpieces.1, hrest, pending]

/-- A read with a harmless cut behind it handles the pieces and keeps what is pending. -/
theorem on_stream_read_eq (peer : V1Peer) (chunk : Bytes)
    (hpieces : ∀ m ∈ (frames finalMarker (peer.kvAccumulator ++ chunk)).1, skipQueryid m ≠ [])
    (htail : pending finalMarker (peer.kvAccumulator ++ chunk) = [] ∨
      harmlessTail peer.kvAccumulator chunk (pending finalMarker (peer.kvAccumulator ++ chunk))) :
    peer.onStreamRead chunk =
      { kvAccumulator := pending finalMarker (peer.kvAccumulator ++ chunk)
        deleteFlag := peer.deleteFlag
        handled := peer.handled ++
          (frames finalMarker (peer.kvAccumulator ++ chunk)).1.map skipQueryid } := by
  have hcut := @split_commands_eq (peer.kvAccumulator ++ chunk)
    ((peer.kvAccumulator ++ chunk).length + 1) 0 (by omega) (by omega) hpieces
  have hle := pending_length_le final_marker_ne_nil (peer.kvAccumulator ++ chunk)
  have hjoin := frames_join final_marker_ne_nil (peer.kvAccumulator ++ chunk)
  rw [List.drop_zero] at hcut
  rw [← pending] at hjoin
  generalize pending finalMarker (peer.kvAccumulator ++ chunk) = tail at *
  have hdrop : (peer.kvAccumulator ++ chunk).drop
      ((peer.kvAccumulator ++ chunk).length - tail.length) = tail := by
    rw [← hjoin, List.length_append, Nat.add_sub_cancel, List.drop_left]
  rw [V1Peer.onStreamRead, hcut]
  rcases htail with rfl | htail
  · -- nothing is pending, and the accumulator is empty whether it is kept or not
    simp [unlessEmpty, show skipQueryid [] = [] from rfl]
  · simp only [harmlessTail, Bool.and_eq_true, decide_eq_true_eq] at htail
    obtain ⟨⟨hquiet, hgrows⟩, hlimit⟩ := htail
    have hkept : (peer.kvAccumulator ++ chunk).length - tail.length < chunk.length := by
      rw [List.length_append] at hle ⊢
      omega
    simp only [hdrop, if_pos hkept, hquiet, unlessEmpty, if_pos, List.append_nil,
      if_neg (Nat.not_lt.mpr hlimit)]

/-- Reads with harmless cuts handle the pieces of the joined input. -/
theorem v1_reads_eq (peer : V1Peer) (chunks : List Bytes)
    (hpieces : ∀ m ∈ (frames finalMarker (peer.kvAccumulator ++ chunks.flatten)).1,
      skipQueryid m ≠ [])
    (hclean : findFirst finalMarker peer.kvAccumulator = none)
    (hkept : Kept finalMarker harmlessTail peer.kvAccumulator chunks) :
    chunks.foldl V1Peer.onStreamRead peer =
      { kvAccumulator := pending finalMarker (peer.kvAccumulator ++ chunks.flatten)
        deleteFlag := peer.deleteFlag
        handled := peer.handled ++
          (frames finalMarker (peer.kvAccumulator ++ chunks.flatten)).1.map skipQueryid } := by
  induction chunks generalizing peer with
  | nil => simp [pending, frames_clean hclean]
  | cons chunk rest ih =>
      obtain ⟨hnow, hlater⟩ := hkept
      rw [List.flatten_cons, ← List.append_assoc] at hpieces ⊢
      rw [frames_append final_marker_ne_nil] at hpieces
      rw [List.foldl_cons, on_stream_read_eq peer chunk
        (fun m hm => hpieces m (List.mem_append_left _ hm)) hnow]
      rw [ih _ (fun m hm => hpieces m (List.mem_append_right _ hm))
        (pending_clean final_marker_ne_nil _) hlater,
        pending_append final_marker_ne_nil (peer.kvAccumulator ++ chunk),
        frames_append final_marker_ne_nil (peer.kvAccumulator ++ chunk), List.map_append,
        List.append_assoc]

/-- In every run of a peer that reads a stream of plain commands with harmless cuts only,
`handle_packet` gets the text of each command exactly once, in order, and nothing else. -/
theorem v1_handles_each_command {commands : List Command} {chunks : List Bytes}
    (hwell : ∀ command ∈ commands, command.WellFormed)
    (hstream : chunks.flatten = stream finalMarker (commands.map Command.wire))
    (hplain : ∀ command ∈ commands, command.Plain) (hcuts : CutsHarmless chunks) :
    chunks.foldl V1Peer.onStreamRead V1Peer.start = ⟨[], false, commands.map Command.text⟩ := by
  have hframed : ∀ m ∈ commands.map Command.wire, Framed finalMarker m := by
    intro m hm
    obtain ⟨command, hcommand, rfl⟩ := List.mem_map.mp hm
    exact (framed_final_iff (hwell command hcommand).2).mpr (hplain command hcommand).2.2.2
  have hframes := frames_stream final_marker_ne_nil hframed
  have htexts : (commands.map Command.wire).map skipQueryid = commands.map Command.text := by
    rw [List.map_map]
    exact List.map_congr_left fun command hcommand =>
      skip_queryid_wire (hwell command hcommand) (hplain command hcommand)
  have hpieces : ∀ m ∈ (frames finalMarker (V1Peer.start.kvAccumulator ++ chunks.flatten)).1,
      skipQueryid m ≠ [] := by
    show ∀ m ∈ (frames finalMarker chunks.flatten).1, skipQueryid m ≠ []
    rw [hstream, hframes]
    intro m hm
    obtain ⟨command, hcommand, rfl⟩ := List.mem_map.mp hm
    rw [skip_queryid_wire (hwell command hcommand) (hplain command hcommand)]
    exact (hplain command hcommand).1
  have hkept : Kept finalMarker harmlessTail V1Peer.start.kvAccumulator chunks :=
    (kept_iff final_marker_ne_nil chunks).mpr hcuts
  rw [v1_reads_eq V1Peer.start chunks hpieces (by decide) hkept]
  show (⟨pending finalMarker chunks.flatten, false,
    [] ++ (frames finalMarker chunks.flatten).1.map skipQueryid⟩ : V1Peer) = _
  rw [pending, hstream, hframes, htexts, List.nil_append]

/-- Two commands in two reads, cut behind the query id of the second one. -/
theorem v1_handles_two_commands :
    [ascii "\\gamename\\a\\final\\\\queryid\\1\\", ascii "\\list\\cmp\\final\\"].foldl
        V1Peer.onStreamRead V1Peer.start =
      ⟨[], false, [ascii "\\gamename\\a", ascii "\\list\\cmp"]⟩ := by
  have hcuts : CutsHarmless
      [ascii "\\gamename\\a\\final\\\\queryid\\1\\", ascii "\\list\\cmp\\final\\"] := by
    rw [CutsHarmless, ← kept_iff final_marker_ne_nil]
    simp only [Kept]
    decide
  exact @v1_handles_each_command
    [⟨none, ascii "\\gamename\\a"⟩, ⟨some (ascii "1"), ascii "\\list\\cmp"⟩] _
    (by decide) (by decide) (by decide) hcuts

/-- A cut inside a command hands over the part in front of it, and then the whole command. -/
theorem v1_handles_a_fragment :
    ¬∀ (commands : List Command) (chunks : List Bytes),
      (∀ command ∈ commands, command.WellFormed) → (∀ chunk ∈ chunks, chunk ≠ []) →
        chunks.flatten = stream finalMarker (commands.map Command.wire) →
        (chunks.foldl V1Peer.onStreamRead V1Peer.start).handled = commands.map Command.text := by
  intro h
  have hhandled := h [⟨none, ascii "\\list\\cmp"⟩]
    [ascii "\\list\\", ascii "cmp\\final\\"] (by decide) (by decide) (by decide)
  exact absurd hhandled (by decide)

end OpenSpy.ServerBrowsing
