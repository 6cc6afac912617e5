import OpenSpy.Core.Strings
import OpenSpy.Library.Reassembly

/-!
# Lines of a peerchat connection

`Peer::on_stream_read` of an unencrypted connection collects bytes up to a newline and hands
each line to `handle_commands`, which calls `handle_command` unless the peer is marked
deleted. What a command does is a parameter of the model: `handleCommand` changes the rest of
the peer, the session, in any way, and may mark the peer deleted.

`line_framing` says that reads in any segmentation run the lines of the joined stream.
-/

namespace OpenSpy.Peerchat

open Delimited Bytes

/-- `ACCUMULATOR_MAX_BYTES`. -/
def accumulatorMaxBytes : Nat := 1024

/-- What the line reader needs of the rest of the peer. -/
structure LineHandler (σ : Type*) where
  /-- `Peer::handle_command`. -/
  handleCommand : σ → Bytes → σ
  /-- `m_delete_flag`. -/
  deleteFlag : σ → Bool
  /-- `Peer::Delete(false, reason)`. -/
  delete : σ → Bytes → σ

/-- A peer with the record of what it did: `commands` are the arguments of `handle_command`
so far, and `flooded` tells whether it was deleted for an excess flood. -/
structure LinePeer (σ : Type*) where
  session : σ
  accumulatorBuffer : Bytes
  commands : List Bytes
  flooded : Bool
  deriving DecidableEq

namespace LinePeer

variable {σ : Type*} (handler : LineHandler σ)

/-- The newline byte. -/
def newline : UInt8 := char '\n'

/-- A peer whose connection is ready. -/
def start (session : σ) : LinePeer σ := ⟨session, [], [], false⟩

/-- One call of `Peer::handle_command`. -/
def handleCommand (peer : LinePeer σ) (input : Bytes) : LinePeer σ :=
  { peer with
    session := handler.handleCommand peer.session input
    commands := peer.commands ++ [input] }

/-- The loop of `Peer::handle_commands` over the command lines. -/
def handleCommandLines : LinePeer σ → List Bytes → LinePeer σ
  | peer, [] => peer
  | peer, line :: rest =>
      if handler.deleteFlag peer.session then peer
      else handleCommandLines (peer.handleCommand handler (stripWhitespace line)) rest

/-- `Peer::handle_commands`. -/
def handleCommands (peer : LinePeer σ) (input : Bytes) : LinePeer σ :=
  peer.handleCommandLines handler (keyStringToVector input newline)

/-- The loop of `Peer::on_stream_read` over the bytes `p` still to be read. Each round but
the last reads at least a newline, so the bytes bound the number of rounds. -/
def readLoop : Nat → LinePeer σ → Bytes → LinePeer σ
  | 0, peer, _ => peer
  | fuel + 1, peer, p =>
      if p = [] then peer
      else
        match findFirst [newline] p with
        | some i =>
            let size := i + 1
            let input := peer.accumulatorBuffer ++ p.take size
            let peer := { peer with accumulatorBuffer := [] }
            readLoop fuel (peer.handleCommands handler input) (p.drop size)
        | none => { peer with accumulatorBuffer := peer.accumulatorBuffer ++ p }

/-- `Peer::on_stream_read` without encryption. -/
def onStreamRead (peer : LinePeer σ) (chunk : Bytes) : LinePeer σ :=
  let peer := readLoop handler chunk.length peer chunk
  if peer.accumulatorBuffer.length > accumulatorMaxBytes then
    { peer with
      session := handler.delete peer.session (ascii "Excess flood")
      flooded := true }
  else peer

/-- The commands that lines run from a session, until one marks the peer deleted. -/
def commandsOf (handler : LineHandler σ) : σ → List Bytes → List Bytes
  | _, [] => []
  | session, line :: rest =>
      if handler.deleteFlag session then []
      else
        let input := stripWhitespace line
        input :: commandsOf handler (handler.handleCommand session input) rest

variable {handler}

theorem handle_command_lines_append (peer : LinePeer σ) (lines more : List Bytes) :
    peer.handleCommandLines handler (lines ++ more) =
      (peer.handleCommandLines handler lines).handleCommandLines handler more := by
  induction lines generalizing peer with
  | nil => rfl
  | cons line rest ih =>
      by_cases hdeleted : handler.deleteFlag peer.session
      · cases more <;> simp [handleCommandLines, hdeleted]
      · simp [handleCommandLines, hdeleted, ih]

/-- Command lines do not touch the accumulator. -/
theorem handle_command_lines_accumulator (peer : LinePeer σ) (lines : List Bytes)
    (buffer : Bytes) :
    { peer with accumulatorBuffer := buffer }.handleCommandLines handler lines =
      { peer.handleCommandLines handler lines with accumulatorBuffer := buffer } := by
  induction lines generalizing peer with
  | nil => rfl
  | cons line rest ih =>
      by_cases hdeleted : handler.deleteFlag peer.session
      · simp [handleCommandLines, hdeleted]
      · simpa [handleCommandLines, hdeleted, handleCommand] using
          ih (peer.handleCommand handler (stripWhitespace line))

/-- Command lines do not end in an excess flood. -/
theorem handle_command_lines_flooded (peer : LinePeer σ) (lines : List Bytes) :
    (peer.handleCommandLines handler lines).flooded = peer.flooded := by
  induction lines generalizing peer with
  | nil => rfl
  | cons line rest ih =>
      by_cases hdeleted : handler.deleteFlag peer.session
      · simp [handleCommandLines, hdeleted]
      · simp [handleCommandLines, hdeleted, ih, handleCommand]

/-- The recorded commands are those the session runs from the lines. -/
theorem handle_command_lines_commands (peer : LinePeer σ) (lines : List Bytes) :
    (peer.handleCommandLines handler lines).commands =
      peer.commands ++ commandsOf handler peer.session lines := by
  induction lines generalizing peer with
  | nil => simp [handleCommandLines, commandsOf]
  | cons line rest ih =>
      by_cases hdeleted : handler.deleteFlag peer.session
      · simp [handleCommandLines, commandsOf, hdeleted]
      · simp [handleCommandLines, commandsOf, hdeleted, ih, handleCommand]

/-- The command lines of a text: its complete lines that are not empty. -/
def commandLines (text : Bytes) : List Bytes :=
  (frames [newline] text).1.filter (· ≠ [])

/-- A line with its newline runs as one command line, or as none if it is empty. -/
theorem handle_commands_line (peer : LinePeer σ) {line : Bytes} (h : newline ∉ line) :
    peer.handleCommands handler (line ++ [newline]) =
      peer.handleCommandLines handler ([line].filter (· ≠ [])) := by
  rw [handleCommands, key_string_to_vector_line h]
  by_cases hline : line = [] <;> simp [hline]

/-- Cutting one line off a text cuts off its command line. -/
theorem command_lines_cut {line : Bytes} (h : newline ∉ line) (text : Bytes) :
    commandLines (line ++ [newline] ++ text) = [line].filter (· ≠ []) ++ commandLines text := by
  rw [commandLines, frames_cut (by simp) (framed_singleton.mpr h), ← List.singleton_append,
    List.filter_append, commandLines]

/-- The read loop runs the complete lines of accumulator and chunk, and what follows the last
newline is the new accumulator. -/
theorem read_loop_eq (fuel : Nat) (peer : LinePeer σ) (p : Bytes) (hfuel : p.length ≤ fuel)
    (hacc : newline ∉ peer.accumulatorBuffer) :
    readLoop handler fuel peer p =
      { peer.handleCommandLines handler (commandLines (peer.accumulatorBuffer ++ p)) with
        accumulatorBuffer := pending [newline] (peer.accumulatorBuffer ++ p) } := by
  have hnl : [newline] ≠ [] := by simp
  have hclean {t : Bytes} (h : newline ∉ t) : frames [newline] t = ([], t) :=
    frames_clean (find_first_singleton.mpr h)
  induction fuel generalizing peer p with
  | zero =>
      obtain rfl : p = [] := by simpa using hfuel
      simp [readLoop, commandLines, pending, hclean hacc, handleCommandLines]
  | succ fuel ih =>
      cases hfind : findFirst [newline] p with
      | none =>
          have hjoin : newline ∉ peer.accumulatorBuffer ++ p := by
            simp [hacc, find_first_singleton.mp hfind]
          by_cases hp : p = [] <;>
            simp_all [readLoop, commandLines, pending, handleCommandLines]
      | some i =>
          -- The first newline of the chunk ends the line that the accumulator began.
          obtain ⟨hsplit, hframed⟩ := find_first_split hfind
          have hne : p ≠ [] := by rintro rfl; simp [findFirst] at hfind
          have hi := (find_first_eq_some.mp hfind).1
          have hline : newline ∉ peer.accumulatorBuffer ++ p.take i := by
            simp [hacc, framed_singleton.mp hframed]
          have htake : p.take (i + 1) = p.take i ++ [newline] := by
            conv_lhs => rw [hsplit]
            rw [List.take_append_of_le_length (by simp; omega), List.take_of_length_le (by simp)]
          have hjoin : peer.accumulatorBuffer ++ p =
              (peer.accumulatorBuffer ++ p.take i) ++ [newline] ++ p.drop (i + 1) := by
            conv_lhs => rw [hsplit]
            simp
          have hpending : pending [newline] (peer.accumulatorBuffer ++ p) =
              pending [newline] (p.drop (i + 1)) := by
            rw [hjoin, pending, frames_cut hnl (framed_singleton.mpr hline), pending]
          rw [readLoop, if_neg hne, hfind]
          simp only [htake, ← List.append_assoc]
          rw [handle_commands_line _ hline, handle_command_lines_accumulator,
            ih _ _ (by simp only [List.length_drop]; omega) (by simp)]
          simp only [List.nil_append, hpending, handle_command_lines_accumulator]
          rw [← handle_command_lines_append, hjoin, command_lines_cut hline]

/-- One read, as long as no more than the limit stays pending. -/
theorem on_stream_read_eq (handler : LineHandler σ) (peer : LinePeer σ) (chunk : Bytes)
    (hacc : newline ∉ peer.accumulatorBuffer)
    (hlimit : (pending [newline] (peer.accumulatorBuffer ++ chunk)).length ≤
      accumulatorMaxBytes) :
    peer.onStreamRead handler chunk =
      { peer.handleCommandLines handler (commandLines (peer.accumulatorBuffer ++ chunk)) with
        accumulatorBuffer := pending [newline] (peer.accumulatorBuffer ++ chunk) } := by
  simp only [onStreamRead, read_loop_eq chunk.length peer chunk le_rfl hacc]
  rw [if_neg (by omega)]

/-- Reads in any segmentation run the command lines of the joined stream, as long as no more
than the limit is pending at a cut. -/
theorem reads_eq (peer : LinePeer σ) (chunks : List Bytes)
    (hacc : newline ∉ peer.accumulatorBuffer)
    (hlimit : ∀ before after, chunks = before ++ after →
      (pending [newline] (peer.accumulatorBuffer ++ before.flatten)).length ≤
        accumulatorMaxBytes) :
    chunks.foldl (onStreamRead handler) peer =
      { peer.handleCommandLines handler
          (commandLines (peer.accumulatorBuffer ++ chunks.flatten)) with
        accumulatorBuffer := pending [newline] (peer.accumulatorBuffer ++ chunks.flatten) } := by
  have hnl : [newline] ≠ [] := by simp
  induction chunks generalizing peer with
  | nil =>
      have hclean : frames [newline] peer.accumulatorBuffer = ([], peer.accumulatorBuffer) :=
        frames_clean (find_first_singleton.mpr hacc)
      simp [commandLines, pending, hclean, handleCommandLines]
  | cons chunk rest ih =>
      have hread := on_stream_read_eq handler peer chunk hacc
        (by simpa using hlimit [chunk] rest rfl)
      have hnext : newline ∉ (peer.onStreamRead handler chunk).accumulatorBuffer := by
        rw [hread]
        exact find_first_singleton.mp (pending_clean hnl _)
      have hrest := ih (peer.onStreamRead handler chunk) hnext fun before after hsplit => by
        rw [hread]
        simp only
        rw [← pending_append hnl]
        simpa using hlimit (chunk :: before) after (by simp [hsplit])
      have hlines : commandLines (peer.accumulatorBuffer ++ (chunk :: rest).flatten) =
          commandLines (peer.accumulatorBuffer ++ chunk) ++
            commandLines (pending [newline] (peer.accumulatorBuffer ++ chunk) ++
              rest.flatten) := by
        rw [List.flatten_cons, ← List.append_assoc, commandLines, frames_append hnl]
        simp [commandLines]
      rw [List.foldl_cons, hrest, hread]
      simp only
      rw [handle_command_lines_accumulator, ← handle_command_lines_append, ← hlines,
        ← pending_append hnl, List.flatten_cons, List.append_assoc]

end LinePeer

open LinePeer

/-- Let lines of at most `ACCUMULATOR_MAX_BYTES` bytes be sent, each with its newline, and
cut into chunks. The calls of `handle_command` are the stripped nonempty lines in order, until
one marks the peer deleted; the peer is the one that reads the stream as a single chunk, and
it is not deleted for an excess flood. -/
theorem line_framing {σ : Type*} (handler : LineHandler σ) (session : σ)
    {lines chunks : List Bytes}
    (hlines : ∀ line ∈ lines, newline ∉ line ∧ line.length ≤ accumulatorMaxBytes)
    (hstream : chunks.flatten = stream [newline] lines) :
    let peer := chunks.foldl (onStreamRead handler) (start session)
    peer.commands = commandsOf handler session (lines.filter (· ≠ [])) ∧
      peer = onStreamRead handler (start session) (stream [newline] lines) ∧
      peer.flooded = false := by
  have hnl : [newline] ≠ [] := by simp
  have hframed : ∀ line ∈ lines, Framed [newline] line ∧ line.length ≤ accumulatorMaxBytes :=
    fun line hline => ⟨framed_singleton.mpr (hlines line hline).1, (hlines line hline).2⟩
  have hrun : ∀ chunks : List Bytes, chunks.flatten = stream [newline] lines →
      chunks.foldl (onStreamRead handler) (start session) =
        { (start session).handleCommandLines handler (lines.filter (· ≠ [])) with
          accumulatorBuffer := [] } := by
    intro chunks hchunks
    rw [reads_eq (start session) chunks (by simp [start]) fun before after hsplit => by
      have hjoin : before.flatten ++ after.flatten = stream [newline] lines := by
        rw [← hchunks, hsplit, List.flatten_append]
      exact Nat.lt_succ_iff.mp (pending_stream_part hnl hframed hjoin)]
    simp only [start, List.nil_append, hchunks, commandLines, pending,
      frames_stream hnl fun line hline => (hframed line hline).1]
  have hone : onStreamRead handler (start session) (stream [newline] lines) =
      [stream [newline] lines].foldl (onStreamRead handler) (start session) := rfl
  intro peer
  refine ⟨?_, ?_, ?_⟩
  · simp only [peer, hrun chunks hstream, handle_command_lines_commands, start,
      List.nil_append]
  · rw [hone, hrun _ (by simp)]
    exact hrun chunks hstream
  · simp only [peer, hrun chunks hstream, handle_command_lines_flooded, start]

/-- A peer that is deleted by its second command does not run the third. -/
theorem line_framing_quit :
    ([ascii "NICK a\r\nQU", ascii "IT\n\nJOIN #b\n"].foldl
      (onStreamRead ⟨fun _ input => input == ascii "QUIT", id, fun _ _ => true⟩)
      (start false)).commands = [ascii "NICK a", ascii "QUIT"] :=
  (@line_framing Bool ⟨fun _ input => input == ascii "QUIT", id, fun _ _ => true⟩ false
    [ascii "NICK a\r", ascii "QUIT", [], ascii "JOIN #b"]
    [ascii "NICK a\r\nQU", ascii "IT\n\nJOIN #b\n"] (by decide) (by decide)).1.trans (by decide)

end OpenSpy.Peerchat
