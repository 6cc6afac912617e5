import OpenSpy.ServerBrowsing.V1Queue

/-!
# Who asks for a list

`handle_list` looks whether the game is known, not whether the client is validated: the game of a
client that failed the validation is known as well. What keeps such a client from a list is that
its connection is about to close. Every list is asked for by a client that gave the right answer to
the challenge, or by one whose connection is about to close (`listed_of_validated`).
-/

namespace OpenSpy.ServerBrowsing

open Bytes Relation Runs

/-- A request for a list. -/
def V1Request.IsList : V1Request → Prop
  | .getGameInfoByGameName _ => False
  | .getServers _ => True
  | .getGroups _ => True

instance : DecidablePred V1Request.IsList
  | .getGameInfoByGameName _ => .isFalse not_false
  | .getServers _ => .isTrue trivial
  | .getGroups _ => .isTrue trivial

namespace V1Control

variable {challenge : Bytes} {control next : V1Control} {packet : V1Packet}

/-- A handled packet named the game, with the encryption type and the answer that are kept. -/
def Named (control : V1Control) : Prop :=
  ∃ packet ∈ control.handled, packetCommand false packet.data = some (ascii "gamename") ∧
    control.enctype =
      UInt8.ofInt (getValueInt (kvReader (packetText false packet.data)) (ascii "enctype")) ∧
    control.validation = getValue (kvReader (packetText false packet.data)) (ascii "validate")

/-- The answer that is kept is the right one for the game and the encryption type. -/
def AnsweredRight (challenge : Bytes) (control : V1Control) : Prop :=
  cString (gsseckeyOf (cString challenge) (cString control.game.secretkey) control.enctype) =
    cString control.validation

/-- The validation of a client: it names a game before the game is looked up, and it is validated
by the right answer only. -/
structure Examined (challenge : Bytes) (control : V1Control) : Prop where
  once : control.AsksOnce
  named : control.unanswered ≠ [] ∨ control.validated = true → control.Named
  right : control.validated = true → control.AnsweredRight challenge

/-- A packet that is handled names the game of a client that is not validated, or leaves the game
and the answer as they are. -/
theorem Examined.handles (h : control.Examined challenge) (hnone : control.unanswered = [])
    (hhandles : control.Handles packet next) : next.Examined challenge := by
  refine ⟨asks_once_handles hhandles hnone, ?_, ?_⟩
  · intro hneeds
    cases hhandles with
    | passed | list =>
        obtain ⟨first, hmem, hnamed⟩ := h.named hneeds
        exact ⟨first, List.mem_append_left _ hmem, hnamed⟩
    | game hgame =>
        obtain ⟨hcommand, hvalidated⟩ := hgame
        rw [hvalidated] at hcommand
        refine ⟨packet, List.mem_append_right _ (List.mem_singleton_self _), hcommand, ?_, ?_⟩
        · show UInt8.ofInt (getValueInt (kvReader (packetText control.validated packet.data)) _) = _
          rw [hvalidated]
        · show getValue (kvReader (packetText control.validated packet.data)) _ = _
          rw [hvalidated]
  · intro hvalidated
    cases hhandles with
    | passed | list => exact h.right hvalidated
    | game hgame => exact absurd (hgame.2.symm.trans hvalidated) Bool.false_ne_true

theorem Examined.move (h : control.Examined challenge) (hmove : Move challenge control next) :
    next.Examined challenge := by
  have honce := asks_once_move hmove h.once
  cases hmove with
  | wait | rotate | finish => exact ⟨honce, h.named, h.right⟩
  | flush => exact ⟨honce, h.named, h.right⟩
  | arrive data _ hready _ hhandles =>
      have hinner : { control with arrived := control.arrived + 1 }.Examined challenge :=
        ⟨h.once, h.named, h.right⟩
      exact hinner.handles (h.once.none hready) hhandles
  | take packet rest _ hready _ _ hhandles =>
      have hinner : { control with waitingPackets := rest }.Examined challenge :=
        ⟨h.once, h.named, h.right⟩
      exact hinner.handles (h.once.none hready) hhandles
  | unknownGame gamename rest hasked =>
      have hsome : control.unanswered ≠ [] := by simp [hasked]
      exact ⟨honce, fun _ => h.named (.inl hsome), h.right⟩
  | knownGame gamename rest hasked game _ validated hvalidated =>
      have hsome : control.unanswered ≠ [] := by simp [hasked]
      refine ⟨honce, fun _ => h.named (.inl hsome), fun hnow => ?_⟩
      -- Nobody asks for the game of a client that is validated.
      obtain hbefore | hright := hvalidated.mp hnow
      · exact absurd (h.once.none_of_validated hbefore) hsome
      · exact hright

end V1Control

namespace V1Session

variable {random : V1Random} {session next : V1Session}

/-- The connection is closed or will be once everything is sent. -/
def Closing (session : V1Session) : Prop :=
  session.closeWhenSendbufferEmpty = true ∨ session.socketDeleted = true ∨
    session.deleteFlag = true

instance (session : V1Session) : Decidable session.Closing :=
  inferInstanceAs (Decidable (_ ∨ _))

section Closing

theorem append_send_buffer_closes (buffer : Option Bytes) :
    (session.appendSendBuffer buffer true).Closing := by
  unfold appendSendBuffer
  split
  case isTrue hgone =>
    obtain hdelete | hsocket := Bool.or_eq_true_iff.mp hgone
    · exact .inr (.inr hdelete)
    · exact .inr (.inl hsocket)
  case isFalse => exact .inl (Bool.or_true _)

theorem Closing.append_send_buffer (h : session.Closing) (buffer : Option Bytes)
    (closeAfter : Bool) : (session.appendSendBuffer buffer closeAfter).Closing := by
  unfold appendSendBuffer
  split
  · exact h
  · obtain hclose | hrest := h
    · exact .inl (Bool.or_eq_true_iff.mpr (.inl hclose))
    · exact .inr hrest

theorem delete_closes : (session.delete random).Closing :=
  .inr (.inr delete_flag)

theorem Closing.send_text (h : session.Closing) (header : Option Bytes) (text : Bytes)
    (attachFinal : Bool) : (session.sendText header text attachFinal).Closing := by
  unfold sendText
  dsimp only
  split
  · exact h
  · split
    · split
      case h_1 => exact h.append_send_buffer _ _
      case h_2 cipher cryptKey _ =>
        have hinner : { session with cryptKeyEnctype2 := cryptKey }.Closing := h
        exact hinner.append_send_buffer _ _
    · exact h.append_send_buffer _ _

theorem Closing.send_packet (h : session.Closing) (buff : Bytes) (attachFinal : Bool) :
    (session.sendPacket random buff attachFinal).Closing := by
  unfold sendPacket
  split
  · exact h
  · dsimp only
    split
    · have hheader : (session.sendCryptHeader random).2.Closing := by
        unfold sendCryptHeader
        split
        · exact h
        · dsimp only
          split <;> exact h
      exact hheader.send_text _ _ _
    · exact h.send_text _ _ _

theorem Closing.send_packets (h : session.Closing) (packets : List Bytes) (lastSet : Bool) :
    (session.sendPackets random packets lastSet).Closing := by
  unfold sendPackets
  refine Closing.send_packet ?_ _ _
  induction packets.dropLast generalizing session with
  | nil => exact h
  | cons packet rest ih => exact ih (h.send_packet packet false)

theorem Closing.handle_now (h : session.Closing) (now : Int) (packet : V1Packet) :
    (session.handleNow random now packet).Closing := by
  apply handle_now_ends now packet
  case unread => exact fun _ _ => delete_closes
  case game => exact fun _ => h
  case refused => exact fun _ _ => append_send_buffer_closes _
  case list => exact fun _ _ => h
  case passed => exact fun _ _ => h

end Closing

/-- Whoever has a game or asked for a list is validated, or about to be closed. -/
structure Checked (session : V1Session) : Prop where
  known : cString session.game.secretkey ≠ [] → session.validated = true ∨ session.Closing
  listed : ∀ request ∈ session.requests, request.IsList →
    session.validated = true ∨ session.Closing

theorem Checked.of_closing (h : session.Closing) : session.Checked :=
  ⟨fun _ => .inr h, fun _ _ _ => .inr h⟩

/-- What decides nothing checks nothing. -/
theorem Checked.of_control (h : session.Checked) (hcontrol : next.toV1Control = session.toV1Control)
    (hclosing : session.Closing → next.Closing) : next.Checked := by
  refine ⟨fun hsecret => ?_, fun request hmem hlist => ?_⟩
  · rw [hcontrol] at hsecret ⊢
    exact (h.known hsecret).imp_right hclosing
  · rw [hcontrol] at hmem ⊢
    exact (h.listed request hmem hlist).imp_right hclosing

/-- A list is only asked for if the game is known. -/
theorem Checked.handle_now (h : session.Checked) (now : Int) (packet : V1Packet) :
    (session.handleNow random now packet).Checked := by
  have hclosing := fun h : session.Closing => @Closing.handle_now random session h now packet
  have hhandles := @handle_now_handles random session now packet
  generalize session.handleNow random now packet = next at *
  generalize hcontrol : next.toV1Control = control at *
  refine ⟨fun hsecret => ?_, fun request hmem hlist => ?_⟩
  · rw [hcontrol] at hsecret ⊢
    cases hhandles with
    | passed | game | list => exact (h.known hsecret).imp_right hclosing
  · rw [hcontrol] at hmem ⊢
    cases hhandles with
    | passed => exact (h.listed request hmem hlist).imp_right hclosing
    | game =>
        obtain hmem | hnew := List.mem_append.mp hmem
        · exact (h.listed request hmem hlist).imp_right hclosing
        · rw [List.mem_singleton.mp hnew] at hlist
          exact hlist.elim
    | list hasks => exact (h.known hasks.2).imp_right hclosing

theorem checked_kept : KeptByTurns random Checked where
  queue := fun _ _ _ h => ⟨h.known, h.listed⟩
  loop := fun _ _ _ h => ⟨h.known, h.listed⟩
  store := fun _ _ h => ⟨h.known, h.listed⟩
  delete := fun _ _ => .of_closing delete_closes
  handle := fun _ now packet h => h.handle_now now packet

/-- The game of a client that fails the validation is known, but the client is closed. -/
theorem checked_on_recieved_game_info (gameData : Game) :
    (session.onRecievedGameInfo random gameData).Checked := by
  apply on_recieved_game_info_ends gameData
  case unknown => exact .of_closing (append_send_buffer_closes _)
  case again =>
    intro _ hvalidated
    exact ⟨fun _ => .inl hvalidated, fun _ _ _ => .inl hvalidated⟩
  case right => exact fun _ _ _ => ⟨fun _ => .inl rfl, fun _ _ _ => .inl rfl⟩
  -- The game stays known, but the error closes the connection.
  case wrong => exact fun _ _ _ => .of_closing (append_send_buffer_closes _)

/-- Every event checks who has a game and who asks for a list. -/
theorem Checked.step (h : session.Checked) (event : V1Event) :
    (session.step random event).Checked := by
  cases event with
  | read now chunk => exact checked_kept.read now chunk h
  | think now => exact checked_kept.think now h
  | flushRound now => exact checked_kept.flush_round now h
  | gameInfo gameData =>
      unfold V1Session.step
      dsimp only
      split
      case h_1 => exact h
      case h_2 => exact checked_on_recieved_game_info gameData
  | servers req results =>
      refine h.of_control (on_retrieved_servers_control req results) fun hclosing => ?_
      show (session.onRetrievedServers random req results).Closing
      unfold onRetrievedServers
      dsimp only
      split
      · exact delete_closes
      · split
        · exact hclosing.send_packets _ _
        · exact hclosing.send_packet _ _
  | groups packets lastSet =>
      refine h.of_control (on_retrieved_groups_control packets lastSet) fun hclosing => ?_
      show (session.onRetrievedGroups random packets lastSet).Closing
      unfold onRetrievedGroups
      dsimp only
      split
      · exact delete_closes
      · exact hclosing.send_packets _ _
  | socketClosed =>
      show (if session.flushing then session
        else { session with socketDeleted := true }.delete random).Checked
      split
      · exact h
      · exact .of_closing delete_closes

/-- A list is only asked for by a client that gave the right answer for its game, in a packet that
was handled, or by one whose connection is about to close. -/
theorem listed_of_validated {connected : Int} {run : List V1Event} {request : V1Request}
    (hmem : request ∈ (after (V1Session.step random) (start random connected) run).requests)
    (hlist : request.IsList) :
    (after (V1Session.step random) (start random connected) run).Closing ∨
      (after (V1Session.step random) (start random connected) run).Named ∧
        (after (V1Session.step random) (start random connected) run).AnsweredRight
          random.challenge := by
  have hchecked : (after (V1Session.step random) (start random connected) run).Checked := by
    refine @invariant _ _ (V1Session.step random) (start random connected) Checked ?_
      (fun _ event h => h.step event) run
    exact ⟨fun hsecret => absurd rfl hsecret, fun _ hmem => absurd hmem List.not_mem_nil⟩
  have hexamined := @run_keeps random (start random connected)
    (V1Control.Examined random.challenge) (fun _ _ hmove h => h.move hmove)
    ⟨.inl rfl, fun h => absurd h (by simp [start]), fun h => absurd h (by simp [start])⟩ run
  obtain hvalidated | hclosing := hchecked.listed request hmem hlist
  · exact .inr ⟨hexamined.named (.inr hvalidated), hexamined.right hvalidated⟩
  · exact .inl hclosing

/-- The first of the two lists is asked for. -/
def listAsked : List V1Event :=
  twoLists ++ [.flushRound 0]

theorem two_lists_validated :
    (after (V1Session.step sampleRandom) (start sampleRandom 0) listAsked).Closing ∨
      (after (V1Session.step sampleRandom) (start sampleRandom 0) listAsked).Named ∧
        (after (V1Session.step sampleRandom) (start sampleRandom 0) listAsked).AnsweredRight
          (ascii "ABCDEF") :=
  have hmem : V1Request.getServers ⟨ascii "g", sampleGame, [], false, false, false⟩ ∈
      (after (V1Session.step sampleRandom) (start sampleRandom 0) listAsked).requests := by
    rw [listAsked, twoLists, after_append, after_append, sample_validated (by decide +kernel)]
    decide +kernel
  listed_of_validated hmem trivial

end V1Session

end OpenSpy.ServerBrowsing
