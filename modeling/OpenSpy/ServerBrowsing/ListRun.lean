import OpenSpy.ServerBrowsing.ListSession

/-!
# List requests and batches in any order

A run of a V2 peer: it reads list requests, gets the games, and gets the batches of the scans it
asked for, in any order except that the batches of one scan come in theirs. The packets of a batch
are a head, rows of cells and an ending (`SentBatch.Written`). A list has the fields of its request
in its head, and the cells of its rows are of the fields of the last request.
`rows_match_head_iff` says when these are the same in a whole run.
-/

namespace OpenSpy.ServerBrowsing

open Bytes

/-- The batches of a scan, of which the first one is marked. -/
structure Answer where
  calls : List RetrievedCall
  first_set : ∀ i (h : i < calls.length), calls[i].firstSet ↔ i = 0

/-- What `GetServers` or `GetGroups` hands over. -/
def Answer.ofScan (append : List Bytes → List Server) (replies : List (Option ScanReply)) :
    Answer where
  calls := scanLoop append false replies
  first_set := fun i h => by simpa using scan_loop_first_set append false replies i h

/-- What happens to a peer. A batch is the next one of the scan with this number. -/
inductive SessionEvent
  | listRequest (parsed : ListRequest)
  | gameInfo
  | gameInfoPair (gameDataFirst gameDataSecond : Game)
  | batch (scan : Nat)

/-- A row that was sent: what stands before the keys, and the cells, each with the name of its
field. -/
structure SentRow where
  header : RowHeader
  cells : List (Bytes × Bytes)
  deriving DecidableEq, Repr

/-- The bytes of a row. -/
def SentRow.bytes (row : SentRow) : Bytes :=
  row.header.bytes ++ row.cells.flatMap Prod.snd

/-- The fields that a row carries. -/
def SentRow.names (row : SentRow) : List Bytes :=
  row.cells.map Prod.fst

/-- What was sent for a batch: the packets, with the fields of their head, if they have one, and
their rows. -/
structure SentBatch where
  scan : Nat
  listReq : ListRequest
  call : RetrievedCall
  head : Option (List Bytes)
  rows : List SentRow
  packets : List Bytes

/-- The row is one of the server: its header has the address, every cell is the value of its field,
and without keys there are no cells. -/
structure SentRow.Of (game : Game) (server : Server) (row : SentRow) : Prop where
  address : row.header.wanIp = server.wanIp
  cells : ∀ cell ∈ row.cells, cell.2 = writeCell game false .string (server.kvFields cell.1)
  unkeyed : row.header.flags.hasKeys = false → row.cells = []

/-- The packets are the head with its fields, the rows one after the other, one for each server that
is not skipped, and the ending. -/
structure SentBatch.Written (peerIp : IPv4) (batch : SentBatch) : Prop where
  packets : batch.packets.flatten =
    (batch.head.elim [] fun fields =>
      headBytes peerIp { batch.listReq with fieldList := fields }) ++
    (batch.rows.flatMap SentRow.bytes ++
      if batch.call.list.isEmpty || batch.call.lastSet then terminator else [])
  rows : List.Forall₂ (SentRow.Of (rowGame batch.listReq))
    ((withRow batch.call.list).map (touchFields batch.listReq.fieldList)) batch.rows

/-- The row of a server in `rowBytes`. -/
def sentRow (lastListReq : ListRequest) (game : Game) (server : Server) : SentRow where
  header := rowHeader lastListReq game false server
  cells :=
    if (rowHeader lastListReq game false server).flags.hasKeys then
      lastListReq.fieldList.map fun name =>
        (name, writeCell game false .string (server.kvFields name))
    else []

/-- The head and the rows in `headBytes` and `rowsBytes`. -/
def sentBatch (lastListReq : ListRequest) (scan : Nat) (listReq : ListRequest)
    (call : RetrievedCall) (packets : List Bytes) : SentBatch where
  scan := scan
  listReq := listReq
  call := call
  head := if call.firstSet then some listReq.fieldList else none
  rows := ((withRow call.list).map (touchFields listReq.fieldList)).map
    (sentRow lastListReq (rowGame listReq))
  packets := packets

/-- The servers of a batch whose rows have keys. -/
def keyedServers (lastListReq listReq : ListRequest) (call : RetrievedCall) : List Server :=
  (withRow call.list).filter fun server =>
    (rowHeader lastListReq (rowGame listReq) false
      (touchFields listReq.fieldList server)).flags.hasKeys

/-- A peer, the requests of its scans, how many batches of each came, and what was sent. -/
structure ListRun where
  session : ListSession
  scans : List ListRequest
  came : Nat → Nat
  sent : List SentBatch

/-- A run before any event. -/
def ListRun.start (session : ListSession) : ListRun := ⟨session, [], fun _ => 0, []⟩

/-- A scan is noted when it is handed to the tasks. -/
def ListRun.act (run : ListRun) : ListSession × ListAction → ListRun
  | (session, .getServers req) | (session, .getGroups req) =>
      { run with session := session, scans := run.scans ++ [req] }
  | (session, _) => { run with session := session }

section

variable (answers : Nat → Answer)

/-- The request and the next batch of a scan. -/
def ListRun.next (run : ListRun) (scan : Nat) : Option (ListRequest × RetrievedCall) :=
  run.scans[scan]?.bind fun req =>
    (answers scan).calls[run.came scan]?.map fun call => (req, call)

/-- What an event does. -/
def ListRun.step (run : ListRun) : SessionEvent → ListRun
  | .listRequest parsed => run.act (processListRequest run.session parsed)
  | .gameInfo => { run with session := onRecievedGameInfo run.session }
  | .gameInfoPair gameDataFirst gameDataSecond =>
      run.act (onRecievedGameInfoPair run.session gameDataFirst gameDataSecond)
  | .batch scan =>
      match run.next answers scan with
      | none => run
      | some (req, call) =>
          { run with
            session := (onRetrieved run.session req call).1
            came := Function.update run.came scan (run.came scan + 1)
            sent := run.sent ++ [sentBatch run.session.lastListReq scan req call
              (onRetrieved run.session req call).2] }

/-- A run over events. -/
def ListRun.after (run : ListRun) (events : List SessionEvent) : ListRun :=
  events.foldl (ListRun.step answers) run

/-- If the event is a batch with a row that has keys, the last request has the fields of the
request of the scan. -/
def SteadyStep (run : ListRun) : SessionEvent → Prop
  | .batch scan => ∀ req call, run.next answers scan = some (req, call) →
      keyedServers run.session.lastListReq req call ≠ [] →
        run.session.lastListReq.fieldList = req.fieldList
  | _ => True

/-- So it is at every event of a run. -/
def SteadyRun (run : ListRun) : List SessionEvent → Prop
  | [] => True
  | event :: events => SteadyStep answers run event ∧ SteadyRun (run.step answers event) events

end

/-- Every row with keys carries the fields that the head of its list declares. -/
def RowsMatchHead (sent : List SentBatch) : Prop :=
  ∀ batch ∈ sent, ∀ row ∈ batch.rows, row.header.flags.hasKeys → ∀ other ∈ sent,
    other.scan = batch.scan → ∀ fields, other.head = some fields → row.names = fields

/-- A list has a head with the fields of its request, sent with the first batch. -/
structure HeadsSent (run : ListRun) : Prop where
  came : ∀ batch ∈ run.sent, 0 < run.came batch.scan
  known : ∀ scan, 0 < run.came scan → ∃ req, run.scans[scan]? = some req
  head : ∀ scan req, 0 < run.came scan → run.scans[scan]? = some req →
    ∃ batch ∈ run.sent, batch.scan = scan ∧ batch.head = some req.fieldList
  fields : ∀ batch ∈ run.sent, ∀ fields, batch.head = some fields →
    ∀ req, run.scans[batch.scan]? = some req → fields = req.fieldList

/-- Every row with keys carries the fields of the request of its scan. -/
def RowsMatchRequest (run : ListRun) : Prop :=
  ∀ batch ∈ run.sent, ∀ row ∈ batch.rows, row.header.flags.hasKeys →
    ∀ req, run.scans[batch.scan]? = some req → row.names = req.fieldList

/-- This is the same, since the heads have these fields. -/
theorem HeadsSent.rows_match_iff {run : ListRun} (h : HeadsSent run) :
    RowsMatchHead run.sent ↔ RowsMatchRequest run := by
  constructor
  · intro hmatch batch hbatch row hrow hkeys req hreq
    obtain ⟨other, hother, hscan, hhead⟩ := h.head _ req (h.came batch hbatch) hreq
    exact hmatch batch hbatch row hrow hkeys other hother hscan _ hhead
  · intro hmatch batch hbatch row hrow hkeys other hother hscan fields hhead
    obtain ⟨req, hreq⟩ := h.known _ (h.came batch hbatch)
    rw [hmatch batch hbatch row hrow hkeys req hreq,
      h.fields other hother fields hhead req (hscan ▸ hreq)]

/-- What a scan that is noted leaves as it is. -/
theorem ListRun.act_eq (run : ListRun) (result : ListSession × ListAction) :
    (run.act result).sent = run.sent ∧ (run.act result).came = run.came ∧
      ∃ more, (run.act result).scans = run.scans ++ more := by
  obtain ⟨session, action⟩ := result
  cases action with
  | getServers req | getGroups req => exact ⟨rfl, rfl, [req], rfl⟩
  | getGameInfoPair | sendError | send => exact ⟨rfl, rfl, [], (List.append_nil _).symm⟩

/-- The request of a scan stays when others are noted. -/
theorem scan_known {scans more : List ListRequest} {scan : Nat} {req : ListRequest}
    (h : scans[scan]? = some req) : (scans ++ more)[scan]? = some req := by
  rw [List.getElem?_append_left (List.getElem?_eq_some_iff.mp h).1, h]

/-- Noting a scan keeps the heads and the rows. -/
theorem HeadsSent.act {run : ListRun} (h : HeadsSent run) (result : ListSession × ListAction) :
    HeadsSent (run.act result) ∧ (RowsMatchRequest (run.act result) ↔ RowsMatchRequest run) := by
  obtain ⟨hsent, hcame, more, hscans⟩ := run.act_eq result
  have hknown : ∀ scan, 0 < run.came scan → (run.scans ++ more)[scan]? = run.scans[scan]? := by
    intro scan hpos
    obtain ⟨req, hreq⟩ := h.known scan hpos
    rw [scan_known hreq, hreq]
  constructor
  · constructor <;> simp only [hsent, hcame, hscans]
    · exact h.came
    · intro scan hpos
      rw [hknown scan hpos]
      exact h.known scan hpos
    · intro scan req hpos hreq
      exact h.head scan req hpos (hknown scan hpos ▸ hreq)
    · intro batch hbatch fields hhead req hreq
      rw [hknown _ (h.came batch hbatch)] at hreq
      exact h.fields batch hbatch fields hhead req hreq
  · simp only [RowsMatchRequest, hsent, hscans]
    refine forall₂_congr fun batch hbatch => ?_
    rw [hknown _ (h.came batch hbatch)]

section

variable {answers : Nat → Answer} {run : ListRun} {scan : Nat} {req : ListRequest}
  {call : RetrievedCall}

/-- The next batch of a scan is marked as the first if none came before. -/
theorem next_first_set (h : run.next answers scan = some (req, call)) :
    run.scans[scan]? = some req ∧ (call.firstSet ↔ run.came scan = 0) := by
  obtain ⟨other, hreq, hnext⟩ := Option.bind_eq_some_iff.mp h
  obtain ⟨other', hcall, heq⟩ := Option.map_eq_some_iff.mp hnext
  obtain ⟨rfl, rfl⟩ := Prod.mk.inj heq
  obtain ⟨hlt, rfl⟩ := List.getElem?_eq_some_iff.mp hcall
  exact ⟨hreq, (answers scan).first_set _ hlt⟩

/-- The run after a batch. -/
def ListRun.afterBatch (run : ListRun) (scan : Nat) (req : ListRequest) (call : RetrievedCall) :
    ListRun :=
  { run with
    session := (onRetrieved run.session req call).1
    came := Function.update run.came scan (run.came scan + 1)
    sent := run.sent ++ [sentBatch run.session.lastListReq scan req call
      (onRetrieved run.session req call).2] }

/-- A batch came for its scan, and for every scan that one came for before. -/
theorem after_batch_came {other : Nat} :
    0 < (run.afterBatch scan req call).came other ↔ other = scan ∨ 0 < run.came other := by
  show 0 < Function.update run.came scan (run.came scan + 1) other ↔ _
  by_cases heq : other = scan
  · simp [heq]
  · simp [heq]

/-- A batch keeps the heads. -/
theorem HeadsSent.batch (h : HeadsSent run) (hreq : run.scans[scan]? = some req)
    (hfirst : call.firstSet ↔ run.came scan = 0) : HeadsSent (run.afterBatch scan req call) where
  came := by
    intro batch hbatch
    rw [after_batch_came]
    obtain hold | hnew := List.mem_append.mp hbatch
    · exact .inr (h.came batch hold)
    · exact .inl (congrArg SentBatch.scan (List.mem_singleton.mp hnew))
  known := by
    intro other hpos
    obtain rfl | hold := after_batch_came.mp hpos
    · exact ⟨req, hreq⟩
    · exact h.known other hold
  head := by
    intro other otherReq hpos hother
    by_cases hold : 0 < run.came other
    · obtain ⟨batch, hbatch, hscan⟩ := h.head other otherReq hold hother
      exact ⟨batch, List.mem_append_left _ hbatch, hscan⟩
    -- the first batch of its scan, so it has the head
    · obtain rfl := (after_batch_came.mp hpos).resolve_right hold
      obtain rfl : req = otherReq := Option.some.inj (hreq.symm.trans hother)
      refine ⟨_, List.mem_append_right _ (List.mem_singleton_self _), rfl, ?_⟩
      exact if_pos (hfirst.mpr (Nat.eq_zero_of_not_pos hold))
  fields := by
    intro batch hbatch fields hhead other hother
    obtain hold | hnew := List.mem_append.mp hbatch
    · exact h.fields batch hold fields hhead other hother
    · obtain rfl := List.mem_singleton.mp hnew
      obtain rfl : req = other := Option.some.inj (hreq.symm.trans hother)
      obtain ⟨-, hfields⟩ := Option.ite_none_right_eq_some.mp hhead
      exact (Option.some.inj hfields).symm

/-- A row with keys carries the fields of the last request. -/
theorem sent_row_names {lastListReq : ListRequest} {game : Game} {server : Server}
    (hkeys : (rowHeader lastListReq game false server).flags.hasKeys) :
    (sentRow lastListReq game server).names = lastListReq.fieldList := by
  rw [SentRow.names, sentRow, if_pos hkeys, List.map_map]
  exact List.map_id _

/-- The rows of a batch match if it has none with keys, or the last request has the fields of
the request of its scan. -/
theorem rows_match_batch (hreq : run.scans[scan]? = some req) :
    RowsMatchRequest (run.afterBatch scan req call) ↔
      RowsMatchRequest run ∧ (keyedServers run.session.lastListReq req call ≠ [] →
        run.session.lastListReq.fieldList = req.fieldList) := by
  show (∀ batch ∈ run.sent ++ [sentBatch run.session.lastListReq scan req call
    (onRetrieved run.session req call).2], _) ↔ _
  rw [List.forall_mem_append, List.forall_mem_singleton]
  refine and_congr_right fun _ => ?_
  constructor
  · intro hrows hkeyed
    obtain ⟨server, hserver⟩ := List.exists_mem_of_ne_nil _ hkeyed
    obtain ⟨hlisted, hkeys⟩ := List.mem_filter.mp hserver
    have hnames := hrows _ (List.mem_map.mpr ⟨_, List.mem_map.mpr ⟨server, hlisted, rfl⟩, rfl⟩)
      hkeys req hreq
    rwa [sent_row_names hkeys] at hnames
  · intro hsteady row hrow hkeys other hother
    obtain ⟨touched, htouched, rfl⟩ := List.mem_map.mp hrow
    obtain ⟨server, hlisted, rfl⟩ := List.mem_map.mp htouched
    obtain rfl : req = other := Option.some.inj (hreq.symm.trans hother)
    rw [sent_row_names hkeys]
    exact hsteady (List.ne_nil_of_mem (List.mem_filter.mpr ⟨hlisted, hkeys⟩))

/-- What an event keeps, and when it keeps the rows right. -/
theorem HeadsSent.step (h : HeadsSent run) (event : SessionEvent) :
    HeadsSent (run.step answers event) ∧ (RowsMatchRequest (run.step answers event) ↔
      RowsMatchRequest run ∧ SteadyStep answers run event) := by
  cases event with
  | listRequest parsed =>
      obtain ⟨hheads, hrows⟩ := h.act (processListRequest run.session parsed)
      exact ⟨hheads, hrows.trans (and_iff_left trivial).symm⟩
  | gameInfo => exact ⟨⟨h.came, h.known, h.head, h.fields⟩, (and_iff_left trivial).symm⟩
  | gameInfoPair gameDataFirst gameDataSecond =>
      obtain ⟨hheads, hrows⟩ :=
        h.act (onRecievedGameInfoPair run.session gameDataFirst gameDataSecond)
      exact ⟨hheads, hrows.trans (and_iff_left trivial).symm⟩
  | batch scan =>
      cases hnext : run.next answers scan with
      | none =>
          have hstep : run.step answers (.batch scan) = run := by
            simp only [ListRun.step, hnext]
          rw [hstep, SteadyStep]
          simp [h, hnext]
      | some next =>
          obtain ⟨req, call⟩ := next
          obtain ⟨hreq, hfirst⟩ := next_first_set hnext
          have hstep : run.step answers (.batch scan) = run.afterBatch scan req call := by
            simp only [ListRun.step, hnext, ListRun.afterBatch]
          rw [hstep, SteadyStep]
          refine ⟨h.batch hreq hfirst, (rows_match_batch hreq).trans ?_⟩
          simp [hnext]

/-- What a run keeps, and when it keeps the rows right. -/
theorem HeadsSent.after (h : HeadsSent run) (events : List SessionEvent) :
    HeadsSent (run.after answers events) ∧
      (RowsMatchRequest (run.after answers events) ↔
        RowsMatchRequest run ∧ SteadyRun answers run events) := by
  induction events generalizing run with
  | nil => exact ⟨h, (and_iff_left trivial).symm⟩
  | cons event events ih =>
      obtain ⟨hheads, hstep⟩ := h.step event
      obtain ⟨hafter, hrows⟩ := ih hheads
      exact ⟨hafter, hrows.trans ((and_congr_left' hstep).trans and_assoc)⟩

end

section

variable {answers : Nat → Answer} {run : ListRun} {peerIp : IPv4}

theorem sent_row_bytes (lastListReq : ListRequest) (game : Game) (server : Server) :
    (sentRow lastListReq game server).bytes = rowBytes lastListReq game server := by
  rw [SentRow.bytes, sentRow, rowBytes]
  split
  · rw [List.flatMap_map]
  · rfl

theorem sent_row_of (lastListReq : ListRequest) (game : Game) (server : Server) :
    (sentRow lastListReq game server).Of game server where
  address := rfl
  cells := by
    intro cell hcell
    rw [sentRow] at hcell
    split at hcell
    · obtain ⟨name, -, rfl⟩ := List.mem_map.mp hcell
      rfl
    · cases hcell
  unkeyed := fun hkeys => if_neg fun hkeyed => Bool.false_ne_true (hkeys.symm.trans hkeyed)

/-- The packets of a batch are written from the record that is kept of it. -/
theorem sent_batch_written (lastListReq : ListRequest) (scan : Nat) {listReq : ListRequest}
    (call : RetrievedCall) (hlist : listReq.noServerList = false) :
    (sentBatch lastListReq scan listReq call
      (sendListQueryResp peerIp lastListReq call listReq)).Written peerIp where
  packets := by
    have hhead : (if call.firstSet then some listReq.fieldList else none).elim []
        (fun fields => headBytes peerIp { listReq with fieldList := fields }) =
          if call.firstSet then headBytes peerIp listReq else [] := by
      split <;> rfl
    have hrows : (((withRow call.list).map (touchFields listReq.fieldList)).map
        (sentRow lastListReq (rowGame listReq))).flatMap SentRow.bytes =
          rowsBytes lastListReq listReq call.list := by
      rw [List.flatMap_map, List.flatMap_map]
      exact List.flatMap_congr fun server _ => sent_row_bytes _ _ _
    show (sendListQueryResp peerIp lastListReq call listReq).flatten = _
    rw [list_query_resp_bytes peerIp lastListReq call hlist, ← hhead, ← hrows]
    rfl
  rows := by
    show List.Forall₂ _ _ (List.map _ _)
    rw [List.forall₂_map_right_iff]
    exact List.forall₂_same.mpr fun server _ => sent_row_of _ _ _

/-- The requests of the scans ask for a list, and what was sent was written. -/
structure BatchesWritten (peerIp : IPv4) (run : ListRun) : Prop where
  address : run.session.peerIp = peerIp
  lists : ∀ req ∈ run.scans, req.noServerList = false
  written : ∀ batch ∈ run.sent, batch.Written peerIp

/-- What a request does to the address and the scans. -/
theorem issued_list (session : ListSession) (gameDataFirst gameDataSecond : Game) :
    (onRecievedGameInfoPair session gameDataFirst gameDataSecond).1.peerIp = session.peerIp ∧
      ∀ req, (onRecievedGameInfoPair session gameDataFirst gameDataSecond).2 = .getServers req ∨
        (onRecievedGameInfoPair session gameDataFirst gameDataSecond).2 = .getGroups req →
          req.noServerList = false := by
  unfold onRecievedGameInfoPair
  by_cases hfirst : cString gameDataFirst.secretkey = []
  · simp [hfirst]
  · by_cases hsecond : cString gameDataSecond.secretkey = []
    · simp [hfirst, hsecond]
    · by_cases hlist : session.lastListReq.noServerList
      · simp [hfirst, hsecond, hlist]
      · by_cases hgroups : session.lastListReq.sendGroups
        · simp [hfirst, hsecond, hlist, hgroups]
        · simp [hfirst, hsecond, hlist, hgroups]

theorem process_list_request_list (session : ListSession) (parsed : ListRequest) :
    (processListRequest session parsed).1.peerIp = session.peerIp ∧
      ∀ req, (processListRequest session parsed).2 = .getServers req ∨
        (processListRequest session parsed).2 = .getGroups req → req.noServerList = false := by
  unfold processListRequest
  dsimp only
  split
  · simp
  · exact issued_list _ _ _

/-- Noting a scan keeps what was sent. -/
theorem BatchesWritten.act (h : BatchesWritten peerIp run) {result : ListSession × ListAction}
    (haddress : result.1.peerIp = run.session.peerIp)
    (hlists : ∀ req, result.2 = .getServers req ∨ result.2 = .getGroups req →
      req.noServerList = false) : BatchesWritten peerIp (run.act result) := by
  obtain ⟨session, action⟩ := result
  have hadd : ∀ req, req.noServerList = false → ∀ other ∈ run.scans ++ [req],
      other.noServerList = false := by
    intro req hreq other hother
    obtain hold | hnew := List.mem_append.mp hother
    · exact h.lists other hold
    · rw [List.mem_singleton.mp hnew]
      exact hreq
  cases action with
  | getServers req => exact ⟨haddress.trans h.address, hadd req (hlists req (.inl rfl)), h.written⟩
  | getGroups req => exact ⟨haddress.trans h.address, hadd req (hlists req (.inr rfl)), h.written⟩
  | getGameInfoPair | sendError | send => exact ⟨haddress.trans h.address, h.lists, h.written⟩

/-- Every event keeps what was sent, and a batch is written. -/
theorem BatchesWritten.step (h : BatchesWritten peerIp run) (event : SessionEvent) :
    BatchesWritten peerIp (run.step answers event) := by
  cases event with
  | listRequest parsed =>
      obtain ⟨haddress, hlists⟩ := process_list_request_list run.session parsed
      exact h.act haddress hlists
  | gameInfo => exact ⟨h.address, h.lists, h.written⟩
  | gameInfoPair gameDataFirst gameDataSecond =>
      obtain ⟨haddress, hlists⟩ := issued_list run.session gameDataFirst gameDataSecond
      exact h.act haddress hlists
  | batch scan =>
      cases hnext : run.next answers scan with
      | none =>
          have hstep : run.step answers (.batch scan) = run := by
            simp only [ListRun.step, hnext]
          rwa [hstep]
      | some next =>
          obtain ⟨req, call⟩ := next
          have hlist := h.lists req (List.mem_of_getElem? (next_first_set hnext).1)
          have hstep : run.step answers (.batch scan) = run.afterBatch scan req call := by
            simp only [ListRun.step, hnext, ListRun.afterBatch]
          rw [hstep]
          refine ⟨h.address, h.lists, fun batch hbatch => ?_⟩
          obtain hold | hnew := List.mem_append.mp hbatch
          · exact h.written batch hold
          · rw [List.mem_singleton.mp hnew, onRetrieved, h.address]
            exact sent_batch_written _ _ _ hlist

theorem BatchesWritten.after (h : BatchesWritten peerIp run) (events : List SessionEvent) :
    BatchesWritten peerIp (run.after answers events) := by
  induction events generalizing run with
  | nil => exact h
  | cons event events ih => exact ih (h.step event)

end

/-- In a run of list requests and batches in any order, the packets of every batch are its head, its
rows and its ending; and exactly when the run is steady, every row carries the fields of the head of
its list. -/
theorem rows_match_head_iff (answers : Nat → Answer) (session : ListSession)
    (events : List SessionEvent) :
    (∀ batch ∈ ((ListRun.start session).after answers events).sent,
      batch.Written session.peerIp) ∧
    (RowsMatchHead ((ListRun.start session).after answers events).sent ↔
      SteadyRun answers (ListRun.start session) events) := by
  have hwritten : BatchesWritten session.peerIp (ListRun.start session) := by
    constructor <;> simp [ListRun.start]
  have hstart : HeadsSent (ListRun.start session) := by
    constructor <;> simp [ListRun.start]
  obtain ⟨hheads, hrows⟩ := hstart.after events
  refine ⟨(hwritten.after events).written, ?_⟩
  rw [hheads.rows_match_iff, hrows]
  exact and_iff_right fun batch hbatch => absurd hbatch List.not_mem_nil

/-- The answer of two batches with one server each. -/
def twoBatches : Answer :=
  .ofScan (playersBatch oneServer) [some ⟨7, [ascii "a"]⟩, some ⟨0, [ascii "b"]⟩]

/-- A request for the host name comes between the two batches of a list of players. -/
theorem host_request_between_batches :
    ¬RowsMatchHead ((ListRun.start playersSession).after (fun _ => twoBatches)
      [.gameInfoPair playersGame playersGame, .batch 0,
        .listRequest { playersRequest with fieldList := [ascii "host"] }, .batch 0]).sent := by
  intro hmatch
  -- the row of the second batch, and the head that came with the first
  obtain ⟨batch, hbatch, row, hrow, hkeys, hnames, other, hother, hscan, hhead⟩ :
      ∃ batch ∈ ((ListRun.start playersSession).after (fun _ => twoBatches)
        [.gameInfoPair playersGame playersGame, .batch 0,
          .listRequest { playersRequest with fieldList := [ascii "host"] }, .batch 0]).sent,
        ∃ row ∈ batch.rows, row.header.flags.hasKeys ∧ row.names = [ascii "host"] ∧
          ∃ other ∈ ((ListRun.start playersSession).after (fun _ => twoBatches)
            [.gameInfoPair playersGame playersGame, .batch 0,
              .listRequest { playersRequest with fieldList := [ascii "host"] }, .batch 0]).sent,
            other.scan = batch.scan ∧ other.head = some [ascii "players"] := by
    decide +kernel
  have hfields := hmatch batch hbatch row hrow hkeys other hother hscan _ hhead
  rw [hnames] at hfields
  exact absurd hfields (by decide)

end OpenSpy.ServerBrowsing
