import Mathlib.Data.List.Sort
import OpenSpy.ServerBrowsing.Scan

/-!
# The list with all keys

A V1 client that asks for `info2` gets a line with the names of the columns and a row for each
server. `AppendServerEntries_AllKeys` captures the columns of each scan batch from the servers
in it. `SendServerInfo` puts the column `ip` before those of the first batch only, and announces
only these. `info_rectangular_iff` says when every row has the columns that were announced.
-/

namespace OpenSpy.ServerBrowsing

open Bytes Limit

/-- The names of the fields of a server that was loaded with all keys, in the order of the
map. -/
def fieldNames (record : ServerRecord) : List Bytes :=
  ((if (record.basic (ascii "country")).isSome then [ascii "country"] else []) ++
    record.hgetall.map (fun entry => cString entry.1) ++
    [ascii "backend_id"]).dedup.insertionSort (· ≤ ·)

/-- A name joins the captured fields if it is not there yet. -/
def captureName (captured : List Bytes) (name : Bytes) : List Bytes :=
  if name ∈ captured then captured else captured ++ [name]

/-- What `AppendServerEntries_AllKeys` captures of a server. -/
def captureServer (req : ServerListReq) (record : ServerRecord) (captured : List Bytes) :
    List Bytes :=
  match loadBasicServerInfo (Redis.hmget record.basic basicLookupKeys) with
  | none => captured
  | some server =>
      if req.includeDeleted || !server.deleted then
        (fieldNames record).foldl captureName captured
      else captured

/-- What `OnRetrievedServers` gets for one batch of an `info2` list. -/
structure InfoBatch extends RetrievedCall where
  capturedBasicFields : List Bytes

/-- `Address::ToString(false)`, which prints the port with its bytes swapped. -/
def addressToString (ip : IPv4) (port : UInt16) : Bytes :=
  inetNtop ip ++ char ':' :: printNat (port.toNat % 256 * 256 + port.toNat / 256)

/-- `V1Peer::field_cleanup`. -/
def fieldCleanup (s : Bytes) : Bytes :=
  s.map fun ch => if ch = char '\\' then char '.' else ch

/-- The columns of the rows of a batch. -/
def infoColumns (batch : InfoBatch) : List Bytes :=
  if batch.firstSet then ascii "ip" :: batch.capturedBasicFields else batch.capturedBasicFields

/-- The value that a server has for a column. -/
def infoValue (server : Server) (column : Bytes) : Bytes :=
  Fields.read (Function.update server.kvFields (ascii "ip")
    (some (addressToString server.wanIp server.wanPort))) column

/-- The columns of a row, with what is written for them. -/
def infoRow (batch : InfoBatch) (server : Server) : List (Bytes × Bytes) :=
  (infoColumns batch).map fun column => (column, fieldCleanup (infoValue server column))

/-- `V1Peer::SendServerInfo`: the packets, without the end of the last one. -/
def sendServerInfo (batch : InfoBatch) : List Bytes :=
  let head := ascii "\\fieldcount\\" ++ printNat (infoColumns batch).length ++
    (infoColumns batch).flatMap (char '\\' :: ·)
  let rows := batch.list.flatMap fun server =>
    (infoRow batch server).flatMap fun cell => char '\\' :: cell.2
  (if batch.firstSet then [head] else []) ++ [rows]

/-- `GetServers` for a request with all keys, with the fields that are captured for each
batch. -/
def infoLoop (append : List Bytes → List Server) (capture : List Bytes → List Bytes) :
    Bool → List (Option ScanReply) → List InfoBatch
  | _, [] => []
  | _, none :: _ => []
  | sentServers, some reply :: replies =>
      let list := append reply.keys
      let lastSet := reply.cursor = 0
      let batches :=
        if !list.isEmpty || lastSet then [⟨⟨list, !sentServers, lastSet⟩, capture reply.keys⟩]
        else []
      if lastSet then batches
      else batches ++ infoLoop append capture (sentServers || !list.isEmpty) replies

/-- A list request in the mode `info2`, in which `handle_list` asks for all keys. -/
def ServerListReq.info2 (req : ServerListReq) : ServerListReq :=
  { req with allKeys := true }

/-- The batches of an `info2` list. -/
def infoBatches (redis : Bytes → ServerRecord) (undef : Bytes → Bool) (req : ServerListReq)
    (replies : List (Option ScanReply)) : List InfoBatch :=
  infoLoop
    (fun keys => (appendServerEntries redis undef keys ⟨[], []⟩ req.info2 1).list)
    (fun keys => keys.foldl (fun captured key => captureServer req.info2 (redis key) captured) [])
    false replies

/-- Every row has the columns that were announced, each with the cleaned value of the server. -/
def Rectangular (batches : List InfoBatch) : Prop :=
  ∀ first ∈ batches, first.firstSet → ∀ batch ∈ batches, ∀ server ∈ batch.list,
    infoRow batch server =
      (infoColumns first).map fun column => (column, fieldCleanup (infoValue server column))

instance (batches : List InfoBatch) : Decidable (Rectangular batches) :=
  inferInstanceAs (Decidable (∀ first ∈ batches, first.firstSet → ∀ batch ∈ batches,
    ∀ server ∈ batch.list, infoRow batch server =
      (infoColumns first).map fun column => (column, fieldCleanup (infoValue server column))))

/-- The first field of a server is not `ip`, since `backend_id` is a field and comes before. -/
theorem field_names_head (record : ServerRecord) :
    (fieldNames record).head? ≠ some (ascii "ip") := by
  intro hhead
  have : IsTrans Bytes (· ≤ ·) := ⟨fun _ _ _ => List.le_trans⟩
  have : Std.Total (α := Bytes) (· ≤ ·) := ⟨List.le_total⟩
  have hsorted : (fieldNames record).Pairwise (· ≤ ·) := List.pairwise_insertionSort (· ≤ ·) _
  have hbackend : ascii "backend_id" ∈ fieldNames record := by
    simp [fieldNames]
  obtain ⟨names, hnames⟩ := List.head?_eq_some_iff.mp hhead
  rw [hnames] at hsorted hbackend
  obtain heq | hmem := List.mem_cons.mp hbackend
  · exact absurd heq (by decide)
  · exact absurd ((List.pairwise_cons.mp hsorted).1 _ hmem) (by decide)

/-- The first of the captured fields stays the first. -/
theorem foldl_capture_name_head (names : List Bytes) {captured : List Bytes} :
    (names.foldl captureName captured).head? = captured.head?.or names.head? := by
  induction names generalizing captured with
  | nil => simp
  | cons name names ih =>
      rw [List.foldl_cons, ih]
      cases captured with
      | nil => simp [captureName]
      | cons field captured =>
          by_cases hmem : name ∈ field :: captured <;> simp [captureName, hmem]

/-- A server does not make `ip` the first captured field. -/
theorem capture_server_head (req : ServerListReq) (record : ServerRecord) {captured : List Bytes}
    (h : captured.head? ≠ some (ascii "ip")) :
    (captureServer req record captured).head? ≠ some (ascii "ip") := by
  unfold captureServer
  split
  · exact h
  · split
    · rw [foldl_capture_name_head]
      intro heq
      obtain hcaptured | ⟨-, hnames⟩ := Option.or_eq_some_iff.mp heq
      · exact h hcaptured
      · exact field_names_head _ hnames
    · exact h

/-- So `ip` is not the first captured field of a batch. -/
theorem captured_head (redis : Bytes → ServerRecord) (req : ServerListReq) (keys : List Bytes)
    {captured : List Bytes} (h : captured.head? ≠ some (ascii "ip")) :
    (keys.foldl (fun captured key => captureServer req (redis key) captured) captured).head? ≠
      some (ascii "ip") := by
  induction keys generalizing captured with
  | nil => exact h
  | cons key keys ih => exact ih (capture_server_head req (redis key) h)

/-- A row has the announced columns exactly if its batch has them. -/
theorem info_row_eq_iff (first batch : InfoBatch) (server : Server) :
    infoRow batch server =
        (infoColumns first).map (fun column => (column, fieldCleanup (infoValue server column))) ↔
      infoColumns batch = infoColumns first := by
  constructor
  · intro h
    have hcolumns := congrArg (List.map Prod.fst) h
    simpa [infoRow, Function.comp_def] using hcolumns
  · intro h
    rw [infoRow, h]

section Loop

variable {append : List Bytes → List Server} {capture : List Bytes → List Bytes}
  {sentServers : Bool} {reply : ScanReply} {replies : List (Option ScanReply)}

/-- The last batch is handed over also if it is empty. -/
theorem info_loop_last (hcursor : reply.cursor = 0) :
    infoLoop append capture sentServers (some reply :: replies) =
      [⟨⟨append reply.keys, !sentServers, true⟩, capture reply.keys⟩] := by
  simp [infoLoop, hcursor]

/-- An empty batch before it is not. -/
theorem info_loop_empty (hcursor : reply.cursor ≠ 0) (hempty : append reply.keys = []) :
    infoLoop append capture sentServers (some reply :: replies) =
      infoLoop append capture sentServers replies := by
  simp [infoLoop, hcursor, hempty]

/-- A batch that is not empty is handed over. -/
theorem info_loop_batch (hcursor : reply.cursor ≠ 0) (hbatch : append reply.keys ≠ []) :
    infoLoop append capture sentServers (some reply :: replies) =
      ⟨⟨append reply.keys, !sentServers, false⟩, capture reply.keys⟩ ::
        infoLoop append capture true replies := by
  simp [infoLoop, hcursor, List.isEmpty_eq_false_iff.mpr hbatch]

/-- Behind the first batch no other is marked as the first. -/
theorem info_loop_later :
    ∀ batch ∈ infoLoop append capture true replies, batch.firstSet = false := by
  induction replies with
  | nil => simp [infoLoop]
  | cons reply replies ih =>
      cases reply with
      | none => simp [infoLoop]
      | some reply =>
          by_cases hcursor : reply.cursor = 0
          · simp [info_loop_last hcursor]
          · by_cases hempty : append reply.keys = []
            · rwa [info_loop_empty hcursor hempty]
            · simpa [info_loop_batch hcursor hempty] using ih

/-- The batches are a first one, which is marked, and others that are not. -/
theorem info_loop_first :
    infoLoop append capture false replies = [] ∨
      ∃ first rest, infoLoop append capture false replies = first :: rest ∧
        first.firstSet = true ∧ ∀ batch ∈ rest, batch.firstSet = false := by
  induction replies with
  | nil => exact .inl rfl
  | cons reply replies ih =>
      cases reply with
      | none => exact .inl rfl
      | some reply =>
          by_cases hcursor : reply.cursor = 0
          · exact .inr ⟨_, [], info_loop_last hcursor, rfl, by simp⟩
          · by_cases hempty : append reply.keys = []
            · rwa [info_loop_empty hcursor hempty]
            · exact .inr ⟨_, _, info_loop_batch hcursor hempty, rfl, info_loop_later⟩

/-- The captured fields of each batch. -/
theorem info_loop_captured :
    ∀ batch ∈ infoLoop append capture sentServers replies,
      ∃ keys, batch.capturedBasicFields = capture keys := by
  induction replies generalizing sentServers with
  | nil => simp [infoLoop]
  | cons reply replies ih =>
      cases reply with
      | none => simp [infoLoop]
      | some reply =>
          by_cases hcursor : reply.cursor = 0
          · simp [info_loop_last hcursor]
          · by_cases hempty : append reply.keys = []
            · rw [info_loop_empty hcursor hempty]
              exact ih
            · rw [info_loop_batch hcursor hempty]
              intro batch hbatch
              obtain rfl | hrest := List.mem_cons.mp hbatch
              · exact ⟨reply.keys, rfl⟩
              · exact ih batch hrest

/-- Every row has the announced columns exactly if no batch behind the first one has a row. -/
theorem rectangular_iff_later (hcapture : ∀ keys, (capture keys).head? ≠ some (ascii "ip")) :
    Rectangular (infoLoop append capture false replies) ↔
      ∀ batch ∈ infoLoop append capture false replies, batch.firstSet = false →
        batch.list = [] := by
  obtain hnil | ⟨first, rest, hbatches, hfirst, hlater⟩ :=
    @info_loop_first append capture replies
  · simp [hnil, Rectangular]
  · have hcaptured := @info_loop_captured append capture false replies
    rw [hbatches] at hcaptured ⊢
    constructor
    · intro hrect batch hbatch hnot
      refine List.eq_nil_iff_forall_not_mem.mpr fun server hserver => ?_
      have hcolumns := (info_row_eq_iff first batch server).mp
        (hrect first List.mem_cons_self hfirst batch hbatch server hserver)
      obtain ⟨keys, hkeys⟩ := hcaptured batch hbatch
      rw [infoColumns, infoColumns, if_pos hfirst, hnot, if_neg Bool.false_ne_true,
        hkeys] at hcolumns
      exact hcapture keys (by rw [hcolumns]; rfl)
    · intro hempty other hother hotherFirst batch hbatch server hserver
      -- A batch with a row is the first one, as is the batch that announced the columns.
      have hfirstOnly : ∀ batch ∈ first :: rest, batch.firstSet = true → batch = first := by
        intro batch hbatch hmarked
        obtain rfl | hrest := List.mem_cons.mp hbatch
        · rfl
        · exact absurd (hlater batch hrest) (by simp [hmarked])
      have hmarked : batch.firstSet = true := by
        by_contra hnot
        rw [hempty batch hbatch (Bool.eq_false_iff.mpr hnot)] at hserver
        exact List.not_mem_nil hserver
      rw [info_row_eq_iff, hfirstOnly batch hbatch hmarked, hfirstOnly other hother hotherFirst]

/-- The number of scan batches that have something in their list. -/
def filledBatches (append : List Bytes → List Server) (replies : List (Option ScanReply)) : Nat :=
  ((scannedBatches replies).filter fun keys => append keys ≠ []).length

/-- No batch behind the first one has a row exactly if at most one scan batch has. -/
theorem later_empty_iff :
    (∀ batch ∈ infoLoop append capture sentServers replies, batch.firstSet = false →
        batch.list = []) ↔
      filledBatches append replies ≤ if sentServers then 0 else 1 := by
  induction replies generalizing sentServers with
  | nil => simp [infoLoop, filledBatches, scannedBatches]
  | cons reply replies ih =>
      cases reply with
      | none => simp [infoLoop, filledBatches, scannedBatches]
      | some reply =>
          by_cases hcursor : reply.cursor = 0
          · rw [info_loop_last hcursor]
            cases sentServers <;> by_cases hempty : append reply.keys = [] <;>
              simp [filledBatches, scannedBatches, hcursor, hempty]
          · by_cases hempty : append reply.keys = []
            · rw [info_loop_empty hcursor hempty, ih]
              simp [filledBatches, scannedBatches, hcursor, hempty]
            · have hcount : filledBatches append (some reply :: replies) =
                  filledBatches append replies + 1 := by
                simp [filledBatches, scannedBatches, hcursor, hempty]
              have hrest := @ih true
              rw [info_loop_batch hcursor hempty, List.forall_mem_cons, hrest, hcount]
              cases sentServers <;> simp [hempty]

end Loop

/-- For an `info2` request and every scan: exactly when every row has the columns that were
announced, in their order, each with the cleaned value of the server. -/
theorem info_rectangular_iff (redis : Bytes → ServerRecord) (undef : Bytes → Bool)
    (req : ServerListReq) (replies : List (Option ScanReply)) :
    Rectangular (infoBatches redis undef req replies) ↔
      ((matchCounts (matchingEntry redis undef req.info2 1) replies).filter (· ≠ 0)).length ≤ 1 := by
  have happend : ∀ keys, (appendServerEntries redis undef keys ⟨[], []⟩ req.info2 1).list ≠ [] ↔
      (keys.filterMap (matchingEntry redis undef req.info2 1)).length ≠ 0 := by
    intro keys
    rw [append_server_entries_push]
    by_cases hlimit : req.info2.maxResults = 0
    · rw [hlimit, foldl_push_unlimited]
      simp
    · rw [foldl_push_within hlimit]
      simp [hlimit]
  have hfilled : filledBatches
      (fun keys => (appendServerEntries redis undef keys ⟨[], []⟩ req.info2 1).list) replies =
        ((matchCounts (matchingEntry redis undef req.info2 1) replies).filter (· ≠ 0)).length := by
    rw [matchCounts, List.filter_map, List.length_map, filledBatches]
    congr 1
    refine List.filter_congr fun keys _ => ?_
    exact decide_eq_decide.mpr (happend keys)
  rw [infoBatches, rectangular_iff_later fun keys => captured_head redis req.info2 keys (by simp),
    later_empty_iff, hfilled]
  rfl

/-- Two servers in two batches: the row of the second one has no column `ip`. -/
theorem second_batch_not_rectangular :
    ¬Rectangular (infoBatches (fun _ => oneServer) (fun _ => true) .default
      [some ⟨7, [ascii "a"]⟩, some ⟨0, [ascii "b"]⟩]) := by
  decide +kernel

end OpenSpy.ServerBrowsing
