import OpenSpy.ServerBrowsing.GetGroups

/-!
# The scan behind a list

`GetServers` and `GetGroups` scan the set of a game with `ZSCAN` and hand the servers or groups
of each batch to the peer, a batch without any only if it is the last one. A reply that is
missing, or an error, ends the scan at once.

Each batch is filled on its own, and `max_results` with it. `max_results_iff` says when the
limit bounds the whole list all the same.
-/

namespace OpenSpy.ServerBrowsing

open Bytes Limit

/-- A reply of `ZSCAN`: the next cursor, 0 at the end, and the members. -/
structure ScanReply where
  cursor : Int
  keys : List Bytes
  deriving DecidableEq, Repr

/-- The arguments of a call of `OnRetrievedServers` or `OnRetrievedGroups`. -/
structure RetrievedCall where
  list : List Server
  firstSet : Bool
  lastSet : Bool

/-- The loop of `GetServers` and `GetGroups`. A reply that is missing or has fewer than two
elements is `none`, and so is what comes after the last reply. -/
def scanLoop (append : List Bytes → List Server) : Bool → List (Option ScanReply) →
    List RetrievedCall
  | _, [] => []
  | _, none :: _ => []
  | sentServers, some reply :: replies =>
      let list := append reply.keys
      let lastSet := reply.cursor = 0
      let calls := if !list.isEmpty || lastSet then [⟨list, !sentServers, lastSet⟩] else []
      if lastSet then calls
      else calls ++ scanLoop append (sentServers || !list.isEmpty) replies

section

variable (redis : Bytes → ServerRecord) (undef : Bytes → Bool) (req : ServerListReq)

/-- `GetServers`. `selected` tells whether there was a reply to `SELECT`. -/
def getServers (peerVersion : Nat) (selected : Bool) (replies : List (Option ScanReply)) :
    List RetrievedCall :=
  if selected then
    scanLoop (fun keys => (appendServerEntries redis undef keys ⟨[], []⟩ req peerVersion).list)
      false replies
  else []

/-- `GetGroups`, which ignores the reply to `SELECT`. -/
def getGroups (replies : List (Option ScanReply)) : List RetrievedCall :=
  let tokenList := filterToTokenList req.filter
  scanLoop
    (fun keys =>
      if req.allKeys then appendGroupEntriesAllKeys redis undef keys req tokenList
      else appendGroupEntries redis undef keys req tokenList)
    false replies

/-- The entry of a server that matches a list request. -/
def matchingEntry (peerVersion : Nat) (serverKey : Bytes) : Option Server :=
  let (basicLookupKeys, lookupKeys, tokenList) :=
    buildServerListRequestData req (if req.allKeys then 0 else peerVersion)
  matchingServer req tokenList (undef serverKey)
    (loadBasicServerInfo (Redis.hmget (redis serverKey).basic basicLookupKeys))
    (fun server =>
      if req.allKeys then
        setKey (loadCustomServerInfoAllKeys server (redis serverKey).hgetall) serverKey
      else
        { setKey (loadCustomServerInfo server lookupKeys
            (Redis.hmget (redis serverKey).custkeys lookupKeys)) serverKey with
          gameid := req.forGame.gameid })

/-- The entry of a group that matches a group request. -/
def matchingGroup (groupKey : Bytes) : Option Server :=
  let tokenList := filterToTokenList req.filter
  let lookupKeys := req.fieldList ++ (tokenList.getD []).filterMap variableName
  let basic := loadBasicGroupInfo (Redis.hmget (redis groupKey).basic groupLookupKeys)
  let group :=
    if req.allKeys then loadCustomServerInfoAllKeys basic (redis groupKey).hgetall
    else loadCustomServerInfo basic lookupKeys (Redis.hmget (redis groupKey).custkeys lookupKeys)
  let (isMatch, kvFields) := filterAnswer (undef groupKey) tokenList group.kvFields
  if isMatch then some { group with kvFields := kvFields } else none

end

/-- The batches of keys that the scan gets. -/
def scannedBatches : List (Option ScanReply) → List (List Bytes)
  | some reply :: replies =>
      reply.keys :: if reply.cursor = 0 then [] else scannedBatches replies
  | _ => []

/-- All servers or groups that were handed to the peer. -/
def delivered (calls : List RetrievedCall) : List Server :=
  calls.flatMap RetrievedCall.list

/-- The numbers of matching entries in the batches. -/
def matchCounts (entry : Bytes → Option Server) (replies : List (Option ScanReply)) : List Nat :=
  (scannedBatches replies).map fun keys => (keys.filterMap entry).length

/-- The matching entries are no more than the limit, or all in one batch. -/
def FitsLimit (limit : Nat) (counts : List Nat) : Prop :=
  counts.sum ≤ limit ∨ (counts.filter (· ≠ 0)).length ≤ 1

section Loop

variable {append : List Bytes → List Server} {sentServers : Bool} {reply : ScanReply}
  {replies : List (Option ScanReply)}

/-- The last batch is handed over also if it is empty. -/
theorem scan_loop_last (hcursor : reply.cursor = 0) :
    scanLoop append sentServers (some reply :: replies) =
      [⟨append reply.keys, !sentServers, true⟩] := by
  simp [scanLoop, hcursor]

/-- An empty batch before it is not. -/
theorem scan_loop_empty (hcursor : reply.cursor ≠ 0) (hempty : append reply.keys = []) :
    scanLoop append sentServers (some reply :: replies) = scanLoop append sentServers replies := by
  simp [scanLoop, hcursor, hempty]

/-- A batch that is not empty is handed over. -/
theorem scan_loop_batch (hcursor : reply.cursor ≠ 0) (hbatch : append reply.keys ≠ []) :
    scanLoop append sentServers (some reply :: replies) =
      ⟨append reply.keys, !sentServers, false⟩ :: scanLoop append true replies := by
  simp [scanLoop, hcursor, List.isEmpty_eq_false_iff.mpr hbatch]

end Loop

/-- The calls deliver what is appended for each batch. -/
theorem delivered_scan_loop (append : List Bytes → List Server) (sentServers : Bool)
    (replies : List (Option ScanReply)) :
    delivered (scanLoop append sentServers replies) = (scannedBatches replies).flatMap append := by
  induction replies generalizing sentServers with
  | nil => rfl
  | cons reply replies ih =>
      cases reply with
      | none => rfl
      | some reply =>
          rw [scannedBatches, List.flatMap_cons]
          by_cases hcursor : reply.cursor = 0
          · rw [scan_loop_last hcursor, if_pos hcursor]
            rfl
          · rw [if_neg hcursor]
            by_cases hempty : append reply.keys = []
            · rw [scan_loop_empty hcursor hempty, ih, hempty, List.nil_append]
            · rw [scan_loop_batch hcursor hempty, ← ih true]
              rfl

/-- Where each batch keeps to the limit, the whole list does exactly if the entries fit. -/
theorem delivered_within_iff {append : List Bytes → List Server} {entry : Bytes → Option Server}
    {limit : Nat} (hlimit : limit ≠ 0)
    (happend : ∀ keys, (append keys).length = min limit (keys.filterMap entry).length)
    (replies : List (Option ScanReply)) :
    (delivered (scanLoop append false replies)).length =
        min limit (matchCounts entry replies).sum ↔
      FitsLimit limit (matchCounts entry replies) := by
  have hlength : (delivered (scanLoop append false replies)).length =
      ((matchCounts entry replies).map (min limit)).sum := by
    rw [delivered_scan_loop, List.length_flatMap, matchCounts, List.map_map]
    exact congrArg List.sum (List.map_congr_left fun keys _ => happend keys)
  rw [hlength, sum_min_eq_iff hlimit]
  rfl

/-- `AppendServerEntries` pushes the matching entries within the limit. -/
theorem append_server_entries_push (redis : Bytes → ServerRecord) (undef : Bytes → Bool)
    (req : ServerListReq) (peerVersion : Nat) (keys : List Bytes) :
    (appendServerEntries redis undef keys ⟨[], []⟩ req peerVersion).list =
      keys.foldl (fun list key => pushWithin req.maxResults list
        (matchingEntry redis undef req peerVersion key)) [] := by
  by_cases hkeys : keys = []
  · simp [appendServerEntries, hkeys]
  · rw [appendServerEntries, if_neg hkeys]
    by_cases hall : req.allKeys
    · rw [if_pos hall]
      refine (List.foldl_hom ServerListQuery.list fun query key => ?_).symm
      rw [append_server_entry_push, matchingEntry]
      simp only [hall, if_true]
      rfl
    · rw [if_neg hall]
      refine (List.foldl_hom ServerListQuery.list fun query key => ?_).symm
      rw [append_server_entry_push, matchingEntry]
      simp only [hall, Bool.false_eq_true, if_false]
      rfl

/-- The group functions do so with groups. -/
theorem append_group_entries_push (redis : Bytes → ServerRecord) (undef : Bytes → Bool)
    (req : ServerListReq) (keys : List Bytes) :
    (if req.allKeys then
        appendGroupEntriesAllKeys redis undef keys req (filterToTokenList req.filter)
      else appendGroupEntries redis undef keys req (filterToTokenList req.filter)) =
      keys.foldl (fun list key => pushWithin req.maxResults list
        (matchingGroup redis undef req key)) [] := by
  have hround (tokenList : Option (List CToken)) (undef : Bool) (group : Server)
      (list : List Server) : appendGroupEntry req tokenList undef group list =
        pushWithin req.maxResults list
          (if (filterAnswer undef tokenList group.kvFields).1 then
            some { group with kvFields := (filterAnswer undef tokenList group.kvFields).2 }
          else none) := by
    unfold appendGroupEntry
    cases hmatch : (filterAnswer undef tokenList group.kvFields).1 <;> simp [hmatch, pushWithin]
  by_cases hall : req.allKeys
  · simp only [hall, if_true, appendGroupEntriesAllKeys, hround, matchingGroup]
  · simp only [hall, Bool.false_eq_true, if_false, appendGroupEntries, hround, matchingGroup]

/-- With a limit, exactly when a list or group request gets the smaller of the limit and the
number of matching entries. -/
theorem max_results_iff (redis : Bytes → ServerRecord) (undef : Bytes → Bool)
    (req : ServerListReq) (peerVersion : Nat) (replies : List (Option ScanReply))
    (hlimit : req.maxResults ≠ 0) :
    ((delivered (getServers redis undef req peerVersion true replies)).length =
        min req.maxResults (matchCounts (matchingEntry redis undef req peerVersion) replies).sum ↔
      FitsLimit req.maxResults (matchCounts (matchingEntry redis undef req peerVersion) replies)) ∧
    ((delivered (getGroups redis undef req replies)).length =
        min req.maxResults (matchCounts (matchingGroup redis undef req) replies).sum ↔
      FitsLimit req.maxResults (matchCounts (matchingGroup redis undef req) replies)) := by
  constructor
  · refine delivered_within_iff hlimit (fun keys => ?_) replies
    rw [append_server_entries_push, foldl_push_within hlimit, List.nil_append, List.length_take]
    rfl
  · refine delivered_within_iff hlimit (fun keys => ?_) replies
    rw [append_group_entries_push, foldl_push_within hlimit, List.nil_append, List.length_take]
    rfl

/-- Two servers in one batch, and a limit of one. -/
theorem max_results_one_batch :
    (delivered (getServers (fun _ => oneServer) (fun _ => true)
      { ServerListReq.default with maxResults := 1 } 2 true
      [some ⟨0, [ascii "a", ascii "b"]⟩])).length =
      min 1 (matchCounts (matchingEntry (fun _ => oneServer) (fun _ => true)
        { ServerListReq.default with maxResults := 1 } 2) [some ⟨0, [ascii "a", ascii "b"]⟩]).sum :=
  (max_results_iff (fun _ => oneServer) (fun _ => true)
    { ServerListReq.default with maxResults := 1 } 2 [some ⟨0, [ascii "a", ascii "b"]⟩]
    (by decide)).1.mpr (.inr (by decide +kernel))

/-- The same two servers in two batches are both delivered. -/
theorem max_results_two_batches :
    (delivered (getServers (fun _ => oneServer) (fun _ => true)
      { ServerListReq.default with maxResults := 1 } 2 true
      [some ⟨7, [ascii "a"]⟩, some ⟨0, [ascii "b"]⟩])).length ≠
      min 1 (matchCounts (matchingEntry (fun _ => oneServer) (fun _ => true)
        { ServerListReq.default with maxResults := 1 } 2)
        [some ⟨7, [ascii "a"]⟩, some ⟨0, [ascii "b"]⟩]).sum := by
  decide +kernel

end OpenSpy.ServerBrowsing
