import OpenSpy.Core.Address
import OpenSpy.Core.Strings
import OpenSpy.Library.Limit
import OpenSpy.Library.Redis
import OpenSpy.ServerBrowsing.Filter

/-!
# How a V2 client learns of a server

`AppendServerEntries` answers a list request: it reads the basic fields of each server and of
the custom keys those that the client asked for and those that the filter names. A server
event reads all custom keys instead, and pushes the server to a peer whose last list request
it matches. `list_push_agree_iff` says when the two ways give the same answer.

Both set the fields in the order country, custom keys, `backend_id`. An answer that is
undefined is given by the parameter `undef`.
-/

namespace OpenSpy.ServerBrowsing

open Bytes Redis Limit

/-- What is used of a game. -/
structure GameData where
  gameid : Int
  gamename : Bytes
  deriving DecidableEq, Repr

/-- What is used of a list request. -/
structure ServerListReq where
  filter : Bytes
  fieldList : List Bytes
  maxResults : Nat
  pushUpdates : Bool
  forGame : GameData
  allKeys : Bool
  includeDeleted : Bool
  deriving DecidableEq, Repr

/-- A request as its constructor leaves it. -/
def ServerListReq.default : ServerListReq := ⟨[], [], 0, false, ⟨0, []⟩, false, false⟩

/-- A server as it is loaded. `gameid` is the one of its game. -/
structure Server where
  wanIp : IPv4
  wanPort : UInt16
  icmpIp : IPv4
  allowUnsolicitedUdp : Bool
  gameid : Int
  kvFields : Fields
  key : Bytes
  id : Int
  deleted : Bool

/-- The address 0.0.0.0. -/
def noAddress : IPv4 := ⟨0, 0, 0, 0⟩

/-- A server before anything is loaded. -/
def Server.empty : Server := ⟨noAddress, 0, noAddress, false, 0, fun _ => none, [], 0, false⟩

/-- The two hashes of a server, and a reply that lists the custom keys. -/
structure ServerRecord where
  basic : Hash
  custkeys : Hash
  hgetall : List (Bytes × Bytes)
  complete : HGetAll custkeys hgetall

/-- The keys of the basic hash that are read, in this order. -/
def basicLookupKeys : List Bytes :=
  [ascii "deleted", ascii "gameid", ascii "id", ascii "wan_port", ascii "wan_ip",
    ascii "icmp_address", ascii "allow_unsolicited_udp", ascii "country"]

/-- The custom keys that a V2 client gets with every list. -/
def injectedCustomKeys : List Bytes :=
  [ascii "localport", ascii "localip0", ascii "natneg"]

/-- The name of a variable token. -/
def variableName : CToken → Option Bytes
  | .var name => some name
  | _ => none

/-- `BuildServerListRequestData`: the basic and the custom keys to look up, and the tokens of
the filter. -/
def buildServerListRequestData (req : ServerListReq) (peerVersion : Nat) :
    List Bytes × List Bytes × Option (List CToken) :=
  let tokenList := filterToTokenList req.filter
  (basicLookupKeys,
    req.fieldList ++ (tokenList.getD []).filterMap variableName ++
      (if peerVersion = 2 then injectedCustomKeys else []),
    tokenList)

/-- The `switch` of `LoadBasicServerInfo`. -/
def loadBasicField (server : Server) (i : Nat) (text : Bytes) : Server :=
  match i with
  | 0 => if atoi text ≠ 0 then { server with deleted := true } else server
  | 1 => { server with gameid := atoi text }
  | 2 => { server with id := atoi text }
  | 3 => { server with wanPort := UInt16.ofInt (atoi text) }
  | 4 => { server with wanIp := inetAddr text }
  | 5 => { server with icmpIp := inetAddr text }
  | 6 => { server with allowUnsolicitedUdp := atoi text ≠ 0 }
  | 7 => { server with
            kvFields := Function.update server.kvFields (ascii "country") (some (cString text)) }
  | _ => server

/-- The loop of `LoadBasicServerInfo`, over the elements of the reply that are texts. -/
def loadBasicFields (reply : List (Option Bytes × Nat)) (server : Server) : Server :=
  reply.foldl (fun server entry => entry.1.elim server (loadBasicField server entry.2)) server

/-- `LoadBasicServerInfo`, which fails without an address. -/
def loadBasicServerInfo (reply : List (Option Bytes)) : Option Server :=
  let server := loadBasicFields reply.zipIdx .empty
  if server.wanIp = noAddress then none else some server

/-- `LoadCustomServerInfo`: the keys that the reply has a text for. -/
def loadCustomServerInfo (server : Server) (lookupKeys : List Bytes)
    (reply : List (Option Bytes)) : Server :=
  { server with
    kvFields := hmset server.kvFields
      ((lookupKeys.zip reply).filterMap fun (name, element) =>
        element.map fun text => (name, cString text)) }

/-- `LoadCustomServerInfo_AllKeys`. -/
def loadCustomServerInfoAllKeys (server : Server) (reply : List (Bytes × Bytes)) : Server :=
  { server with
    kvFields := hmset server.kvFields
      (reply.map fun (name, text) => (cString name, cString text)) }

/-- `server.kvFields["backend_id"] = server_key; server.key = server_key;`. -/
def setKey (server : Server) (serverKey : Bytes) : Server :=
  { server with
    kvFields := Function.update server.kvFields (ascii "backend_id") (some serverKey)
    key := serverKey }

/-- `filterMatches` for a filter that was cut into tokens. -/
def filterAnswer (undef : Bool) (tokenList : Option (List CToken)) (kvList : Fields) :
    Bool × Fields :=
  (tokenList.bind fun tokens => filterMatches tokens kvList).getD (undef, kvList)

/-- The response that is filled, and the keys without a server, which are taken out of the set
of the game. -/
structure ServerListQuery where
  list : List Server
  keysToDelete : List Bytes

/-- The part that the loops of `AppendServerEntries` and `AppendServerEntries_AllKeys` share:
a server that was found is completed by `load` and joins the list if it matches. -/
def appendServerEntry (req : ServerListReq) (tokenList : Option (List CToken)) (undef : Bool)
    (serverKey : Bytes) (basic : Option Server) (load : Server → Server)
    (query : ServerListQuery) : ServerListQuery :=
  match basic with
  | none => { query with keysToDelete := query.keysToDelete ++ [serverKey] }
  | some server =>
      if req.includeDeleted || !server.deleted then
        let server := load server
        let (isMatch, kvFields) := filterAnswer undef tokenList server.kvFields
        if isMatch && (query.list.length < req.maxResults || req.maxResults = 0) then
          { query with list := query.list ++ [{ server with kvFields := kvFields }] }
        else query
      else query

/-- The `ZREM` at the end, which needs the name of the game. -/
def deleteKeys (req : ServerListReq) (query : ServerListQuery) : ServerListQuery :=
  { query with keysToDelete := if req.forGame.gamename = [] then [] else query.keysToDelete }

section

variable (redis : Bytes → ServerRecord) (undef : Bytes → Bool)

/-- `AppendServerEntries_AllKeys`. -/
def appendServerEntriesAllKeys (serverKeys : List Bytes) (query : ServerListQuery)
    (req : ServerListReq) : ServerListQuery :=
  let (basicLookupKeys, _, tokenList) := buildServerListRequestData req 0
  deleteKeys req <| serverKeys.foldl
    (fun query serverKey =>
      appendServerEntry req tokenList (undef serverKey) serverKey
        (loadBasicServerInfo (hmget (redis serverKey).basic basicLookupKeys))
        (fun server =>
          setKey (loadCustomServerInfoAllKeys server (redis serverKey).hgetall) serverKey)
        query)
    query

/-- `AppendServerEntries`. -/
def appendServerEntries (serverKeys : List Bytes) (query : ServerListQuery)
    (req : ServerListReq) (peerVersion : Nat) : ServerListQuery :=
  if serverKeys = [] then query
  else if req.allKeys then appendServerEntriesAllKeys redis undef serverKeys query req
  else
    let (basicLookupKeys, lookupKeys, tokenList) := buildServerListRequestData req peerVersion
    deleteKeys req <| serverKeys.foldl
      (fun query serverKey =>
        appendServerEntry req tokenList (undef serverKey) serverKey
          (loadBasicServerInfo (hmget (redis serverKey).basic basicLookupKeys))
          (fun server =>
            { setKey (loadCustomServerInfo server lookupKeys
                (hmget (redis serverKey).custkeys lookupKeys)) serverKey with
              gameid := req.forGame.gameid })
          query)
      query

/-- `GetServerByKey` without the keys of players and teams. -/
def getServerByKey (key : Bytes) (includeDeleted : Bool) : Option Server :=
  (appendServerEntriesAllKeys redis undef [key] ⟨[], []⟩
    { ServerListReq.default with allKeys := true, includeDeleted := includeDeleted }).list.head?

/-- A server event for the peers. -/
inductive ServerEvent
  | deleted (server : Server)
  | new (server : Server)
  | update (server : Server)

/-- `Handle_ServerEventMsg`. -/
def handleServerEventMsg (message : Bytes) : Option ServerEvent :=
  match keyStringToVector message (char '\\') with
  | msgType :: serverKey :: _ =>
      (getServerByKey redis undef serverKey (msgType = ascii "del")).bind fun server =>
        if msgType = ascii "del" then some (.deleted server)
        else if msgType = ascii "new" then some (.new server)
        else if msgType = ascii "update" then some (.update server)
        else none
  | _ => none

end

/-- What a push to a V2 peer uses. The tokens were made from the filter of the last list
request, in `ProcessListRequest`. -/
structure ListPeer where
  lastListReq : ServerListReq
  lastListReqTokenList : Option (List CToken)
  inMessage : Bool
  tokens_eq : lastListReqTokenList = filterToTokenList lastListReq.filter

/-- `Peer::serverMatchesLastReq`. -/
def serverMatchesLastReq (undef : Bool) (peer : ListPeer) (server : Server) : Bool :=
  server.gameid = peer.lastListReq.forGame.gameid &&
    (peer.lastListReq.filter.length = 0 ||
      (filterAnswer undef peer.lastListReqTokenList server.kvFields).1)

/-- `V2Peer::informDeleteServers`, `informNewServers` and `informUpdateServers`: whether they
send a message to the peer. -/
def informServers (undef : Bool) (peer : ListPeer) : ServerEvent → Bool
  | .deleted server | .new server | .update server =>
      if !peer.lastListReq.pushUpdates || peer.inMessage then false
      else serverMatchesLastReq undef peer server

/-- The list path: the response to the request has the server in it. -/
def ListIncludes (redis : Bytes → ServerRecord) (undef : Bytes → Bool) (serverKeys : List Bytes)
    (req : ServerListReq) (serverKey : Bytes) : Prop :=
  ∃ server ∈ (appendServerEntries redis undef serverKeys ⟨[], []⟩ req 2).list,
    server.key = serverKey

/-- The push path: the event of the message is sent to the peer. -/
def Pushes (redis : Bytes → ServerRecord) (undef : Bytes → Bool) (undefPush : Bool)
    (peer : ListPeer) (message : Bytes) : Prop :=
  (handleServerEventMsg redis undef message).any (informServers undefPush peer)

/-- What a record says for a name: the key itself for `backend_id`, or else a custom key, or
else, for `country`, the basic one. -/
def ServerRecord.field (record : ServerRecord) (serverKey name : Bytes) : Bytes :=
  if name = ascii "backend_id" then serverKey
  else
    (((record.custkeys name).or (if name = ascii "country" then record.basic name else none)).map
      cString).getD []

/-- The server is scanned for a list request of the peer without a limit, and an event says
that it is new or updated when the peer has its list and wants pushes. The server has an
address, is not deleted and belongs to the game. Its custom keys are C strings, as `HMSET`
wrote them. -/
structure Listed (redis : Bytes → ServerRecord) (peer : ListPeer) (serverKeys : List Bytes)
    (serverKey message : Bytes) : Prop where
  scanned : serverKey ∈ serverKeys
  noLimit : peer.lastListReq.maxResults = 0
  pushUpdates : peer.lastListReq.pushUpdates
  idle : peer.inMessage = false
  event : ∃ msgType rest, keyStringToVector message (char '\\') = msgType :: serverKey :: rest ∧
    (msgType = ascii "new" ∨ msgType = ascii "update")
  loaded : ∃ server,
    loadBasicServerInfo (hmget (redis serverKey).basic basicLookupKeys) = some server ∧
      server.deleted = false ∧ server.gameid = peer.lastListReq.forGame.gameid
  cKeys : ∀ field, ((redis serverKey).custkeys field).isSome → cString field = field

/-- A server that was found and matches, as it joins the list. -/
def matchingServer (req : ServerListReq) (tokenList : Option (List CToken)) (undef : Bool)
    (basic : Option Server) (load : Server → Server) : Option Server :=
  basic.bind fun server =>
    let answer := filterAnswer undef tokenList (load server).kvFields
    if (req.includeDeleted || !server.deleted) && answer.1 then
      some { load server with kvFields := answer.2 }
    else none

/-- The answer of a filter is read off the texts of the fields. -/
theorem filter_answer_eq (undef : Bool) (tokenList : Option (List CToken)) (kvList : Fields) :
    (filterAnswer undef tokenList kvList).1 =
      (tokenList.bind fun tokens => filterVerdict tokens kvList.read).getD undef := by
  cases tokenList with
  | none => rfl
  | some tokens =>
      show ((filterMatches tokens kvList).getD (undef, kvList)).1 =
        (filterVerdict tokens kvList.read).getD undef
      rw [← filter_matches_eq]
      cases filterMatches tokens kvList <;> rfl

section Loop

variable {req : ServerListReq} {tokenList : Option (List CToken)} {undef : Bytes → Bool}
  {basic : Bytes → Option Server} {load : Bytes → Server → Server}

/-- A round of the loop adds the server if it matches and there is room. -/
theorem append_server_entry_push {undef : Bool} {serverKey : Bytes} {basic : Option Server}
    {load : Server → Server} (query : ServerListQuery) :
    (appendServerEntry req tokenList undef serverKey basic load query).list =
      pushWithin req.maxResults query.list (matchingServer req tokenList undef basic load) := by
  unfold appendServerEntry matchingServer
  cases basic with
  | none => rfl
  | some server =>
      simp only [Option.bind_some]
      generalize (req.includeDeleted || !server.deleted) = wanted
      generalize filterAnswer undef tokenList (load server).kvFields = answer
      cases wanted with
      | false => simp [pushWithin]
      | true =>
          cases answer.1 with
          | false => simp [pushWithin]
          | true => simp [pushWithin, apply_ite ServerListQuery.list]

/-- Without a limit, the loop lists the servers that match. -/
theorem loop_list (hlimit : req.maxResults = 0) (serverKeys : List Bytes)
    (query : ServerListQuery) :
    (serverKeys.foldl (fun query serverKey =>
      appendServerEntry req tokenList (undef serverKey) serverKey (basic serverKey)
        (load serverKey) query) query).list = query.list ++
        serverKeys.filterMap fun serverKey =>
          matchingServer req tokenList (undef serverKey) (basic serverKey) (load serverKey) := by
  rw [← foldl_push_unlimited, ← hlimit]
  exact (List.foldl_hom ServerListQuery.list fun query key =>
    (append_server_entry_push query).symm).symm

/-- A server is in the list exactly if it matches. -/
theorem loop_includes_iff (hlimit : req.maxResults = 0)
    (hkey : ∀ serverKey server, (load serverKey server).key = serverKey) {serverKeys : List Bytes}
    {serverKey : Bytes} (hmem : serverKey ∈ serverKeys) :
    (∃ server ∈ (serverKeys.foldl (fun query serverKey =>
      appendServerEntry req tokenList (undef serverKey) serverKey (basic serverKey)
        (load serverKey) query) ⟨[], []⟩).list, server.key = serverKey) ↔
      (matchingServer req tokenList (undef serverKey) (basic serverKey)
        (load serverKey)).isSome := by
  have hmatch (other : Bytes) (server : Server) (h : matchingServer req tokenList (undef other)
      (basic other) (load other) = some server) : server.key = other := by
    unfold matchingServer at h
    obtain ⟨found, -, h⟩ := Option.bind_eq_some_iff.mp h
    dsimp only at h
    split_ifs at h
    obtain rfl := Option.some.inj h
    exact hkey other found
  rw [loop_list hlimit, List.nil_append]
  constructor
  · rintro ⟨server, hserver, rfl⟩
    obtain ⟨other, -, hother⟩ := List.mem_filterMap.mp hserver
    rw [hmatch other server hother, hother]
    rfl
  · intro h
    obtain ⟨server, hserver⟩ := Option.isSome_iff_exists.mp h
    exact ⟨server, List.mem_filterMap.mpr ⟨serverKey, hmem, hserver⟩, hmatch _ _ hserver⟩

end Loop

/-- The first seven basic keys are not fields for the filter. -/
theorem load_basic_field_kv_fields {i : Nat} (hi : i < 7) (server : Server) (text : Bytes) :
    (loadBasicField server i text).kvFields = server.kvFields := by
  match i, hi with
  | 0, _ =>
      show (if atoi text ≠ 0 then { server with deleted := true } else server).kvFields = _
      split <;> rfl
  | 1, _ | 2, _ | 3, _ | 4, _ | 5, _ | 6, _ => rfl

/-- So they leave the fields as they are. -/
theorem load_basic_fields_kv_fields {reply : List (Option Bytes × Nat)}
    (h : ∀ entry ∈ reply, entry.2 < 7) (server : Server) :
    (loadBasicFields reply server).kvFields = server.kvFields := by
  induction reply generalizing server with
  | nil => rfl
  | cons entry reply ih =>
      have hreply : ∀ other ∈ reply, other.2 < 7 :=
        fun other hother => h other (List.mem_cons_of_mem _ hother)
      show (loadBasicFields reply
        (entry.1.elim server (loadBasicField server entry.2))).kvFields = server.kvFields
      rw [ih hreply]
      cases entry.1 with
      | none => rfl
      | some text => exact load_basic_field_kv_fields (h entry List.mem_cons_self) server text

/-- The country is the only field that comes from the basic keys. -/
theorem load_basic_server_info_kv_fields {hash : Hash} {server : Server}
    (h : loadBasicServerInfo (hmget hash basicLookupKeys) = some server) (name : Bytes) :
    server.kvFields name =
      (if name = ascii "country" then hash name else none).map cString := by
  have hreply : loadBasicFields (hmget hash basicLookupKeys).zipIdx .empty =
      loadBasicFields [(hash (ascii "country"), 7)]
        (loadBasicFields (hmget hash (basicLookupKeys.take 7)).zipIdx .empty) := rfl
  have hbefore : ∀ entry ∈ (hmget hash (basicLookupKeys.take 7)).zipIdx, entry.2 < 7 := by
    intro entry hentry
    exact List.snd_lt_of_mem_zipIdx hentry
  have hfields := congrFun (load_basic_fields_kv_fields hbefore .empty) name
  unfold loadBasicServerInfo at h
  rw [hreply] at h
  generalize loadBasicFields (hmget hash (basicLookupKeys.take 7)).zipIdx .empty = basic
    at hfields h
  dsimp only at h
  split_ifs at h
  obtain rfl := Option.some.inj h
  cases hcountry : hash (ascii "country") with
  | none =>
      show basic.kvFields name = _
      rw [hfields]
      split_ifs with hname
      · rw [hname, hcountry]
        rfl
      · rfl
  | some text =>
      show Function.update basic.kvFields (ascii "country") (some (cString text)) name = _
      split_ifs with hname
      · rw [hname, hcountry, Function.update_self]
        rfl
      · rw [Function.update_of_ne hname, hfields]
        rfl

section Fields

variable {record : ServerRecord} {server : Server} {serverKey name : Bytes}

/-- The fields of a loaded server are those of the record if the pairs that are set after the
basic ones are the custom keys. -/
theorem set_key_kv_fields {loaded : Server} {pairs : List (Bytes × Bytes)}
    (hbasic : loadBasicServerInfo (hmget record.basic basicLookupKeys) = some server)
    (hloaded : loaded.kvFields = hmset server.kvFields pairs)
    (hpairs : ∀ text, (name, text) ∈ pairs ↔ (record.custkeys name).map cString = some text) :
    (setKey loaded serverKey).kvFields name =
      if name = ascii "backend_id" then some serverKey
      else ((record.custkeys name).or
        (if name = ascii "country" then record.basic name else none)).map cString := by
  show Function.update loaded.kvFields (ascii "backend_id") (some serverKey) name = _
  by_cases hname : name = ascii "backend_id"
  · rw [if_pos hname, hname, Function.update_self]
  · rw [if_neg hname, Function.update_of_ne hname, hloaded]
    cases hcustom : record.custkeys name with
    | none =>
        have hnone : ∀ text, (name, text) ∉ pairs := by simp [hpairs, hcustom]
        rw [hmset_of_not_mem hnone, load_basic_server_info_kv_fields hbasic, Option.none_or]
    | some text =>
        have hmem : (name, cString text) ∈ pairs := by simp [hpairs, hcustom]
        have hsame : ∀ other, (name, other) ∈ pairs → other = cString text := by
          intro other hother
          simpa [hcustom, eq_comm] using (hpairs other).mp hother
        rw [hmset_of_mem hmem hsame, Option.some_or]
        rfl

/-- So their texts are those of the record. -/
theorem set_key_read {loaded : Server} {pairs : List (Bytes × Bytes)}
    (hbasic : loadBasicServerInfo (hmget record.basic basicLookupKeys) = some server)
    (hloaded : loaded.kvFields = hmset server.kvFields pairs)
    (hpairs : ∀ text, (name, text) ∈ pairs ↔ (record.custkeys name).map cString = some text) :
    (setKey loaded serverKey).kvFields.read name = record.field serverKey name := by
  rw [Fields.read, set_key_kv_fields hbasic hloaded hpairs, ServerRecord.field]
  split_ifs <;> rfl

/-- A name that is looked up is set to its custom key. -/
theorem lookup_pairs_iff {lookupKeys : List Bytes} (hname : name ∈ lookupKeys)
    (hcString : cString name = name) (text : Bytes) :
    (name, text) ∈ ((lookupKeys.zip (hmget record.custkeys lookupKeys)).filterMap
        fun (name, element) => element.map fun text => (name, cString text)) ↔
      (record.custkeys name).map cString = some text := by
  have hzip : lookupKeys.zip (hmget record.custkeys lookupKeys) =
      lookupKeys.map fun field => (field, record.custkeys (cString field)) := by
    simpa [hmget] using List.zip_map' (f := id) (l := lookupKeys)
      (g := fun field => record.custkeys (cString field))
  rw [hzip, List.filterMap_map, List.mem_filterMap]
  constructor
  · rintro ⟨field, -, hfield⟩
    obtain ⟨value, hvalue, heq⟩ := Option.map_eq_some_iff.mp hfield
    obtain ⟨rfl, rfl⟩ := Prod.mk.inj heq
    rw [← hcString, show record.custkeys (cString field) = some value from hvalue]
    rfl
  · intro h
    obtain ⟨value, hvalue, rfl⟩ := Option.map_eq_some_iff.mp h
    refine ⟨name, hname, ?_⟩
    show (record.custkeys (cString name)).map (fun text => (name, cString text)) = _
    rw [hcString, hvalue]
    rfl

/-- The list path has the text of every name that it looks up. -/
theorem load_custom_server_info_read {lookupKeys : List Bytes}
    (hbasic : loadBasicServerInfo (hmget record.basic basicLookupKeys) = some server)
    (hname : name ∈ lookupKeys) (hcString : cString name = name) :
    (setKey (loadCustomServerInfo server lookupKeys (hmget record.custkeys lookupKeys))
      serverKey).kvFields.read name = record.field serverKey name :=
  set_key_read hbasic rfl (lookup_pairs_iff hname hcString)

/-- The push path has the text of every name. -/
theorem load_custom_server_info_all_keys_read
    (hbasic : loadBasicServerInfo (hmget record.basic basicLookupKeys) = some server)
    (hkeys : ∀ field, (record.custkeys field).isSome → cString field = field) :
    (setKey (loadCustomServerInfoAllKeys server record.hgetall) serverKey).kvFields.read name =
      record.field serverKey name := by
  refine set_key_read hbasic rfl ?_
  intro text
  constructor
  · intro h
    obtain ⟨⟨field, value⟩, hmem, heq⟩ := List.mem_map.mp h
    have hcustom := (record.complete field value).mp hmem
    obtain ⟨rfl, rfl⟩ := Prod.mk.inj heq
    rw [hkeys field (by simp [hcustom]), hcustom]
    rfl
  · intro h
    obtain ⟨value, hcustom, rfl⟩ := Option.map_eq_some_iff.mp h
    refine List.mem_map.mpr ⟨(name, value), (record.complete name value).mpr hcustom, ?_⟩
    show (cString name, cString value) = (name, cString value)
    rw [hkeys name (by simp [hcustom])]

end Fields

/-- A name that came from the filter is a C string. -/
theorem variable_c_string {filter : Bytes} {tokens : List CToken} {name : Bytes}
    (htokens : filterToTokenList filter = some tokens) (hname : .var name ∈ tokens) :
    cString name = name := by
  have hnamed := filter_to_token_list_named htokens (.var name) hname name rfl
  refine List.takeWhile_eq_self_iff.mpr fun b hb => ?_
  simpa using (variable_byte_facts (hnamed b hb)).2.2

/-- The answer that the filter of a request has for a record, if it has one. -/
def recordAnswer (filter : Bytes) (record : ServerRecord) (serverKey : Bytes) : Option Bool :=
  (filterToTokenList filter).bind fun tokens => filterVerdict tokens (record.field serverKey)

/-- Fields with the texts of the record for the names in the filter give its answer. -/
theorem filter_answer_record {filter : Bytes} {record : ServerRecord} {serverKey : Bytes}
    {kvFields : Fields} (undef : Bool)
    (h : ∀ tokens name, filterToTokenList filter = some tokens → .var name ∈ tokens →
      cString name = name → kvFields.read name = record.field serverKey name) :
    (filterAnswer undef (filterToTokenList filter) kvFields).1 =
      (recordAnswer filter record serverKey).getD undef := by
  rw [filter_answer_eq, recordAnswer]
  cases htokens : filterToTokenList filter with
  | none => rfl
  | some tokens =>
      show (filterVerdict tokens kvFields.read).getD undef =
        (filterVerdict tokens (record.field serverKey)).getD undef
      rw [filter_verdict_congr]
      intro name hname
      have hcString := variable_c_string htokens hname
      rw [hcString]
      exact h tokens name htokens hname hcString

/-- A server that was found and is not deleted matches if the filter says so. -/
theorem matching_server_isSome {req : ServerListReq} {tokenList : Option (List CToken)}
    {undef : Bool} {server : Server} {load : Server → Server} (h : server.deleted = false) :
    (matchingServer req tokenList undef (some server) load).isSome ↔
      (filterAnswer undef tokenList (load server).kvFields).1 := by
  simp only [matchingServer, Option.bind_some, h, Bool.not_false, Bool.or_true, Bool.true_and]
  cases hmatch : (filterAnswer undef tokenList (load server).kvFields).1 <;> simp

/-- A name in the filter is looked up by the list path. -/
theorem variable_looked_up {req : ServerListReq} {tokens : List CToken} {name : Bytes}
    (htokens : filterToTokenList req.filter = some tokens) (hname : .var name ∈ tokens)
    (peerVersion : Nat) : name ∈ (buildServerListRequestData req peerVersion).2.1 := by
  have hvariable : name ∈ ((filterToTokenList req.filter).getD []).filterMap variableName :=
    List.mem_filterMap.mpr ⟨.var name, by simpa [htokens] using hname, rfl⟩
  exact List.mem_append_left _ (List.mem_append_right _ hvariable)

section Agree

variable {redis : Bytes → ServerRecord} {peer : ListPeer} {serverKeys : List Bytes}
  {serverKey message : Bytes}

/-- The list has the server in it if the filter of the request says so. -/
theorem list_includes_iff (h : Listed redis peer serverKeys serverKey message)
    (undef : Bytes → Bool) :
    ListIncludes redis undef serverKeys peer.lastListReq serverKey ↔
      (recordAnswer peer.lastListReq.filter (redis serverKey) serverKey).getD
        (undef serverKey) := by
  obtain ⟨server, hserver, hdeleted, -⟩ := h.loaded
  have hne : serverKeys ≠ [] := List.ne_nil_of_mem h.scanned
  rw [ListIncludes, appendServerEntries, if_neg hne]
  by_cases hall : peer.lastListReq.allKeys
  · rw [if_pos hall]
    refine (loop_includes_iff h.noLimit (fun _ _ => rfl) h.scanned).trans ?_
    show (matchingServer _ _ _ (loadBasicServerInfo (hmget (redis serverKey).basic
      basicLookupKeys)) _).isSome ↔ _
    rw [hserver, matching_server_isSome hdeleted]
    refine Eq.congr_left (filter_answer_record (undef serverKey) ?_)
    intro tokens name _ _ _
    exact load_custom_server_info_all_keys_read hserver h.cKeys
  · rw [if_neg hall]
    refine (loop_includes_iff h.noLimit (fun _ _ => rfl) h.scanned).trans ?_
    show (matchingServer _ _ _ (loadBasicServerInfo (hmget (redis serverKey).basic
      basicLookupKeys)) _).isSome ↔ _
    rw [hserver, matching_server_isSome hdeleted]
    refine Eq.congr_left (filter_answer_record (undef serverKey) ?_)
    intro tokens name htokens hname hcString
    exact load_custom_server_info_read hserver (variable_looked_up htokens hname 2) hcString

/-- An event finds the server with the fields of its record. -/
theorem get_server_by_key_eq (h : Listed redis peer serverKeys serverKey message)
    (undef : Bytes → Bool) :
    ∃ server, getServerByKey redis undef serverKey false = some server ∧
      server.gameid = peer.lastListReq.forGame.gameid ∧
      ∀ name, server.kvFields.read name = (redis serverKey).field serverKey name := by
  obtain ⟨server, hserver, hdeleted, hgame⟩ := h.loaded
  refine ⟨setKey (loadCustomServerInfoAllKeys server (redis serverKey).hgetall) serverKey, ?_,
    hgame, fun name => load_custom_server_info_all_keys_read hserver h.cKeys⟩
  -- the request of the event has an empty filter, which lets every server pass
  show (appendServerEntry _ (some []) (undef serverKey) serverKey (loadBasicServerInfo
    (hmget (redis serverKey).basic basicLookupKeys)) _ ⟨[], []⟩).list.head? = _
  rw [hserver, appendServerEntry, hdeleted]
  rfl

/-- The event is pushed if the filter of the last list request says so. -/
theorem pushes_iff (h : Listed redis peer serverKeys serverKey message) (undef : Bytes → Bool)
    (undefPush : Bool) :
    Pushes redis undef undefPush peer message ↔
      (recordAnswer peer.lastListReq.filter (redis serverKey) serverKey).getD undefPush := by
  obtain ⟨msgType, rest, hmessage, htype⟩ := h.event
  obtain ⟨server, hserver, hgame, hread⟩ := get_server_by_key_eq h undef
  have hdel : msgType ≠ ascii "del" := by
    rcases htype with rfl | rfl <;> decide
  have hanswer : (filterAnswer undefPush peer.lastListReqTokenList server.kvFields).1 =
      (recordAnswer peer.lastListReq.filter (redis serverKey) serverKey).getD undefPush := by
    rw [peer.tokens_eq]
    exact filter_answer_record undefPush fun _ name _ _ _ => hread name
  have hmatches : serverMatchesLastReq undefPush peer server =
      (recordAnswer peer.lastListReq.filter (redis serverKey) serverKey).getD undefPush := by
    rw [serverMatchesLastReq, hanswer, hgame, decide_eq_true rfl, Bool.true_and]
    by_cases hempty : peer.lastListReq.filter.length = 0
    · -- an empty filter has no tokens, so the answer for the record is true as well
      have hnil := List.eq_nil_of_length_eq_zero hempty
      rw [hnil, recordAnswer, filter_to_token_list_nil]
      rfl
    · rw [decide_eq_false hempty, Bool.false_or]
  have hevent : ∃ event, handleServerEventMsg redis undef message = some event ∧
      informServers undefPush peer event = serverMatchesLastReq undefPush peer server := by
    have hinform : (if !peer.lastListReq.pushUpdates || peer.inMessage then false
        else serverMatchesLastReq undefPush peer server) =
          serverMatchesLastReq undefPush peer server := by
      simp [h.pushUpdates, h.idle]
    have hfound : getServerByKey redis undef serverKey (msgType = ascii "del") = some server := by
      rw [decide_eq_false hdel, hserver]
    rcases htype with rfl | rfl
    · refine ⟨.new server, ?_, hinform⟩
      simp only [handleServerEventMsg, hmessage, hfound, Option.bind_some, if_neg hdel]
      rfl
    · refine ⟨.update server, ?_, hinform⟩
      simp only [handleServerEventMsg, hmessage, hfound, Option.bind_some, if_neg hdel]
      rfl
  obtain ⟨event, hevent, hinform⟩ := hevent
  rw [Pushes, hevent, Option.any_some, hinform, hmatches]

/-- Exactly when the two ways agree: the filter is not one bare variable name, and on the fields
of the record its operators find the integers that they read. -/
theorem list_push_agree_iff (h : Listed redis peer serverKeys serverKey message) :
    (∀ undef undefEvent undefPush,
      ListIncludes redis undef serverKeys peer.lastListReq serverKey ↔
        Pushes redis undefEvent undefPush peer message) ↔
      ¬BareVariable (cString peer.lastListReq.filter) ∧
        ∀ tokens, filterToTokenList peer.lastListReq.filter = some tokens →
          OperatorsDefined tokens ((redis serverKey).field serverKey) := by
  have hagree : (∀ undef undefEvent undefPush,
      ListIncludes redis undef serverKeys peer.lastListReq serverKey ↔
        Pushes redis undefEvent undefPush peer message) ↔
      (recordAnswer peer.lastListReq.filter (redis serverKey) serverKey).isSome := by
    rw [Option.isSome_iff_exists, ← exists_congr fun value => and_self_iff,
      ← Undefined.get_d_agree_iff]
    simp only [list_includes_iff h, pushes_iff h, Bool.coe_iff_coe]
    exact ⟨fun hall a b => hall (fun _ => a) (fun _ => a) b,
      fun hall undef _ undefPush => hall (undef serverKey) undefPush⟩
  rw [hagree, recordAnswer, ← filter_to_token_list_none_iff]
  cases htokens : filterToTokenList peer.lastListReq.filter with
  | none => simp
  | some tokens => simp [filter_verdict_isSome_iff]

end Agree

/-- A server of game 1 at 10.0.0.1 with one player and the host name x. -/
def oneServer : ServerRecord where
  basic := hmset (fun _ => none) [(ascii "wan_ip", ascii "10.0.0.1"), (ascii "gameid", ascii "1")]
  custkeys := fun field =>
    if field = ascii "players" then some (ascii "1")
    else if field = ascii "host" then some (ascii "x")
    else none
  hgetall := [(ascii "players", ascii "1"), (ascii "host", ascii "x")]
  complete := by
    have hne : ascii "host" ≠ ascii "players" := by decide
    intro field value
    by_cases hplayers : field = ascii "players"
    · simp [hplayers, hne.symm, eq_comm (a := value)]
    · by_cases hhost : field = ascii "host"
      · simp [hhost, hne, eq_comm]
      · simp [hplayers, hhost]

/-- A peer that has the list of game 1 for a filter and wants pushes. -/
def onePeer (filter : Bytes) : ListPeer where
  lastListReq :=
    { ServerListReq.default with
      filter := filter, pushUpdates := true, forGame := ⟨1, ascii "game"⟩ }
  lastListReqTokenList := filterToTokenList filter
  inMessage := false
  tokens_eq := rfl

/-- The server is listed for the peer, and new. -/
theorem one_server_listed (filter : Bytes) :
    Listed (fun _ => oneServer) (onePeer filter) [ascii "s"] (ascii "s") (ascii "\\new\\s") where
  scanned := List.mem_singleton_self _
  noLimit := rfl
  pushUpdates := rfl
  idle := rfl
  event := ⟨ascii "new", [], by decide, .inl rfl⟩
  loaded := by
    have hload : (loadBasicServerInfo (hmget oneServer.basic basicLookupKeys)).map
        (fun server => (server.deleted, server.gameid)) = some (false, 1) := by
      decide +kernel
    obtain ⟨server, hserver, heq⟩ := Option.map_eq_some_iff.mp hload
    exact ⟨server, hserver, congrArg Prod.fst heq, congrArg Prod.snd heq⟩
  cKeys := by
    intro field hfield
    by_cases hplayers : field = ascii "players"
    · rw [hplayers]
      rfl
    · by_cases hhost : field = ascii "host"
      · rw [hhost]
        rfl
      · simp [oneServer, hplayers, hhost] at hfield

/-- A filter on the number of players has the same answer both ways. -/
theorem players_filter_agrees :
    ListIncludes (fun _ => oneServer) (fun _ => true) [ascii "s"]
        (onePeer (ascii "players>0")).lastListReq (ascii "s") ↔
      Pushes (fun _ => oneServer) (fun _ => true) false (onePeer (ascii "players>0"))
        (ascii "\\new\\s") := by
  have htokens : filterToTokenList (ascii "players>0") =
      some [.var (ascii "players"), .integer 0, .operator .greater] := by
    decide
  refine (list_push_agree_iff (one_server_listed (ascii "players>0"))).mpr ⟨?_, ?_⟩ _ _ _
  · show ¬BareVariable (cString (ascii "players>0"))
    rw [← filter_to_token_list_none_iff, htokens]
    exact Option.some_ne_none _
  · intro tokens hother
    obtain rfl := Option.some.inj (htokens.symm.trans hother)
    exact filter_verdict_isSome_iff.mp (by decide)

/-- A host name that is subtracted: the list has the server in it, and the event is not
pushed. -/
theorem subtracted_text_splits :
    Listed (fun _ => oneServer) (onePeer (ascii "players-host=1")) [ascii "s"] (ascii "s")
        (ascii "\\new\\s") ∧
      ListIncludes (fun _ => oneServer) (fun _ => true) [ascii "s"]
        (onePeer (ascii "players-host=1")).lastListReq (ascii "s") ∧
      ¬Pushes (fun _ => oneServer) (fun _ => true) false (onePeer (ascii "players-host=1"))
        (ascii "\\new\\s") := by
  have hlisted := one_server_listed (ascii "players-host=1")
  refine ⟨hlisted, (list_includes_iff hlisted _).mpr ?_, ?_⟩
  · decide
  · rw [pushes_iff hlisted]
    decide

end OpenSpy.ServerBrowsing
