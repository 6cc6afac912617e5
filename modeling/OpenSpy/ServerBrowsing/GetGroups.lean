import OpenSpy.ServerBrowsing.GetServers

/-!
# Groups

`AppendGroupEntries` and `AppendGroupEntries_AllKeys` load the groups of a batch for a group
request. A group is a `MM::Server` with its id as the address, for V2 clients, and as the field
`groupid`, for V1 clients.
-/

namespace OpenSpy.ServerBrowsing

open Bytes Redis MachineInt

/-- The keys of the basic hash of a group, in the order they are read. -/
def groupLookupKeys : List Bytes :=
  [ascii "gameid", ascii "groupid", ascii "maxwaiting", ascii "hostname", ascii "password",
    ascii "numwaiting", ascii "numservers"]

/-- `htonl`, as the address with these bytes. -/
def htonl (value : Int) : IPv4 :=
  let value := (value % 2 ^ 32).toNat
  ⟨.ofNat (value / 2 ^ 24), .ofNat (value / 2 ^ 16), .ofNat (value / 2 ^ 8), .ofNat value⟩

/-- `server->kvFields[name] = text;`. -/
def setField (server : Server) (name text : Bytes) : Server :=
  { server with kvFields := Function.update server.kvFields name (some (cString text)) }

/-- The `switch` of `LoadBasicGroupInfo`. -/
def loadGroupField (server : Server) (i : Nat) (text : Bytes) : Server :=
  match i with
  | 0 => { server with gameid := atoi text }
  | 1 => setField { server with wanIp := htonl (atoi text) } (ascii "groupid") text
  | 2 => setField server (ascii "maxwaiting") text
  | 3 => setField server (ascii "hostname") text
  | 4 => setField server (ascii "password") text
  | 5 => setField server (ascii "numwaiting") text
  | 6 => setField server (ascii "numservers") text
  | _ => server

/-- `LoadBasicGroupInfo`. -/
def loadBasicGroupInfo (reply : List (Option Bytes)) : Server :=
  reply.zipIdx.foldl (fun server entry => entry.1.elim server (loadGroupField server entry.2))
    .empty

/-- The part that the loops of the two functions share: a group joins the list if it matches. -/
def appendGroupEntry (req : ServerListReq) (tokenList : Option (List CToken)) (undef : Bool)
    (group : Server) (list : List Server) : List Server :=
  let (isMatch, kvFields) := filterAnswer undef tokenList group.kvFields
  if isMatch && (list.length < req.maxResults || req.maxResults = 0) then
    list ++ [{ group with kvFields := kvFields }]
  else list

section

variable (redis : Bytes → ServerRecord) (undef : Bytes → Bool)

/-- `AppendGroupEntries_AllKeys`. -/
def appendGroupEntriesAllKeys (groupKeys : List Bytes) (req : ServerListReq)
    (tokenList : Option (List CToken)) : List Server :=
  groupKeys.foldl
    (fun list groupKey =>
      appendGroupEntry req tokenList (undef groupKey)
        (loadCustomServerInfoAllKeys
          (loadBasicGroupInfo (hmget (redis groupKey).basic groupLookupKeys))
          (redis groupKey).hgetall)
        list)
    []

/-- `AppendGroupEntries`. -/
def appendGroupEntries (groupKeys : List Bytes) (req : ServerListReq)
    (tokenList : Option (List CToken)) : List Server :=
  let lookupKeys := req.fieldList ++ (tokenList.getD []).filterMap variableName
  groupKeys.foldl
    (fun list groupKey =>
      appendGroupEntry req tokenList (undef groupKey)
        (loadCustomServerInfo
          (loadBasicGroupInfo (hmget (redis groupKey).basic groupLookupKeys))
          lookupKeys (hmget (redis groupKey).custkeys lookupKeys))
        list)
    []

end

end OpenSpy.ServerBrowsing
