import OpenSpy.Peerchat.Usermode
import OpenSpy.ServerBrowsing.Scan
import OpenSpy.UTMaster.Heartbeat

/-!
# The list of Unreal servers

`PerformListServers` scans the servers of a game and loads each of them with two or three `HMGET`,
the last one for the fields that the filters of the request name. The loops over the replies take
the names and the members of the record by the position of a value in its reply.

A number of the record that is not loaded is not set; it is given by the parameter `undef`.
-/

namespace OpenSpy.UTMaster

open Bytes MachineInt Redis
open ServerBrowsing (ScanReply)

/-- `EQueryType`, with one value for those that no comparison belongs to. -/
inductive EQueryType where
  | equals
  | notEquals
  | lessThan
  | lessThanEquals
  | greaterThan
  | greaterThanEquals
  | disabled
  deriving DecidableEq, Repr

/-- A `FilterProperties`. -/
structure FilterProperties where
  field : Bytes
  property : Bytes
  type : EQueryType
  deriving DecidableEq, Repr

/-- The keys of the first `HMGET`. -/
def basicLookupKeys : List Bytes :=
  [ascii "id", ascii "gameid", ascii "wan_port", ascii "wan_ip", ascii "mutators"]

/-- The keys of the second `HMGET`. -/
def custLookupKeys : List Bytes :=
  [ascii "hostname", ascii "mapname", ascii "gametype", ascii "botlevel", ascii "numplayers",
    ascii "maxplayers", ascii "GamePassword", ascii "GameStats", ascii "ServerVersion",
    ascii "ServerMode"]

/-- `lookup_keys`, the arguments of the second `HMGET` with its name and its hash in front. -/
def lookupKeys (serverKey : Bytes) : List Bytes :=
  ascii "HMGET" :: (serverKey ++ ascii "custkeys") :: custLookupKeys

/-- `htons`. -/
def htons (value : UInt16) : UInt16 :=
  .ofNat (value.toNat % 256 * 256 + value.toNat / 256)

/-- One value of `LoadBasicServerInfo`. The port of the record is set without `htons`. -/
def setBasic (idx : Nat) (text : Bytes) (result : ServerRecord) : ServerRecord :=
  match idx with
  | 0 => { result with id := .ofInt (atoi text) }
  | 1 => { result with gameid := .ofInt (atoi text) }
  | 2 => { result with address.port := htons (.ofInt (atoi text)) }
  | 3 => { result with address.ip := inetAddr (cString text) }
  | 4 => { result with mutators := keyStringToVector (cString text) (char '\\') }
  | _ => result

/-- `LoadBasicServerInfo` from an index on. -/
def loadBasicServerInfo : Nat → List (Option Bytes) → ServerRecord → ServerRecord
  | _, [], result => result
  | idx, none :: reply, result => loadBasicServerInfo (idx + 1) reply result
  | idx, some text :: reply, result =>
      loadBasicServerInfo (idx + 1) reply (setBasic idx text result)

/-- One value of `LoadServerCustomKeys`: the switch, and the rule of that name. -/
def setCustom (names : List Bytes) (idx : Nat) (text : Bytes) (result : ServerRecord) :
    ServerRecord :=
  let result :=
    match idx with
    | 0 => { result with hostname := cString text }
    | 1 => { result with level := cString text }
    | 2 => { result with gameGroup := cString text }
    | 3 => { result with botLevel := cString text }
    | 4 => { result with numPlayers := .ofInt (atoi text) }
    | 5 => { result with maxPlayers := .ofInt (atoi text) }
    | _ => result
  { result with rules := setRule (cString (names.getD idx [])) (cString text) result.rules }

/-- `LoadServerCustomKeys` from an index on. Behind a text the index goes up twice, in the body of
the loop and in its head. -/
def loadServerCustomKeys (names : List Bytes) :
    Nat → List (Option Bytes) → ServerRecord → ServerRecord
  | _, [], result => result
  | idx, none :: reply, result => loadServerCustomKeys names (idx + 1) reply result
  | idx, [some text], result => setCustom names idx text result
  | idx, some text :: _ :: reply, result =>
      loadServerCustomKeys names (idx + 2) reply (setCustom names idx text result)

/-- `LoadServerFilterKeys` for the names that are left. -/
def loadServerFilterKeys : List Bytes → List (Option Bytes) → ServerRecord → ServerRecord
  | name :: names, some text :: reply, result =>
      loadServerFilterKeys names reply
        { result with rules := setRule (cString name) (cString text) result.rules }
  | _ :: names, none :: reply, result => loadServerFilterKeys names reply result
  | _, _, result => result

/-- The result of a comparison under a type. -/
def EQueryType.holds (type : EQueryType) (comparison : Int) : Bool :=
  match type with
  | .equals => comparison == 0
  | .notEquals => comparison != 0
  | .lessThan => comparison < 0
  | .lessThanEquals => comparison ≤ 0
  | .greaterThan => comparison > 0
  | .greaterThanEquals => comparison ≥ 0
  | .disabled => false

/-- The comparison of the value of a rule with that of a filter: as texts for `QT_Equals` and
`QT_NotEquals`, where only a difference counts, and as numbers otherwise. -/
def compareProperty (type : EQueryType) (property value : Bytes) : Int :=
  match type with
  | .equals | .notEquals => if sameText property value then 0 else 1
  | _ =>
      if atoi value = atoi property then 0
      else if atoi value < atoi property then -1
      else 1

/-- `filterPropertyMatches`. -/
def filterPropertyMatches (record : ServerRecord) (property : FilterProperties) : Bool :=
  match record.rules.lookup property.field with
  | none => true
  | some value =>
      let comparison :=
        if sameText property.field (ascii "mutator") then
          if property.property ∈ record.mutators then 0 else 1
        else if sameText property.field (ascii "nomutators") then
          if record.mutators = [] then 1 else 0
        else compareProperty property.type property.property value
      property.type.holds comparison

/-- `filterMatches`. -/
def filterMatches (record : ServerRecord) (filter : List FilterProperties) : Bool :=
  filter.all (filterPropertyMatches record)

/-- The numbers of a record that is not loaded yet. -/
structure Undef where
  id : Int32
  gameid : Int32
  numPlayers : Int32
  maxPlayers : Int32

/-- A `ServerRecord` that has just been constructed. -/
def Undef.record (undef : Undef) : ServerRecord :=
  { id := undef.id
    address := ⟨⟨0, 0, 0, 0⟩, 0⟩
    gameid := undef.gameid
    hostname := []
    level := []
    gameGroup := []
    botLevel := []
    numPlayers := undef.numPlayers
    maxPlayers := undef.maxPlayers
    rules := []
    mutators := [] }

namespace Store

variable (s : Store) (undef : Bytes → Undef) (filters : List FilterProperties)

/-- What the loop of `LoadServerInfo` loads for a server key. -/
def loadServer (serverKey : Bytes) : ServerRecord :=
  let fields := filters.map (·.field)
  let basic := loadBasicServerInfo 0 (hmget (s.servers serverKey) basicLookupKeys)
    (undef serverKey).record
  let custom := loadServerCustomKeys (lookupKeys serverKey) 0
    (hmget (s.custKeys serverKey) custLookupKeys) basic
  loadServerFilterKeys fields (hmget (s.custKeys serverKey) fields) custom

/-- What the loop of `LoadServerInfo` adds to its records for a server key. A record without a port
is gone. -/
def listServer (serverKey : Bytes) : Option ServerRecord :=
  let result := s.loadServer undef filters serverKey
  if result.address.port = 0 then none
  else if filterMatches result filters then some result
  else none

/-- `LoadServerInfo`, which removes the servers without a record from the game. -/
def loadServerInfo (gamename : Bytes) (serverKeys : List Bytes) : List ServerRecord × Store :=
  let keysToDelete := serverKeys.filter fun serverKey =>
    (s.loadServer undef filters serverKey).address.port = 0
  (serverKeys.filterMap (s.listServer undef filters),
    { s with
      games := Function.update s.games gamename (keysToDelete.foldl zrem (s.games gamename)) })

/-- The loop of `GetServers`. A reply that is missing is `none`. -/
def getServers (gamename : Bytes) (s : Store) : List (Option ScanReply) → List ServerRecord × Store
  | [] => ([], s)
  | none :: _ => ([], s)
  | some reply :: replies =>
      let (loaded, next) := s.loadServerInfo undef filters gamename reply.keys
      if reply.cursor = 0 then (loaded, next)
      else
        let (more, last) := getServers gamename next replies
        (loaded ++ more, last)

/-- `PerformListServers`, up to the response to the peer. -/
def performListServers (gamename : Bytes) (replies : List (Option ScanReply)) :
    List ServerRecord × Store :=
  getServers undef filters gamename s replies

end Store

/-- The server keys of the replies that a scan comes to. -/
def scannedKeys : List (Option ScanReply) → List Bytes
  | [] => []
  | none :: _ => []
  | some reply :: replies =>
      if reply.cursor = 0 then reply.keys else reply.keys ++ scannedKeys replies

theorem lookup_cons_ite (name key value : Bytes) (rules : List (Bytes × Bytes)) :
    ((key, value) :: rules).lookup name = if name = key then some value else rules.lookup name := by
  by_cases h : name = key
  · simp [h]
  · simp [List.lookup_cons, h, beq_false_of_ne h]

/-- A rule that is set is there, and the others stay. -/
@[simp] theorem lookup_set_rule (field property name : Bytes) (rules : List (Bytes × Bytes)) :
    (setRule field property rules).lookup name =
      if name = field then some property else rules.lookup name := by
  induction rules with
  | nil => rw [setRule, lookup_cons_ite]
  | cons rule rules ih =>
      obtain ⟨key, value⟩ := rule
      unfold setRule
      split
      · rename_i hkey
        obtain rfl : field = key := hkey
        simp only [lookup_cons_ite]
        split <;> rfl
      · rename_i hkey
        split
        · rw [lookup_cons_ite]
        · simp only [lookup_cons_ite, ih]
          by_cases h : name = field
          · subst h
            rw [if_neg hkey]
            simp
          · simp [h]

/-- The fields of a filter are filed as rules, and nothing else changes. -/
theorem load_filter_keys_spec (hash : Hash) (names : List Bytes) (result : ServerRecord) :
    ∃ rules, loadServerFilterKeys names (hmget hash names) result = { result with rules := rules } ∧
      ∀ name, rules.lookup name =
        if (∃ field ∈ names, cString field = name) ∧ (hash name).isSome then
          (hash name).map cString
        else result.rules.lookup name := by
  induction names generalizing result with
  | nil => exact ⟨result.rules, rfl, by simp⟩
  | cons field names ih =>
      cases hfield : hash (cString field) with
      | none =>
          obtain ⟨rules, hrules, hlookup⟩ := ih result
          refine ⟨rules, ?_, fun name => ?_⟩
          · simpa [hmget, loadServerFilterKeys, hfield] using hrules
          · rw [hlookup]
            by_cases hname : cString field = name
            · subst hname
              simp [hfield]
            · simp [hname]
      | some text =>
          obtain ⟨rules, hrules, hlookup⟩ :=
            ih { result with rules := setRule (cString field) (cString text) result.rules }
          refine ⟨rules, ?_, fun name => ?_⟩
          · simpa [hmget, loadServerFilterKeys, hfield] using hrules
          · rw [hlookup]
            by_cases hname : cString field = name
            · subst hname
              simp [hfield]
            · simp [hname, Ne.symm hname]

/-- A listing depends on the hashes only. -/
theorem list_server_congr {s next : Store} (hservers : next.servers = s.servers)
    (hcust : next.custKeys = s.custKeys) (undef : Bytes → Undef) (filters : List FilterProperties) :
    next.listServer undef filters = s.listServer undef filters := by
  have hload : next.loadServer undef filters = s.loadServer undef filters := by
    funext serverKey
    rw [Store.loadServer, Store.loadServer, hservers, hcust]
  funext serverKey
  rw [Store.listServer, Store.listServer, hload]

/-- The list has each server that is scanned, one after the other. -/
theorem perform_list_servers_eq (s : Store) (undef : Bytes → Undef)
    (filters : List FilterProperties) (gamename : Bytes) (replies : List (Option ScanReply)) :
    (s.performListServers undef filters gamename replies).1 =
      (scannedKeys replies).filterMap (s.listServer undef filters) := by
  have hloop : ∀ next : Store, next.servers = s.servers → next.custKeys = s.custKeys →
      (Store.getServers undef filters gamename next replies).1 =
        (scannedKeys replies).filterMap (s.listServer undef filters) := by
    induction replies with
    | nil => exact fun _ _ _ => rfl
    | cons reply replies ih =>
        intro next hservers hcust
        cases reply with
        | none => rfl
        | some reply =>
            have hlist := list_server_congr hservers hcust undef filters
            have hrest :=
              ih (next.loadServerInfo undef filters gamename reply.keys).2 hservers hcust
            unfold Store.getServers scannedKeys
            by_cases hcursor : reply.cursor = 0
            · rw [if_pos hcursor, ← hlist]
              simp only [hcursor, if_true]
              rfl
            · rw [if_neg hcursor, List.filterMap_append, ← hrest, ← hlist]
              simp only [hcursor, if_false]
              rfl
  exact hloop s rfl rfl

end OpenSpy.UTMaster
