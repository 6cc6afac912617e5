import OpenSpy.UTMaster.ListServers
import OpenSpy.UTMaster.ServerEvents

/-!
# What a listing has of a heartbeat

A heartbeat writes what a server reports under fixed names and under the names of its rules, and a
listing reads it back. The index of `LoadServerCustomKeys` goes up twice behind a text, so that only
every other key is read, and the names it files them under are two places off. `returned_iff` says
which records come back as they were reported.
-/

namespace OpenSpy.UTMaster

open Bytes MachineInt Redis

/-- The names that `PerformHeartbeat` writes by itself. -/
def fixedNames : List Bytes :=
  [ascii "gamename", ascii "hostname", ascii "mapname", ascii "gametype", ascii "botlevel",
    ascii "numplayers", ascii "maxplayers", ascii "currentplayers", ascii "category",
    ascii "freespace", ascii "nomutators", ascii "standard", ascii "nobots", ascii "transloc",
    ascii "weaponstay", ascii "stats", ascii "password"]

/-- No rule of a record is written under a fixed name. -/
def ServerRecord.NoCollision (record : ServerRecord) : Prop :=
  ∀ rule ∈ record.rules, cString rule.1 ∉ fixedNames

instance (record : ServerRecord) : Decidable record.NoCollision :=
  inferInstanceAs (Decidable (∀ rule ∈ record.rules, cString rule.1 ∉ fixedNames))

/-- The rules that a listing is to return. -/
def returnedRules : List Bytes :=
  [ascii "GamePassword", ascii "GameStats", ascii "ServerVersion", ascii "ServerMode"]

/-- A record has what another one reports. -/
structure SameReport (loaded record : ServerRecord) : Prop where
  hostname : loaded.hostname = record.hostname
  level : loaded.level = record.level
  gameGroup : loaded.gameGroup = record.gameGroup
  botLevel : loaded.botLevel = record.botLevel
  numPlayers : loaded.numPlayers = record.numPlayers
  maxPlayers : loaded.maxPlayers = record.maxPlayers
  rules : ∀ name ∈ returnedRules, ∀ value, record.rules.lookup name = some value →
    loaded.rules.lookup name = some value

/-- The server key that a heartbeat is stored under. -/
def Store.serverKeyOf (s : Store) (request : HeartbeatRequest) : Bytes :=
  (s.getServerKeyFromRequest request.gamename request.record.address).1

/-- What redis has under the name of a rule once a record is written, if it is no fixed name. -/
def storedRule (hash : Hash) (record : ServerRecord) (name : Bytes) : Option Bytes :=
  (hmset hash (cStrings record.rules) name).map cString

/-- A reported rule comes back under its own name: there is a filter for it and no other rule has
its name as a C string, or the version or the mode of the server stands in for it. -/
def RuleComesBack (stored : Bytes → Option Bytes) (filters : List FilterProperties)
    (name value : Bytes) : Prop :=
  if ∃ filter ∈ filters, cString filter.field = name then stored name = some value
  else
    (name = ascii "GamePassword" ∧ stored (ascii "ServerVersion") = some value) ∨
      (name = ascii "GameStats" ∧ stored (ascii "ServerMode") = some value ∧
        (stored (ascii "GamePassword") = none ∨ stored (ascii "ServerVersion") = none))

/-- A record is listed as it was reported. -/
structure ComesBack (hash : Hash) (undef : Undef) (filters : List FilterProperties)
    (record : ServerRecord) : Prop where
  port : record.address.port ≠ 0
  hostname : 0 ∉ record.hostname
  level : record.level = []
  gameGroup : 0 ∉ record.gameGroup
  botLevel : record.botLevel = []
  maxPlayers : record.maxPlayers = undef.maxPlayers
  rules : ∀ name ∈ returnedRules, ∀ value, record.rules.lookup name = some value →
    RuleComesBack (storedRule hash record) filters name value

/-- What `LoadServerCustomKeys` files from the index 6 on, for the keys that are no fixed ones. The
index is past the switch, and the name that it has is that of two keys before. -/
theorem load_rule_keys_spec (serverKey : Bytes) (pw stats ver mode : Option Bytes)
    (result : ServerRecord) (hrules : ∀ name ∈ returnedRules, result.rules.lookup name = none) :
    ∃ rules,
      loadServerCustomKeys (lookupKeys serverKey) 6 [pw, stats, ver, mode] result =
        { result with rules := rules } ∧
      rules.lookup (ascii "GamePassword") =
        (if pw.isSome ∨ stats = none then ver.map cString else none) ∧
      rules.lookup (ascii "GameStats") =
        (if (pw.isSome ∨ stats = none) ∧ ver.isSome then none else mode.map cString) ∧
      rules.lookup (ascii "ServerVersion") = none ∧ rules.lookup (ascii "ServerMode") = none := by
  have hset6 : ∀ text record, setCustom (lookupKeys serverKey) 6 text record =
      { record with rules := setRule (ascii "numplayers") (cString text) record.rules } :=
    fun _ _ => rfl
  have hset7 : ∀ text record, setCustom (lookupKeys serverKey) 7 text record =
      { record with rules := setRule (ascii "maxplayers") (cString text) record.rules } :=
    fun _ _ => rfl
  have hset8 : ∀ text record, setCustom (lookupKeys serverKey) 8 text record =
      { record with rules := setRule (ascii "GamePassword") (cString text) record.rules } :=
    fun _ _ => rfl
  have hset9 : ∀ text record, setCustom (lookupKeys serverKey) 9 text record =
      { record with rules := setRule (ascii "GameStats") (cString text) record.rules } :=
    fun _ _ => rfl
  have hpassword := hrules (ascii "GamePassword") (by decide)
  have hstats := hrules (ascii "GameStats") (by decide)
  have hversion := hrules (ascii "ServerVersion") (by decide)
  have hmode := hrules (ascii "ServerMode") (by decide)
  refine ⟨(loadServerCustomKeys (lookupKeys serverKey) 6 [pw, stats, ver, mode] result).rules, ?_⟩
  cases pw <;> cases stats <;> cases ver <;> cases mode <;>
    simp +decide only [loadServerCustomKeys, hset6, hset7, hset8, hset9, lookup_set_rule,
      hpassword, hstats, hversion, hmode, Option.map_none, Option.map_some, Option.isSome_some,
      reduceCtorEq, if_true, if_false, and_self]

/-- What the switch of `LoadServerCustomKeys` comes to, for a reply with the six fixed keys, and the
rules it files. -/
theorem load_custom_keys_spec (serverKey h l g b n m : Bytes) (pw stats ver mode : Option Bytes)
    (result : ServerRecord) (hrules : result.rules = []) :
    ∃ rules,
      loadServerCustomKeys (lookupKeys serverKey) 0
          [some h, some l, some g, some b, some n, some m, pw, stats, ver, mode] result =
        { result with
          hostname := cString h
          gameGroup := cString g
          numPlayers := .ofInt (atoi n)
          rules := rules } ∧
      rules.lookup (ascii "GamePassword") =
        (if pw.isSome ∨ stats = none then ver.map cString else none) ∧
      rules.lookup (ascii "GameStats") =
        (if (pw.isSome ∨ stats = none) ∧ ver.isSome then none else mode.map cString) ∧
      rules.lookup (ascii "ServerVersion") = none ∧ rules.lookup (ascii "ServerMode") = none := by
  obtain ⟨id, address, gameid, hostname, level, gameGroup, botLevel, numPlayers, maxPlayers, rules,
    mutators⟩ := result
  subst hrules
  refine load_rule_keys_spec serverKey pw stats ver mode _ fun name hname => ?_
  simp only [returnedRules, List.mem_cons, List.not_mem_nil, or_false] at hname
  rcases hname with rfl | rfl | rfl | rfl <;> rfl

/-- Looking for a server key changes no hash. -/
theorem hashes_of_server_key (s : Store) (request : HeartbeatRequest) :
    let found := s.getServerKeyFromRequest request.gamename request.record.address
    found.2.2.2.servers = s.servers ∧ found.2.2.2.custKeys = s.custKeys := by
  unfold Store.getServerKeyFromRequest
  by_cases hfound : (s.getServerKeyFromIpMap request.record.address).length > 0
  · simp [hfound]
  · simp [hfound]

/-- What a heartbeat writes for its server. -/
theorem perform_heartbeat_hashes (s : Store) (request : HeartbeatRequest) :
    (s.performHeartbeat request).servers (s.serverKeyOf request) =
        hmset (s.servers (s.serverKeyOf request))
          (cStrings (basicKeys (s.serverKeyOf request) request.now request.record)) ∧
      (s.performHeartbeat request).custKeys (s.serverKeyOf request) =
        hmset (s.custKeys (s.serverKeyOf request))
          (custKeysPairs request.gamename request.record) := by
  have hstore := hashes_of_server_key s request
  unfold Store.performHeartbeat Store.serverKeyOf
  generalize s.getServerKeyFromRequest request.gamename request.record.address = found at hstore ⊢
  obtain ⟨serverKey, id, isNewServer, next⟩ := found
  simp only at hstore
  simp [Store.sendEvent, Store.writeServerData, hstore.1, hstore.2]

section Written

variable (hash : Hash) (gamename : Bytes) {record : ServerRecord}

/-- The commands that write under `custkeys`, one after the other. -/
theorem cust_keys_written (record : ServerRecord) :
    hmset hash (custKeysPairs gamename record) =
      hmset (hmset (hmset hash (cStrings (fixedKeys gamename record))) (cStrings record.rules))
        (cStrings (filterVariables record)) := by
  simp [custKeysPairs, cStrings, hmset]

/-- A rule that is no fixed name is as the rules wrote it. -/
theorem rule_written {name : Bytes} (h : name ∈ returnedRules) :
    hmset hash (custKeysPairs gamename record) name = hmset hash (cStrings record.rules) name := by
  have hkept : ∀ other : Hash, hmset other (cStrings (filterVariables record)) name = other name ∧
      hmset other (cStrings (fixedKeys gamename record)) name = other name := by
    intro other
    simp only [returnedRules, List.mem_cons, List.not_mem_nil, or_false] at h
    rcases h with rfl | rfl | rfl | rfl <;> exact ⟨rfl, rfl⟩
  rw [cust_keys_written, (hkept _).1, hmset_apply, (hkept _).2, ← hmset_apply]

/-- A fixed name that no rule collides with. -/
theorem fixed_written (hnames : record.NoCollision) {name value : Bytes} (hname : name ∈ fixedNames)
    (hfilter : ∀ hash : Hash, hmset hash (cStrings (filterVariables record)) name = hash name)
    (hvalue : hmset hash (cStrings (fixedKeys gamename record)) name = some value) :
    hmset hash (custKeysPairs gamename record) name = some value := by
  rw [cust_keys_written, hfilter, hmset_of_not_mem, hvalue]
  intro other hmem
  obtain ⟨rule, hrule, heq⟩ := List.mem_map.mp hmem
  refine hnames rule hrule ?_
  rw [(Prod.mk.inj heq).1]
  exact hname

/-- The reply to the second `HMGET` of a listing. -/
theorem cust_reply (hnames : record.NoCollision) :
    let written := hmset hash (custKeysPairs gamename record)
    let stored := hmset hash (cStrings record.rules)
    hmget written custLookupKeys =
      [some (cString record.hostname), some (cString record.level), some (cString record.gameGroup),
        some (cString record.botLevel), some (cString (printInt record.numPlayers.toInt)),
        some (cString (printInt record.maxPlayers.toInt)), stored (ascii "GamePassword"),
        stored (ascii "GameStats"), stored (ascii "ServerVersion"),
        stored (ascii "ServerMode")] := by
  intro written stored
  have hfixed : ∀ {name value}, name ∈ fixedNames →
      (∀ hash : Hash, hmset hash (cStrings (filterVariables record)) name = hash name) →
      hmset hash (cStrings (fixedKeys gamename record)) name = some value →
      written name = some value := fun hname hfilter hvalue =>
    fixed_written hash gamename hnames hname hfilter hvalue
  have hhost : written (ascii "hostname") = some (cString record.hostname) :=
    hfixed (by decide) (fun _ => rfl) rfl
  have hlevel : written (ascii "mapname") = some (cString record.level) :=
    hfixed (by decide) (fun _ => rfl) rfl
  have hgroup : written (ascii "gametype") = some (cString record.gameGroup) :=
    hfixed (by decide) (fun _ => rfl) rfl
  have hbot : written (ascii "botlevel") = some (cString record.botLevel) :=
    hfixed (by decide) (fun _ => rfl) rfl
  have hplayers : written (ascii "numplayers") =
      some (cString (printInt record.numPlayers.toInt)) :=
    hfixed (by decide) (fun _ => rfl) rfl
  have hmax : written (ascii "maxplayers") =
      some (cString (printInt record.maxPlayers.toInt)) :=
    hfixed (by decide) (fun _ => rfl) rfl
  have hrule : ∀ {name}, name ∈ returnedRules → written name = stored name := fun hname =>
    rule_written hash gamename hname
  have hkeys : hmget written custLookupKeys = custLookupKeys.map written := rfl
  rw [hkeys]
  simp only [custLookupKeys, List.map_cons, List.map_nil, hhost, hlevel, hgroup, hbot, hplayers,
    hmax]
  rw [hrule (by decide), hrule (by decide), hrule (by decide), hrule (by decide)]

/-- The first reply of a listing. -/
theorem basic_reply (serverKey : Bytes) (now : Nat) (record : ServerRecord) :
    hmget (hmset hash (cStrings (basicKeys serverKey now record))) basicLookupKeys =
      [some (cString serverKey), some (cString (printInt record.gameid.toInt)),
        some (cString (printNat record.address.port.toNat)),
        some (cString (inetNtop record.address.ip)),
        some (cString (getMutatorsString record.mutators))] :=
  rfl

end Written

/-- The number of a port survives the store. -/
theorem port_stored (port : UInt16) :
    UInt16.ofInt (atoi (cString (printNat port.toNat))) = port := by
  have hprint : printNat port.toNat = printInt port.toNat := by simp [printInt]
  have hread : atoi (cString (printNat port.toNat)) = port.toNat := by
    have hbound := port.toNat_lt
    rw [hprint, c_string_eq_self fun hmem => print_int_no_nul _ _ hmem rfl]
    exact atoi_print_int_self (by omega) (by omega)
  rw [hread, UInt16.ofInt, Int.emod_eq_of_lt (by omega) (by have := port.toNat_lt; omega),
    Int.toNat_natCast, UInt16.ofNat_toNat]

/-- An `int` survives the store. -/
theorem int_stored (value : Int32) :
    Int32.ofInt (atoi (cString (printInt value.toInt))) = value := by
  rw [c_string_eq_self fun hmem => print_int_no_nul _ _ hmem rfl,
    atoi_print_int_self value.le_toInt value.toInt_lt, Int32.ofInt_toInt]

/-- Only the port 0 is 0 in network order. -/
theorem htons_eq_zero {port : UInt16} : htons port = 0 ↔ port = 0 := by
  have hbound := port.toNat_lt
  rw [htons, ← UInt16.toNat_inj, ← UInt16.toNat_inj, UInt16.toNat_ofNat']
  rw [UInt16.toNat_zero, Nat.mod_eq_of_lt (by omega)]
  omega

/-- A reported rule is stored. -/
theorem stored_of_reported (hash : Hash) {record : ServerRecord} {name value : Bytes}
    (hname : cString name = name) (h : record.rules.lookup name = some value) :
    (hmset hash (cStrings record.rules) name).isSome := by
  obtain ⟨before, after, hrules, -⟩ := List.lookup_eq_some_iff.mp h
  refine hmset_isSome.mpr (.inl ⟨cString value, ?_⟩)
  refine List.mem_map.mpr ⟨(name, value), by simp [hrules], ?_⟩
  rw [hname]

/-- What a listing loads for a server that has just sent a heartbeat. -/
structure Loaded (hash : Hash) (undef : Undef) (filters : List FilterProperties)
    (record loaded : ServerRecord) : Prop where
  port : loaded.address.port = htons record.address.port
  hostname : loaded.hostname = cString record.hostname
  level : loaded.level = []
  gameGroup : loaded.gameGroup = cString record.gameGroup
  botLevel : loaded.botLevel = []
  numPlayers : loaded.numPlayers = record.numPlayers
  maxPlayers : loaded.maxPlayers = undef.maxPlayers
  rules : ∀ name ∈ returnedRules, ∀ value, record.rules.lookup name = some value →
    (loaded.rules.lookup name = some value ↔
      RuleComesBack (storedRule hash record) filters name value)

/-- A listing of a server that has just sent a heartbeat. -/
theorem load_server_spec (s : Store) (request : HeartbeatRequest)
    (hnames : request.record.NoCollision) (undef : Bytes → Undef)
    (filters : List FilterProperties) :
    Loaded (s.custKeys (s.serverKeyOf request)) (undef (s.serverKeyOf request)) filters
      request.record
      ((s.performHeartbeat request).loadServer undef filters (s.serverKeyOf request)) := by
  obtain ⟨hservers, hcust⟩ := perform_heartbeat_hashes s request
  unfold Store.loadServer
  rw [hservers, hcust, basic_reply, cust_reply _ _ hnames]
  generalize s.custKeys (s.serverKeyOf request) = hash
  generalize s.serverKeyOf request = serverKey
  have hwritten : ∀ {name}, name ∈ returnedRules →
      hmset hash (custKeysPairs request.gamename request.record) name =
        hmset hash (cStrings request.record.rules) name :=
    fun hname => rule_written hash request.gamename hname
  extract_lets fields basic custom
  obtain ⟨rules, hcustom, hpassword, hstats, hversion, hmode⟩ :=
    load_custom_keys_spec serverKey (cString request.record.hostname)
      (cString request.record.level) (cString request.record.gameGroup)
      (cString request.record.botLevel) (cString (printInt request.record.numPlayers.toInt))
      (cString (printInt request.record.maxPlayers.toInt))
      (hmset hash (cStrings request.record.rules) (ascii "GamePassword"))
      (hmset hash (cStrings request.record.rules) (ascii "GameStats"))
      (hmset hash (cStrings request.record.rules) (ascii "ServerVersion"))
      (hmset hash (cStrings request.record.rules) (ascii "ServerMode")) basic rfl
  obtain ⟨filed, hfiled, hlookup⟩ :=
    load_filter_keys_spec (hmset hash (custKeysPairs request.gamename request.record)) fields custom
  have hfield : ∀ name, (∃ field ∈ fields, cString field = name) ↔
      ∃ filter ∈ filters, cString filter.field = name := by simp [fields]
  rw [hfiled]
  have hloaded : custom = { basic with
      hostname := cString (cString request.record.hostname)
      gameGroup := cString (cString request.record.gameGroup)
      numPlayers := .ofInt (atoi (cString (printInt request.record.numPlayers.toInt)))
      rules := rules } := hcustom
  rw [hloaded] at hlookup ⊢
  refine
    { port := ?_, hostname := c_string_c_string _, level := rfl, gameGroup := c_string_c_string _,
      botLevel := rfl, numPlayers := int_stored _, maxPlayers := rfl, rules := ?_ }
  · rw [← port_stored request.record.address.port]
    rfl
  · intro name hname value hreported
    have hstring : ∀ name ∈ returnedRules, cString name = name := by decide
    have hsome := stored_of_reported hash (hstring name hname) hreported
    show filed.lookup name = some value ↔ _
    rw [hlookup, hwritten hname, RuleComesBack]
    simp only [hfield, hsome, and_true]
    split
    · exact Iff.rfl
    · show rules.lookup name = some value ↔ _
      simp only [storedRule]
      simp only [returnedRules, List.mem_cons, List.not_mem_nil, or_false] at hname
      rcases hname with rfl | rfl | rfl | rfl
      · have hne : ascii "GamePassword" ≠ ascii "GameStats" := by decide
        simp [hpassword, hsome, hne]
      · have hne : ascii "GameStats" ≠ ascii "GamePassword" := by decide
        have hstats' : hmset hash (cStrings request.record.rules) (ascii "GameStats") ≠ none :=
          fun heq => by simp [heq] at hsome
        simp only [hstats, hne, false_and, false_or, true_and, hstats', or_false]
        cases hmset hash (cStrings request.record.rules) (ascii "GamePassword") <;>
          cases hmset hash (cStrings request.record.rules) (ascii "ServerVersion") <;> simp
      · have hne : ascii "ServerVersion" ≠ ascii "GamePassword" ∧
            ascii "ServerVersion" ≠ ascii "GameStats" := by decide
        simp [hversion, hne.1, hne.2]
      · have hne : ascii "ServerMode" ≠ ascii "GamePassword" ∧
            ascii "ServerMode" ≠ ascii "GameStats" := by decide
        simp [hmode, hne.1, hne.2]

/-- A server that has just sent a heartbeat is listed as it was reported, where the filters let it
pass, just if its record is one that comes back. -/
theorem returned_iff (s : Store) (request : HeartbeatRequest)
    (hnames : request.record.NoCollision) (undef : Bytes → Undef) (filters : List FilterProperties)
    (hpass : filterMatches
      ((s.performHeartbeat request).loadServer undef filters (s.serverKeyOf request)) filters) :
    (∃ loaded, (s.performHeartbeat request).listServer undef filters (s.serverKeyOf request) =
        some loaded ∧ SameReport loaded request.record) ↔
      ComesBack (s.custKeys (s.serverKeyOf request)) (undef (s.serverKeyOf request)) filters
        request.record := by
  have hspec := load_server_spec s request hnames undef filters
  unfold Store.listServer
  generalize (s.performHeartbeat request).loadServer undef filters (s.serverKeyOf request) = loaded
    at hpass hspec ⊢
  have hzero : loaded.address.port = 0 ↔ request.record.address.port = 0 := by
    rw [hspec.port, htons_eq_zero]
  simp only [hpass, if_true]
  constructor
  · rintro ⟨other, hlisted, hsame⟩
    split at hlisted
    · cases hlisted
    · rename_i hport
      obtain rfl := Option.some.inj hlisted
      exact
        { port := fun heq => hport (hzero.mpr heq)
          hostname := by
            rw [← hsame.hostname, hspec.hostname]
            exact zero_not_mem_c_string _
          level := by rw [← hsame.level, hspec.level]
          gameGroup := by
            rw [← hsame.gameGroup, hspec.gameGroup]
            exact zero_not_mem_c_string _
          botLevel := by rw [← hsame.botLevel, hspec.botLevel]
          maxPlayers := by rw [← hsame.maxPlayers, hspec.maxPlayers]
          rules := fun name hname value hreported =>
            (hspec.rules name hname value hreported).mp (hsame.rules name hname value hreported) }
  · intro hback
    refine ⟨loaded, if_neg fun heq => hback.port (hzero.mp heq), ?_⟩
    exact
      { hostname := by rw [hspec.hostname, c_string_eq_self hback.hostname]
        level := by rw [hspec.level, hback.level]
        gameGroup := by rw [hspec.gameGroup, c_string_eq_self hback.gameGroup]
        botLevel := by rw [hspec.botLevel, hback.botLevel]
        numPlayers := hspec.numPlayers
        maxPlayers := by rw [hspec.maxPlayers, hback.maxPlayers]
        rules := fun name hname value hreported =>
          (hspec.rules name hname value hreported).mpr (hback.rules name hname value hreported) }

/-- The memory of a record in which the maximum of players happens to be right. -/
def sixteenPlayers : Bytes → Undef :=
  fun _ => ⟨0, 0, 0, 16⟩

/-- The heartbeat of a server without a map. -/
def bareHeartbeat : HeartbeatRequest :=
  ⟨0, ascii "ut2004", { hostRecord with level := [] }⟩

/-- A server without a map comes back as it was reported. -/
theorem host_returned :
    ∃ loaded,
      (Store.empty.performHeartbeat bareHeartbeat).listServer sixteenPlayers []
          (Store.empty.serverKeyOf bareHeartbeat) = some loaded ∧
        SameReport loaded bareHeartbeat.record :=
  (returned_iff .empty bareHeartbeat (by decide) sixteenPlayers [] rfl).mpr
    { port := by decide
      hostname := by decide
      level := rfl
      gameGroup := by decide
      botLevel := rfl
      maxPlayers := rfl
      rules := fun _ _ _ hreported => by cases hreported }

/-- The map of a server is not returned. -/
theorem level_not_returned :
    ¬ ∀ (s : Store) (request : HeartbeatRequest) undef filters, request.record.NoCollision →
      filterMatches
        ((s.performHeartbeat request).loadServer undef filters (s.serverKeyOf request)) filters →
      ∃ loaded, (s.performHeartbeat request).listServer undef filters (s.serverKeyOf request) =
        some loaded ∧ SameReport loaded request.record := by
  intro h
  obtain ⟨loaded, hlisted, hsame⟩ :=
    h .empty ⟨0, ascii "ut2004", hostRecord⟩ sixteenPlayers [] (by decide) rfl
  have hlevel : loaded.level = [] := by
    have heq := congrArg (Option.map (·.level)) hlisted
    exact (Option.some.inj heq).symm
  exact absurd (hlevel.symm.trans hsame.level) (by decide)

end OpenSpy.UTMaster
