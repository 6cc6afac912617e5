import OpenSpy.UTMaster.Reported

/-!
# The filters of the Unreal master

A server is listed if the filters of a request match the record that is loaded for it. A filter for
a mutator is looked up as a rule, which the heartbeat does not write, so that it lets all servers
pass, and the test for `nomutators` is the wrong way round. `filtered_iff` says for which filters a
server is listed just if it meets them by its last heartbeat. What the record of a heartbeat has of
its fields is told by `rules_of_message` and `mutators_of_message`.
-/

namespace OpenSpy.UTMaster

open Bytes MachineInt Redis Runs

/-- What an item of a filter is about. A name that is not one of the first twelve is that of a
rule. -/
inductive FilterField where
  | gametype
  | mutator
  | currentplayers
  | category
  | freespace
  | nomutators
  | standard
  | nobots
  | transloc
  | weaponstay
  | stats
  | password
  | rule (name : Bytes)
  deriving DecidableEq, Repr

/-- The names of the fields that browsers filter by, apart from rules. -/
def filterFields : List (Bytes × FilterField) :=
  [(ascii "gametype", .gametype), (ascii "mutator", .mutator),
    (ascii "currentplayers", .currentplayers), (ascii "category", .category),
    (ascii "freespace", .freespace), (ascii "nomutators", .nomutators),
    (ascii "standard", .standard), (ascii "nobots", .nobots), (ascii "transloc", .transloc),
    (ascii "weaponstay", .weaponstay), (ascii "stats", .stats), (ascii "password", .password)]

/-- The field of a name. -/
def FilterField.of (name : Bytes) : FilterField :=
  (filterFields.lookup name).getD (.rule name)

/-- An item is about one of the filter fields, or a rule that the server has reported. -/
def ServerRecord.Reports (record : ServerRecord) (item : FilterProperties) : Prop :=
  (filterFields.lookup item.field).isSome ∨ (record.rules.lookup item.field).isSome

instance (record : ServerRecord) (item : FilterProperties) : Decidable (record.Reports item) :=
  inferInstanceAs (Decidable (_ ∨ _))

/-- What a server has reported of a field, as far as it is a text. A rule by the name of the game
group stands in for it, every server is a standard one, and a rule that is left out is switched
off. -/
def ServerRecord.reported (record : ServerRecord) : FilterField → Option Bytes
  | .gametype => some ((record.rules.lookup (ascii "gametype")).getD record.gameGroup)
  | .mutator => none
  | .currentplayers => some (printInt record.numPlayers.toInt)
  | .category => some record.botLevel
  | .freespace => some (if record.numPlayers < record.maxPlayers then ascii "1" else ascii "0")
  | .nomutators => some (if record.mutators = [] then ascii "true" else ascii "false")
  | .standard => some (ascii "true")
  | .nobots =>
      match record.rules.lookup (ascii "MinPlayers") with
      | some minPlayers => some (if atoi minPlayers = 0 then ascii "true" else ascii "false")
      | none => some (ascii "true")
  | .transloc => some ((record.rules.lookup (ascii "Translocator")).getD (ascii "False"))
  | .weaponstay => some ((record.rules.lookup (ascii "WeaponStay")).getD (ascii "False"))
  | .stats => some ((record.rules.lookup (ascii "GameStats")).getD (ascii "False"))
  | .password => some ((record.rules.lookup (ascii "GamePassword")).getD (ascii "False"))
  | .rule name => record.rules.lookup name

/-- Two texts are equal letter by letter, up to their NUL. -/
def EqualText (a b : Bytes) : Prop :=
  List.Forall₂ SameLetter (a.takeWhile (· ≠ 0)) (b.takeWhile (· ≠ 0))

instance (a b : Bytes) : Decidable (EqualText a b) :=
  inferInstanceAs (Decidable (List.Forall₂ _ _ _))

/-- How a reported text compares with that of an item: as a text for equality, and as a number for
an order. -/
def EQueryType.Compares (type : EQueryType) (reported wanted : Bytes) : Prop :=
  match type with
  | .equals => EqualText reported wanted
  | .notEquals => ¬ EqualText reported wanted
  | .lessThan => atoi reported < atoi wanted
  | .lessThanEquals => atoi reported ≤ atoi wanted
  | .greaterThan => atoi wanted < atoi reported
  | .greaterThanEquals => atoi wanted ≤ atoi reported
  | .disabled => False

instance (reported wanted : Bytes) :
    (type : EQueryType) → Decidable (type.Compares reported wanted)
  | .equals => inferInstanceAs (Decidable (EqualText _ _))
  | .notEquals => inferInstanceAs (Decidable (¬ EqualText _ _))
  | .lessThan | .greaterThan => inferInstanceAs (Decidable (_ < _))
  | .lessThanEquals | .greaterThanEquals => inferInstanceAs (Decidable (_ ≤ _))
  | .disabled => instDecidableFalse

/-- What an item about a mutator asks of a server that has the mutator or does not. There is no
order between mutators. -/
def EQueryType.Asks (type : EQueryType) (has : Prop) : Prop :=
  match type with
  | .equals | .lessThanEquals | .greaterThanEquals => has
  | .notEquals => ¬ has
  | .lessThan | .greaterThan | .disabled => False

instance (has : Prop) [Decidable has] : (type : EQueryType) → Decidable (type.Asks has)
  | .equals | .lessThanEquals | .greaterThanEquals => inferInstanceAs (Decidable has)
  | .notEquals => inferInstanceAs (Decidable (¬ has))
  | .lessThan | .greaterThan | .disabled => instDecidableFalse

/-- A server meets an item by what it has reported. -/
def Satisfies (record : ServerRecord) (item : FilterProperties) : Prop :=
  if FilterField.of item.field = .mutator then item.type.Asks (item.property ∈ record.mutators)
  else ∃ text ∈ record.reported (.of item.field), item.type.Compares text item.property

instance (record : ServerRecord) (item : FilterProperties) : Decidable (Satisfies record item) := by
  unfold Satisfies
  infer_instance

/-- The last of the rules that are stored under a name, whose names are cut off at a NUL. -/
def ServerRecord.lastRule (record : ServerRecord) (name : Bytes) : Option Bytes :=
  (record.rules.reverse.find? fun rule => cString rule.1 = name).map (·.2)

/-- The mutators that a listing loads, which stand between backslashes in the store. -/
def loadedMutators (record : ServerRecord) : List Bytes :=
  keyStringToVector (cString (getMutatorsString record.mutators)) (char '\\')

/-- What a comparison makes of a difference that has no direction. -/
def EQueryType.PassesDifference (type : EQueryType) (differs : Prop) : Prop :=
  match type with
  | .equals | .lessThanEquals => ¬ differs
  | .notEquals | .greaterThan => differs
  | .greaterThanEquals => True
  | .lessThan | .disabled => False

instance (differs : Prop) [Decidable differs] :
    (type : EQueryType) → Decidable (type.PassesDifference differs)
  | .equals | .lessThanEquals => inferInstanceAs (Decidable (¬ differs))
  | .notEquals | .greaterThan => inferInstanceAs (Decidable differs)
  | .greaterThanEquals => instDecidableTrue
  | .lessThan | .disabled => instDecidableFalse

section Right

variable (old : Hash) (record : ServerRecord) (item : FilterProperties)

/-- An item that takes a mutator the server does not have for a difference is right. -/
def MutatorRight : Prop :=
  item.type.PassesDifference (item.property ∉ loadedMutators record) ↔ Satisfies record item

/-- An item that takes a server without mutators for a difference is right. -/
def NoMutatorsRight : Prop :=
  item.type.PassesDifference (loadedMutators record = []) ↔ Satisfies record item

/-- An item whose text is stored is right if that compares like the reported one. -/
def TextRight (stored : Option Bytes) : Prop :=
  ∀ text ∈ stored, (item.type.Compares text item.property ↔ Satisfies record item)

/-- The fields whose items are decided by what the server has reported. All servers pass an item
about a mutator, unless a rule by that name is stored. An item about `nomutators` is met by the
servers with mutators, whatever its text says. A rule by the name of one of these in another case is
tested like it, and otherwise the last one of the name counts. The texts of the other fields are
stored as they are reported. -/
def FilterField.Right : FilterField → Prop
  | .mutator =>
      if (old (ascii "mutator")).isSome ∨ (record.lastRule (ascii "mutator")).isSome then
        MutatorRight record item
      else Satisfies record item
  | .nomutators => NoMutatorsRight record item
  | .gametype =>
      TextRight record item (some ((record.lastRule (ascii "gametype")).getD record.gameGroup))
  | .rule name =>
      if EqualText name (ascii "mutator") then MutatorRight record item
      else if EqualText name (ascii "nomutators") then NoMutatorsRight record item
      else TextRight record item (record.lastRule name)
  | _ => True

/-- An item is decided by what the server has reported. All servers pass one whose field has a
NUL. -/
def DecidedRight : Prop :=
  if 0 ∈ item.field then Satisfies record item
  else (FilterField.of item.field).Right old record item

instance : Decidable (MutatorRight record item) :=
  inferInstanceAs (Decidable (_ ↔ _))

instance : Decidable (NoMutatorsRight record item) :=
  inferInstanceAs (Decidable (_ ↔ _))

instance (stored : Option Bytes) : Decidable (TextRight record item stored) :=
  inferInstanceAs (Decidable (∀ text ∈ stored, _))

instance : (field : FilterField) → Decidable (field.Right old record item)
  | .mutator => inferInstanceAs (Decidable (ite _ _ _))
  | .nomutators => inferInstanceAs (Decidable (NoMutatorsRight record item))
  | .gametype => inferInstanceAs (Decidable (TextRight record item _))
  | .rule _ => inferInstanceAs (Decidable (ite _ _ _))
  | .currentplayers | .category | .freespace | .standard | .nobots | .transloc | .weaponstay
  | .stats | .password => instDecidableTrue

instance : Decidable (DecidedRight old record item) :=
  inferInstanceAs (Decidable (ite _ _ _))

end Right

/-- The items of a filter let a server through just if it meets them: one that is decided right
excludes it, or all are decided right, or among those that are not there is one that the server
meets and one that it does not meet. A server without a port is not listed. -/
def FilteredRight (old : Hash) (record : ServerRecord) (filters : List FilterProperties) : Prop :=
  if record.address.port = 0 then ∃ item ∈ filters, ¬ Satisfies record item
  else
    (∃ item ∈ filters, DecidedRight old record item ∧ ¬ Satisfies record item) ∨
      (∀ item ∈ filters, DecidedRight old record item) ∨
      ((∃ item ∈ filters, ¬ DecidedRight old record item ∧ Satisfies record item) ∧
        ∃ item ∈ filters, ¬ DecidedRight old record item ∧ ¬ Satisfies record item)

instance (old : Hash) (record : ServerRecord) (filters : List FilterProperties) :
    Decidable (FilteredRight old record filters) := by
  unfold FilteredRight
  infer_instance

/-- A task is not a heartbeat that is stored under a server key. -/
def Store.Spares (s : Store) (serverKey : Bytes) : Task → Prop
  | .heartbeat request => s.serverKeyOf request ≠ serverKey
  | .deleteServer _ => True

instance (s : Store) (serverKey : Bytes) : (task : Task) → Decidable (s.Spares serverKey task)
  | .heartbeat _ => inferInstanceAs (Decidable (_ ≠ _))
  | .deleteServer _ => instDecidableTrue

section Run

variable {s : Store} {serverKey : Bytes}

/-- A heartbeat writes only to the hashes of its server. -/
theorem perform_heartbeat_other (request : HeartbeatRequest)
    (hother : s.serverKeyOf request ≠ serverKey) :
    (s.performHeartbeat request).custKeys serverKey = s.custKeys serverKey ∧
      (s.performHeartbeat request).servers serverKey = s.servers serverKey := by
  have hstore := hashes_of_server_key s request
  unfold Store.performHeartbeat Store.serverKeyOf at *
  generalize s.getServerKeyFromRequest request.gamename request.record.address = found
    at hother hstore ⊢
  obtain ⟨written, id, isNewServer, next⟩ := found
  simp only at hother hstore
  simp [Store.sendEvent, Store.writeServerData, Function.update_of_ne (Ne.symm hother), hstore]

/-- A task that spares a server leaves what is listed of it. -/
theorem run_task_spares {task : Task} (hspares : s.Spares serverKey task) :
    (s.runTask task).custKeys serverKey = s.custKeys serverKey ∧
      ∀ field ≠ ascii "deleted",
        (s.runTask task).servers serverKey field = s.servers serverKey field := by
  cases task with
  | heartbeat request =>
      obtain ⟨hcust, hservers⟩ := perform_heartbeat_other request hspares
      exact ⟨hcust, fun field _ => congrFun hservers field⟩
  | deleteServer address =>
      show (s.performDeleteServer address).custKeys serverKey = _ ∧
        ∀ field ≠ ascii "deleted", (s.performDeleteServer address).servers serverKey field = _
      unfold Store.performDeleteServer
      extract_lets deleted
      split
      · refine ⟨rfl, fun field hfield => ?_⟩
        by_cases hkey : deleted = serverKey
        · simp [Store.sendEvent, hkey, hfield]
        · simp [Store.sendEvent, Function.update_of_ne (Ne.symm hkey)]
      · exact ⟨rfl, fun _ _ => rfl⟩

/-- What is listed of a server is what its last heartbeat left. -/
theorem run_spares {run : List Task}
    (hrun : AtEach Store.runTask s (fun s task => s.Spares serverKey task) run) :
    (after Store.runTask s run).custKeys serverKey = s.custKeys serverKey ∧
      ∀ field ≠ ascii "deleted",
        (after Store.runTask s run).servers serverKey field = s.servers serverKey field := by
  induction run using List.reverseRecOn with
  | nil => exact ⟨rfl, fun _ _ => rfl⟩
  | append_singleton run task ih =>
      obtain ⟨hbefore, hlast⟩ := at_each_concat.mp hrun
      obtain ⟨hcust, hservers⟩ := ih hbefore
      obtain ⟨hcustLast, hserversLast⟩ := run_task_spares hlast
      rw [after_concat]
      exact ⟨hcustLast.trans hcust, fun field hfield =>
        (hserversLast field hfield).trans (hservers field hfield)⟩

end Run

section Load

/-- The second reply of a listing changes no address and no mutators, and files no rule but under
the names from an index on. -/
theorem load_custom_keys_frame (names : List Bytes) (idx : Nat) (reply : List (Option Bytes))
    (result : ServerRecord) :
    let loaded := loadServerCustomKeys names idx reply result
    loaded.address = result.address ∧ loaded.mutators = result.mutators ∧
      ∀ name, (∀ i ≥ idx, cString (names.getD i []) ≠ name) →
        loaded.rules.lookup name = result.rules.lookup name := by
  have hset : ∀ idx text (result : ServerRecord),
      (setCustom names idx text result).address = result.address ∧
        (setCustom names idx text result).mutators = result.mutators ∧
        (setCustom names idx text result).rules =
          setRule (cString (names.getD idx [])) (cString text) result.rules := by
    intro idx text result
    unfold setCustom
    split <;> exact ⟨rfl, rfl, rfl⟩
  have hlookup : ∀ idx text (result : ServerRecord) name, cString (names.getD idx []) ≠ name →
      (setCustom names idx text result).rules.lookup name = result.rules.lookup name := by
    intro idx text result name hname
    rw [(hset idx text result).2.2, lookup_set_rule, if_neg (Ne.symm hname)]
  fun_induction loadServerCustomKeys names idx reply result with
  | case1 => exact ⟨rfl, rfl, fun _ _ => rfl⟩
  | case2 idx reply result ih =>
      obtain ⟨haddress, hmutators, hrules⟩ := ih
      exact ⟨haddress, hmutators, fun name hname => hrules name fun i hi => hname i (by omega)⟩
  | case3 idx text result =>
      obtain ⟨haddress, hmutators, -⟩ := hset idx text result
      exact ⟨haddress, hmutators, fun name hname => hlookup idx text result name (hname idx le_rfl)⟩
  | case4 idx text skipped reply result ih =>
      obtain ⟨haddress, hmutators, hrules⟩ := ih
      obtain ⟨haddressSet, hmutatorsSet, -⟩ := hset idx text result
      refine ⟨haddress.trans haddressSet, hmutators.trans hmutatorsSet, fun name hname => ?_⟩
      rw [hrules name fun i hi => hname i (by omega),
        hlookup idx text result name (hname idx le_rfl)]

/-- What the hashes of a server hold behind its last heartbeat. -/
structure Holds (basic hash old : Hash) (gamename : Bytes) (record : ServerRecord) : Prop where
  port : basic (ascii "wan_port") = some (cString (printNat record.address.port.toNat))
  mutators : basic (ascii "mutators") = some (cString (getMutatorsString record.mutators))
  custKeys : hash = hmset old (custKeysPairs gamename record)

variable {s : Store} {old : Hash} {serverKey gamename : Bytes} {record : ServerRecord}

/-- The texts of a record that are read by a field or written to it behind its last heartbeat. -/
theorem Holds.written {basic hash : Hash} (h : Holds basic hash old gamename record)
    {pair : Bytes × Bytes}
    (hpair : pair ∈ fixedKeys gamename record ++ record.rules ++ filterVariables record) :
    (hash (cString pair.1)).isSome := by
  rw [h.custKeys]
  refine hmset_isSome.mpr (.inl ⟨cString pair.2, ?_⟩)
  exact List.mem_map.mpr ⟨pair, hpair, rfl⟩

/-- The port and the mutators of the first reply. -/
theorem load_basic_spec (id gameid ip : Option Bytes) (port mutators : Bytes)
    (result : ServerRecord) :
    let loaded := loadBasicServerInfo 0 [id, gameid, some port, ip, some mutators] result
    loaded.address.port = htons (.ofInt (atoi port)) ∧
      loaded.mutators = keyStringToVector (cString mutators) (char '\\') := by
  cases id <;> cases gameid <;> cases ip <;> exact ⟨rfl, rfl⟩

theorem load_basic_rules (idx : Nat) (reply : List (Option Bytes)) (result : ServerRecord) :
    (loadBasicServerInfo idx reply result).rules = result.rules := by
  fun_induction loadBasicServerInfo idx reply result with
  | case1 => rfl
  | case2 idx reply result ih => exact ih
  | case3 idx text reply result ih =>
      rw [ih]
      unfold setBasic
      split <;> rfl

/-- The address and the mutators that a listing loads. -/
theorem load_server_basic
    (h : Holds (s.servers serverKey) (s.custKeys serverKey) old gamename record)
    (undef : Bytes → Undef) (filters : List FilterProperties) :
    (s.loadServer undef filters serverKey).address.port = htons record.address.port ∧
      (s.loadServer undef filters serverKey).mutators = loadedMutators record := by
  unfold Store.loadServer
  extract_lets fields basic custom
  obtain ⟨filed, hfiled, -⟩ := load_filter_keys_spec (s.custKeys serverKey) fields custom
  obtain ⟨haddress, hmutators, -⟩ := load_custom_keys_frame (lookupKeys serverKey) 0
    (hmget (s.custKeys serverKey) custLookupKeys) basic
  have hreply : hmget (s.servers serverKey) basicLookupKeys =
      [s.servers serverKey (ascii "id"), s.servers serverKey (ascii "gameid"),
        some (cString (printNat record.address.port.toNat)), s.servers serverKey (ascii "wan_ip"),
        some (cString (getMutatorsString record.mutators))] := by
    rw [← h.port, ← h.mutators]
    rfl
  have hbasic : basic.address.port = htons record.address.port ∧
      basic.mutators = loadedMutators record := by
    have hloaded : basic = loadBasicServerInfo 0 _ (undef serverKey).record :=
      congrArg (loadBasicServerInfo 0 · (undef serverKey).record) hreply
    obtain ⟨hport, hmutators⟩ := load_basic_spec (s.servers serverKey (ascii "id"))
      (s.servers serverKey (ascii "gameid")) (s.servers serverKey (ascii "wan_ip"))
      (cString (printNat record.address.port.toNat))
      (cString (getMutatorsString record.mutators)) (undef serverKey).record
    rw [hloaded, hport, port_stored, hmutators, c_string_c_string]
    exact ⟨rfl, rfl⟩
  rw [hfiled]
  exact ⟨(congrArg Address.port haddress).trans hbasic.1, hmutators.trans hbasic.2⟩

/-- The names of the second reply, from the third argument on. -/
theorem lookup_keys_mem (serverKey : Bytes) {i : Nat} (h : 2 ≤ i) :
    (lookupKeys serverKey).getD i [] ∈ [] :: custLookupKeys := by
  obtain ⟨j, rfl⟩ := Nat.exists_eq_add_of_le' h
  show custLookupKeys.getD j [] ∈ [] :: custLookupKeys
  rw [List.getD_eq_getElem?_getD]
  cases hget : custLookupKeys[j]? with
  | none => exact List.mem_cons_self
  | some name => exact List.mem_cons_of_mem _ (List.mem_of_getElem? hget)

/-- The rule that a listing loads for an item, which is not stored only if it is about a mutator. -/
theorem load_server_rule
    (h : Holds (s.servers serverKey) (s.custKeys serverKey) old gamename record)
    (undef : Bytes → Undef) {filters : List FilterProperties} {item : FilterProperties}
    (hitem : item ∈ filters)
    (hnone : 0 ∉ item.field → s.custKeys serverKey item.field = none →
      item.field = ascii "mutator") :
    (s.loadServer undef filters serverKey).rules.lookup item.field =
      if 0 ∈ item.field then none else (s.custKeys serverKey item.field).map cString := by
  unfold Store.loadServer
  extract_lets fields basic custom
  obtain ⟨filed, hfiled, hlookup⟩ := load_filter_keys_spec (s.custKeys serverKey) fields custom
  rw [hfiled]
  show filed.lookup item.field = _
  rw [hlookup]
  have hmissing : (∀ i ≥ 2, cString ((lookupKeys serverKey).getD i []) ≠ item.field) →
      item.field ≠ ascii "HMGET" → custom.rules.lookup item.field = none := by
    intro hnames hhmget
    have hpair : (ascii "hostname", record.hostname) ∈
        fixedKeys gamename record ++ record.rules ++ filterVariables record := by
      simp [fixedKeys]
    obtain ⟨host, hhost⟩ := Option.isSome_iff_exists.mp (h.written hpair)
    -- behind the hostname the loop goes on at the index 2
    have hcustom : custom = loadServerCustomKeys (lookupKeys serverKey) 2
        (hmget (s.custKeys serverKey) (custLookupKeys.drop 2))
        (setCustom (lookupKeys serverKey) 0 host basic) := by
      have hreply : hmget (s.custKeys serverKey) custLookupKeys =
          some host :: s.custKeys serverKey (cString (ascii "mapname")) ::
            hmget (s.custKeys serverKey) (custLookupKeys.drop 2) := by
        rw [← hhost]
        rfl
      exact congrArg (loadServerCustomKeys (lookupKeys serverKey) 0 · basic) hreply
    rw [hcustom, (load_custom_keys_frame _ _ _ _).2.2 _ hnames]
    have hrules : (setCustom (lookupKeys serverKey) 0 host basic).rules =
        setRule (ascii "HMGET") (cString host) basic.rules := rfl
    rw [hrules, lookup_set_rule, if_neg hhmget]
    exact congrArg (List.lookup item.field) (load_basic_rules _ _ _)
  by_cases hnul : 0 ∈ item.field
  · rw [if_pos hnul, if_neg, hmissing]
    · exact fun i _ heq => zero_not_mem_c_string _ (heq ▸ hnul)
    · intro heq
      rw [heq] at hnul
      exact absurd hnul (by decide)
    · rintro ⟨⟨field, -, hfield⟩, -⟩
      exact zero_not_mem_c_string field (hfield ▸ hnul)
  · have hfield : ∃ field ∈ fields, cString field = item.field :=
      ⟨item.field, List.mem_map_of_mem hitem, c_string_eq_self hnul⟩
    rw [if_neg hnul]
    cases hstored : s.custKeys serverKey item.field with
    | some text => simp [hfield]
    | none =>
        have hmutator := hnone hnul hstored
        rw [if_neg (by simp), hmissing]
        · rfl
        · intro i hi heq
          have hnames : ∀ name ∈ [] :: custLookupKeys, cString name ≠ ascii "mutator" := by decide
          exact hnames _ (lookup_keys_mem serverKey hi) (heq.trans hmutator)
        · rw [hmutator]
          decide

/-- `stricmp` finds no difference between equal texts. -/
theorem same_text_iff (a b : Bytes) : sameText a b = true ↔ EqualText a b := by
  rw [sameText, beq_iff_eq, ← List.forall₂_eq_eq_eq, List.forall₂_map_left_iff,
    List.forall₂_map_right_iff]
  simp only [to_lower_eq_iff]
  exact Iff.rfl

theorem equal_text_comm {a b : Bytes} : EqualText a b ↔ EqualText b a := by
  rw [← same_text_iff, ← same_text_iff, sameText, sameText, beq_iff_eq, beq_iff_eq, eq_comm]

/-- A C string compares like the text it stands in. -/
theorem compares_c_string (type : EQueryType) (text wanted : Bytes) :
    type.Compares (cString text) wanted ↔ type.Compares text wanted := by
  have hatoi : atoi (cString text) = atoi text := by rw [atoi, atoi, c_string_c_string]
  have hequal : EqualText (cString text) wanted ↔ EqualText text wanted := by
    rw [← same_text_iff, ← same_text_iff, sameText, sameText, c_string_c_string]
  cases type <;> simp only [EQueryType.Compares, hatoi, hequal]

/-- The comparison of two texts, or of the numbers in them. -/
theorem compare_property_holds_iff (type : EQueryType) (wanted text : Bytes) :
    type.holds (compareProperty type wanted text) = true ↔ type.Compares text wanted := by
  cases type with
  | equals | notEquals =>
      rw [EQueryType.Compares, equal_text_comm, ← same_text_iff]
      by_cases h : sameText wanted text <;> simp [EQueryType.holds, compareProperty, h]
  | lessThan | lessThanEquals | greaterThan | greaterThanEquals =>
      simp only [EQueryType.Compares, EQueryType.holds, compareProperty]
      grind
  | disabled => simp [EQueryType.Compares, EQueryType.holds]

/-- The comparison that only tells whether there is a difference. -/
theorem difference_holds_iff (type : EQueryType) (differs : Prop) [Decidable differs] :
    type.holds (if differs then 1 else 0) = true ↔ type.PassesDifference differs := by
  by_cases h : differs <;> cases type <;> simp [EQueryType.holds, EQueryType.PassesDifference, h]

/-- What a stored text is tested for. -/
theorem filter_property_matches_iff {loaded : ServerRecord} {item : FilterProperties} {text : Bytes}
    (hrule : loaded.rules.lookup item.field = some text) :
    filterPropertyMatches loaded item = true ↔
      if EqualText item.field (ascii "mutator") then
        item.type.PassesDifference (item.property ∉ loaded.mutators)
      else if EqualText item.field (ascii "nomutators") then
        item.type.PassesDifference (loaded.mutators = [])
      else item.type.Compares text item.property := by
  have hmutator : (if item.property ∈ loaded.mutators then (0 : Int) else 1) =
      if item.property ∉ loaded.mutators then 1 else 0 := by
    simp
  unfold filterPropertyMatches
  rw [hrule]
  simp only [hmutator, same_text_iff]
  split
  · exact difference_holds_iff _ _
  · split
    · exact difference_holds_iff _ _
    · exact compare_property_holds_iff _ _ _

/-- The rules that are written to a hash, of which the last one of a name counts. -/
theorem last_rule_written (record : ServerRecord) (name : Bytes) :
    (cStrings record.rules).reverse.lookup name = (record.lastRule name).map cString := by
  rw [cStrings, ← List.map_reverse, ServerRecord.lastRule]
  induction record.rules.reverse with
  | nil => rfl
  | cons rule rules ih =>
      rw [List.map_cons, lookup_cons_ite, List.find?_cons, ih]
      by_cases hname : cString rule.1 = name
      · simp [hname]
      · simp [hname, Ne.symm hname]

/-- What is stored under a name that is none of those written for browsers. -/
theorem Holds.rule_stored {basic hash : Hash} (h : Holds basic hash old gamename record)
    {name : Bytes} (hname : name ∉ (filterVariables record).map Prod.fst) :
    hash name = ((record.lastRule name).map cString).or
      (hmset old (cStrings (fixedKeys gamename record)) name) := by
  have hnames : ∀ pair ∈ filterVariables record, cString pair.1 = pair.1 := by
    have hfixed : ∀ name ∈ (filterVariables record).map Prod.fst, cString name = name := by
      show ∀ name ∈ [ascii "currentplayers", ascii "category", ascii "freespace",
        ascii "nomutators", ascii "standard", ascii "nobots", ascii "transloc",
        ascii "weaponstay", ascii "stats", ascii "password"], cString name = name
      decide
    exact fun pair hpair => hfixed _ (List.mem_map_of_mem hpair)
  rw [h.custKeys, cust_keys_written, hmset_of_not_mem, hmset_apply, last_rule_written]
  intro value hmem
  obtain ⟨pair, hpair, heq⟩ := List.mem_map.mp hmem
  obtain ⟨rfl, -⟩ := Prod.mk.inj heq
  rw [hnames pair hpair] at hname
  exact hname (List.mem_map_of_mem hpair)

/-- What is written for browsers is stored. -/
theorem Holds.variable_stored {basic hash : Hash} (h : Holds basic hash old gamename record)
    {name value : Bytes} (hpair : (name, value) ∈ filterVariables record) :
    hash name = some (cString value) := by
  rw [h.custKeys, cust_keys_written]
  simp only [filterVariables, List.mem_cons, Prod.mk.injEq, List.not_mem_nil, or_false] at hpair
  rcases hpair with ⟨rfl, rfl⟩ | ⟨rfl, rfl⟩ | ⟨rfl, rfl⟩ | ⟨rfl, rfl⟩ | ⟨rfl, rfl⟩ | ⟨rfl, rfl⟩ |
    ⟨rfl, rfl⟩ | ⟨rfl, rfl⟩ | ⟨rfl, rfl⟩ | ⟨rfl, rfl⟩ <;> rfl

/-- What is written for browsers is what the server has reported. -/
theorem variable_reported {record : ServerRecord} {name value : Bytes}
    (hpair : (name, value) ∈ filterVariables record) :
    record.reported (.of name) = some value := by
  simp only [filterVariables, List.mem_cons, Prod.mk.injEq, List.not_mem_nil, or_false] at hpair
  rcases hpair with ⟨rfl, rfl⟩ | ⟨rfl, rfl⟩ | ⟨rfl, rfl⟩ | ⟨rfl, rfl⟩ | ⟨rfl, rfl⟩ | ⟨rfl, rfl⟩ |
    ⟨rfl, rfl⟩ | ⟨rfl, rfl⟩ | ⟨rfl, rfl⟩ | ⟨rfl, rfl⟩
  case inr.inr.inr.inl =>
      show some (if record.mutators = [] then _ else _) = _
      cases record.mutators <;> rfl
  case inr.inr.inr.inr.inr.inl =>
      show (match record.rules.lookup (ascii "MinPlayers") with
        | some minPlayers => some (if atoi minPlayers = 0 then ascii "true" else ascii "false")
        | none => some (ascii "true")) = _
      cases record.rules.lookup (ascii "MinPlayers") with
      | none => rfl
      | some minPlayers => by_cases hzero : atoi minPlayers = 0 <;> simp [hzero, boolText]
  all_goals rfl

/-- What is written for browsers is tested as a text that is reported, except for `nomutators`. -/
theorem variable_right {record : ServerRecord} {name value : Bytes}
    (hpair : (name, value) ∈ filterVariables record) :
    name = ascii "nomutators" ∨
      ¬ EqualText name (ascii "mutator") ∧ ¬ EqualText name (ascii "nomutators") ∧
        ∀ old item, (FilterField.of name).Right old record item := by
  simp only [filterVariables, List.mem_cons, Prod.mk.injEq, List.not_mem_nil, or_false] at hpair
  rcases hpair with ⟨rfl, -⟩ | ⟨rfl, -⟩ | ⟨rfl, -⟩ | ⟨rfl, -⟩ | ⟨rfl, -⟩ | ⟨rfl, -⟩ | ⟨rfl, -⟩ |
    ⟨rfl, -⟩ | ⟨rfl, -⟩ | ⟨rfl, -⟩
  case inr.inr.inr.inl => exact .inl rfl
  all_goals exact .inr ⟨by decide, by decide, fun _ _ => trivial⟩

/-- A name is written for browsers, or it is that of the game group, of a mutator or of a rule. -/
theorem field_cases (record : ServerRecord) (name : Bytes) :
    (∃ value, (name, value) ∈ filterVariables record) ∨
      name ∉ (filterVariables record).map Prod.fst ∧
        (name = ascii "gametype" ∨ name = ascii "mutator" ∨
          FilterField.of name = .rule name ∧ filterFields.lookup name = none) := by
  by_cases hname : name ∈ (filterVariables record).map Prod.fst
  · obtain ⟨⟨_, value⟩, hpair, rfl⟩ := List.mem_map.mp hname
    exact .inl ⟨value, hpair⟩
  · refine .inr ⟨hname, ?_⟩
    cases hlookup : filterFields.lookup name with
    | none => exact .inr (.inr ⟨by rw [FilterField.of, hlookup]; rfl, rfl⟩)
    | some field =>
        obtain ⟨before, after, hfields, -⟩ := List.lookup_eq_some_iff.mp hlookup
        have hmem : name ∈ filterFields.map Prod.fst := by simp [hfields]
        have hcases : ∀ other ∈ filterFields.map Prod.fst,
            other = ascii "gametype" ∨ other = ascii "mutator" ∨
              other ∈ [ascii "currentplayers", ascii "category", ascii "freespace",
                ascii "nomutators", ascii "standard", ascii "nobots", ascii "transloc",
                ascii "weaponstay", ascii "stats", ascii "password"] := by
          decide
        rcases hcases name hmem with hgametype | hmutator | hvariable
        · exact .inl hgametype
        · exact .inr (.inl hmutator)
        · exact absurd hvariable hname

/-- A rule that is reported is stored under its name. -/
theorem last_rule_of_reported {record : ServerRecord} {name : Bytes} (hnul : 0 ∉ name)
    (h : (record.rules.lookup name).isSome) : (record.lastRule name).isSome := by
  obtain ⟨value, hvalue⟩ := Option.isSome_iff_exists.mp h
  obtain ⟨before, after, hrules, -⟩ := List.lookup_eq_some_iff.mp hvalue
  rw [ServerRecord.lastRule, Option.isSome_map, List.find?_isSome]
  exact ⟨(name, value), by simp [hrules], by simp [c_string_eq_self hnul]⟩

section Decided

variable (h : Holds (s.servers serverKey) (s.custKeys serverKey) old gamename record)
  (undef : Bytes → Undef) {filters : List FilterProperties} {item : FilterProperties}
include h

/-- What a listing tests of an item whose text is stored. -/
theorem listing_tests (hitem : item ∈ filters) (hnul : 0 ∉ item.field) {text : Bytes}
    (hstored : s.custKeys serverKey item.field = some text) :
    filterPropertyMatches (s.loadServer undef filters serverKey) item = true ↔
      if EqualText item.field (ascii "mutator") then
        item.type.PassesDifference (item.property ∉ loadedMutators record)
      else if EqualText item.field (ascii "nomutators") then
        item.type.PassesDifference (loadedMutators record = [])
      else item.type.Compares text item.property := by
  have hrule := load_server_rule h undef hitem (by simp [hstored])
  rw [if_neg hnul, hstored, Option.map_some] at hrule
  rw [filter_property_matches_iff hrule, (load_server_basic h undef filters).2, compares_c_string]

/-- An item about what is written for browsers. -/
theorem variable_decided (hitem : item ∈ filters) (hnul : 0 ∉ item.field) {value : Bytes}
    (hpair : (item.field, value) ∈ filterVariables record) :
    (FilterField.of item.field).Right old record item ↔
      (filterPropertyMatches (s.loadServer undef filters serverKey) item = true ↔
        Satisfies record item) := by
  have hreported := variable_reported hpair
  have hmeets : Satisfies record item ↔ item.type.Compares value item.property := by
    have hkind : FilterField.of item.field ≠ .mutator := by
      intro heq
      rw [heq] at hreported
      cases hreported
    rw [Satisfies, if_neg hkind, hreported]
    simp
  rw [listing_tests h undef hitem hnul (h.variable_stored hpair), compares_c_string]
  rcases variable_right hpair with hnomutators | ⟨hmutator, hnomutators, hright⟩
  · rw [hnomutators, if_neg (by decide), if_pos (by decide)]
    exact Iff.rfl
  · rw [if_neg hmutator, if_neg hnomutators, hmeets]
    exact iff_of_true (hright old item) Iff.rfl

/-- An item about the game group. -/
theorem gametype_decided (hitem : item ∈ filters) (hnul : 0 ∉ item.field)
    (hname : item.field ∉ (filterVariables record).map Prod.fst)
    (hgametype : item.field = ascii "gametype") :
    (FilterField.of item.field).Right old record item ↔
      (filterPropertyMatches (s.loadServer undef filters serverKey) item = true ↔
        Satisfies record item) := by
  have hgroup : hmset old (cStrings (fixedKeys gamename record)) (ascii "gametype") =
      some (cString record.gameGroup) := rfl
  have htext : s.custKeys serverKey item.field =
      some (cString ((record.lastRule (ascii "gametype")).getD record.gameGroup)) := by
    rw [h.rule_stored hname, hgametype, hgroup]
    cases record.lastRule (ascii "gametype") <;> rfl
  rw [listing_tests h undef hitem hnul htext, compares_c_string, hgametype, if_neg (by decide),
    if_neg (by decide)]
  show TextRight record item (some _) ↔ _
  simp [TextRight]

/-- An item about a mutator. -/
theorem mutator_decided (hitem : item ∈ filters) (hnul : 0 ∉ item.field)
    (hname : item.field ∉ (filterVariables record).map Prod.fst)
    (hmutator : item.field = ascii "mutator") :
    (FilterField.of item.field).Right old record item ↔
      (filterPropertyMatches (s.loadServer undef filters serverKey) item = true ↔
        Satisfies record item) := by
  have hfixed : hmset old (cStrings (fixedKeys gamename record)) (ascii "mutator") =
      old (ascii "mutator") := rfl
  have hstored := h.rule_stored hname
  rw [hmutator, hfixed] at hstored
  have hdecides : ∀ text, s.custKeys serverKey item.field = some text →
      (MutatorRight record item ↔
        (filterPropertyMatches (s.loadServer undef filters serverKey) item = true ↔
          Satisfies record item)) := by
    intro text htext
    rw [listing_tests h undef hitem hnul htext, hmutator, if_pos (by decide), MutatorRight]
  have hof : FilterField.of item.field = .mutator := by
    rw [hmutator]
    rfl
  rw [hof, FilterField.Right]
  cases hlast : record.lastRule (ascii "mutator") with
  | some text =>
      rw [if_pos (.inr rfl)]
      exact hdecides (cString text) (by rw [hmutator, hstored, hlast]; rfl)
  | none =>
      rw [hlast] at hstored
      cases hold : old (ascii "mutator") with
      | some text =>
          rw [if_pos (.inl rfl)]
          exact hdecides text (by rw [hmutator, hstored, hold]; rfl)
      | none =>
          have hrule := load_server_rule h undef hitem fun _ _ => hmutator
          rw [if_neg hnul, hmutator, hstored, hold] at hrule
          rw [if_neg (by simp), filterPropertyMatches, hmutator, hrule]
          simp

/-- An item about a rule. -/
theorem rule_decided (hitem : item ∈ filters) (hnul : 0 ∉ item.field)
    (hname : item.field ∉ (filterVariables record).map Prod.fst)
    (hof : FilterField.of item.field = .rule item.field)
    (hreported : (record.rules.lookup item.field).isSome) :
    (FilterField.of item.field).Right old record item ↔
      (filterPropertyMatches (s.loadServer undef filters serverKey) item = true ↔
        Satisfies record item) := by
  obtain ⟨text, hlast⟩ := Option.isSome_iff_exists.mp (last_rule_of_reported hnul hreported)
  have htext : s.custKeys serverKey item.field = some (cString text) := by
    rw [h.rule_stored hname, hlast]
    rfl
  rw [listing_tests h undef hitem hnul htext, compares_c_string, hof, FilterField.Right, hlast]
  by_cases hmutator : EqualText item.field (ascii "mutator")
  · rw [if_pos hmutator, if_pos hmutator, MutatorRight]
  · by_cases hnomutators : EqualText item.field (ascii "nomutators")
    · rw [if_neg hmutator, if_neg hmutator, if_pos hnomutators, if_pos hnomutators,
        NoMutatorsRight]
    · rw [if_neg hmutator, if_neg hmutator, if_neg hnomutators, if_neg hnomutators]
      simp [TextRight]

/-- An item is decided right if the listing lets a server pass just if it meets the item. -/
theorem decided_right_iff (hitem : item ∈ filters) (hreports : record.Reports item) :
    DecidedRight old record item ↔
      (filterPropertyMatches (s.loadServer undef filters serverKey) item = true ↔
        Satisfies record item) := by
  by_cases hnul : 0 ∈ item.field
  · have hrule := load_server_rule h undef hitem fun hno => absurd hnul hno
    rw [if_pos hnul] at hrule
    simp [DecidedRight, filterPropertyMatches, hnul, hrule]
  · rw [DecidedRight, if_neg hnul]
    rcases field_cases record item.field with ⟨value, hpair⟩ | ⟨hname, hgametype | hmutator | hrule⟩
    · exact variable_decided h undef hitem hnul hpair
    · exact gametype_decided h undef hitem hnul hname hgametype
    · exact mutator_decided h undef hitem hnul hname hmutator
    · refine rule_decided h undef hitem hnul hname hrule.1 ?_
      simpa [ServerRecord.Reports, hrule.2] using hreports

end Decided

end Load

/-- When two predicates exclude something from the same lists. -/
theorem forall_iff_forall {α : Type} (l : List α) (p q : α → Prop) :
    ((∀ a ∈ l, p a) ↔ ∀ a ∈ l, q a) ↔
      (∃ a ∈ l, (p a ↔ q a) ∧ ¬ q a) ∨ (∀ a ∈ l, p a ↔ q a) ∨
        ((∃ a ∈ l, ¬ (p a ↔ q a) ∧ q a) ∧ ∃ a ∈ l, ¬ (p a ↔ q a) ∧ ¬ q a) := by
  grind

/-- The mutators of a heartbeat are the fields of that name. -/
theorem mutators_of_message (clientVersion : UInt32) (gameid : Int32) (ip : IPv4) (undef : Int32)
    (message : HeartbeatMessage) :
    (handleHeartbeat clientVersion gameid ip undef message).mutators =
      (message.fields.filter (·.1 = ascii "mutator")).map (·.2) := by
  have hloop : ∀ (fields : List (Bytes × Bytes)) (record : ServerRecord),
      (fields.foldl addField record).mutators =
      record.mutators ++ (fields.filter (·.1 = ascii "mutator")).map (·.2) := by
    intro fields
    induction fields with
    | nil => simp
    | cons field fields ih =>
        intro record
        rw [List.foldl_cons, ih, addField]
        by_cases hfield : field.1 = ascii "mutator"
        · simp [hfield]
        · simp [hfield]
  exact (hloop _ _).trans (List.nil_append _)

/-- The rules of a heartbeat are its other fields, of which the last of a name counts, and the
version of the client. -/
theorem rules_of_message (clientVersion : UInt32) (gameid : Int32) (ip : IPv4) (undef : Int32)
    (message : HeartbeatMessage) (name : Bytes) :
    (handleHeartbeat clientVersion gameid ip undef message).rules.lookup name =
      if name = ascii "ServerVersion" then some (printNat clientVersion.toNat)
      else if name = ascii "mutator" then none
      else message.fields.reverse.lookup name := by
  have hloop : ∀ (fields : List (Bytes × Bytes)) (record : ServerRecord),
      (fields.foldl addField record).rules.lookup name =
      (if name = ascii "mutator" then none else fields.reverse.lookup name).or
        (record.rules.lookup name) := by
    intro fields
    induction fields with
    | nil => simp
    | cons field fields ih =>
        intro record
        obtain ⟨key, value⟩ := field
        rw [List.foldl_cons, ih, addField, List.reverse_cons, List.lookup_append,
          lookup_cons_ite]
        by_cases hmutator : name = ascii "mutator"
        · by_cases hkey : key = ascii "mutator"
          · simp [hmutator, hkey]
          · simp [hmutator, hkey, Ne.symm hkey]
        · by_cases hkey : key = ascii "mutator"
          · simp [hmutator, hkey]
          · by_cases hname : name = key
            · cases fields.reverse.lookup name <;> simp [hmutator, ← hname]
            · cases fields.reverse.lookup name <;> simp [hmutator, hkey, hname]
  unfold handleHeartbeat
  rw [lookup_set_rule, hloop]
  simp

/-- After the last heartbeat of a server, whatever else is run, a listing returns it just if it
meets the filters of the request, where these are filtered right, and nowhere else. -/
theorem filtered_iff (s : Store) (request : HeartbeatRequest) (later : List Task)
    (hlast : AtEach Store.runTask (s.performHeartbeat request)
      (fun next task => next.Spares (s.serverKeyOf request) task) later)
    (undef : Bytes → Undef) (filters : List FilterProperties)
    (hreports : ∀ item ∈ filters, request.record.Reports item) :
    (((after Store.runTask (s.performHeartbeat request) later).listServer undef filters
          (s.serverKeyOf request)).isSome ↔
        ∀ item ∈ filters, Satisfies request.record item) ↔
      FilteredRight
        (s.custKeys (s.serverKeyOf request)) request.record filters := by
  obtain ⟨hservers, hcust⟩ := perform_heartbeat_hashes s request
  obtain ⟨hcustLast, hserversLast⟩ := run_spares hlast
  generalize after Store.runTask (s.performHeartbeat request) later = final
    at hcustLast hserversLast ⊢
  generalize s.serverKeyOf request = serverKey at *
  have h : Holds (final.servers serverKey) (final.custKeys serverKey) (s.custKeys serverKey)
      request.gamename request.record := by
    refine ⟨?_, ?_, hcustLast.trans hcust⟩
    · rw [hserversLast _ (by decide), hservers]
      rfl
    · rw [hserversLast _ (by decide), hservers]
      rfl
  have hlisted : (final.listServer undef filters serverKey).isSome ↔
      request.record.address.port ≠ 0 ∧
        ∀ item ∈ filters,
          filterPropertyMatches (final.loadServer undef filters serverKey) item = true := by
    have hport : (final.loadServer undef filters serverKey).address.port = 0 ↔
        request.record.address.port = 0 := by
      rw [(load_server_basic h undef filters).1, htons_eq_zero]
    unfold Store.listServer
    by_cases hzero : request.record.address.port = 0
    · simp [hport.mpr hzero, hzero]
    · simp [hport, hzero, filterMatches]
  rw [hlisted, FilteredRight]
  by_cases hzero : request.record.address.port = 0
  · simp [hzero]
  · rw [if_neg hzero, and_iff_right hzero, forall_iff_forall]
    have hright : ∀ item ∈ filters, DecidedRight (s.custKeys serverKey) request.record item ↔
        (filterPropertyMatches (final.loadServer undef filters serverKey) item = true ↔
          Satisfies request.record item) := fun item hitem =>
      decided_right_iff h undef hitem (hreports item hitem)
    refine or_congr (exists_congr fun item => and_congr_right fun hitem => ?_)
      (or_congr (forall₂_congr fun item hitem => (hright item hitem).symm)
        (and_congr (exists_congr fun item => and_congr_right fun hitem => ?_)
          (exists_congr fun item => and_congr_right fun hitem => ?_)))
    · rw [hright item hitem]
    · rw [hright item hitem]
    · rw [hright item hitem]

/-- A server is filtered by its game group and its players, also when it has been deleted. -/
theorem host_filtered :
    ((after Store.runTask (Store.empty.performHeartbeat ⟨0, ascii "ut2004", hostRecord⟩)
          [.deleteServer hostAddress]).listServer sixteenPlayers
          [⟨ascii "gametype", ascii "xdeathmatch", .equals⟩,
            ⟨ascii "currentplayers", ascii "4", .lessThan⟩]
          (Store.empty.serverKeyOf ⟨0, ascii "ut2004", hostRecord⟩)).isSome ↔
      ∀ item ∈ [⟨ascii "gametype", ascii "xdeathmatch", .equals⟩,
          ⟨ascii "currentplayers", ascii "4", .lessThan⟩],
        Satisfies hostRecord item :=
  (filtered_iff .empty ⟨0, ascii "ut2004", hostRecord⟩ [.deleteServer hostAddress] (by decide)
    sixteenPlayers _ (by decide)).mpr (by decide)

/-- A server without mutators is listed for a filter on one. -/
theorem mutator_not_filtered :
    ¬ ∀ (s : Store) (request : HeartbeatRequest) (later : List Task),
      AtEach Store.runTask (s.performHeartbeat request)
        (fun next task => next.Spares (s.serverKeyOf request) task) later →
      ∀ (undef : Bytes → Undef) (filters : List FilterProperties),
        (∀ item ∈ filters, request.record.Reports item) →
        (((after Store.runTask (s.performHeartbeat request) later).listServer undef filters
            (s.serverKeyOf request)).isSome ↔
          ∀ item ∈ filters, Satisfies request.record item) := by
  intro h
  have hlisted := h .empty ⟨0, ascii "ut2004", hostRecord⟩ [] at_each_nil sixteenPlayers
    [⟨ascii "mutator", ascii "MutInstaGib", .equals⟩] (by decide)
  exact absurd (hlisted.mp rfl) (by decide)

end OpenSpy.UTMaster
