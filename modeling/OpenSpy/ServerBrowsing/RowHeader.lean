import OpenSpy.ServerBrowsing.ListReader

/-!
# What a row says of its server

The flags, addresses and ports of a row come from the basic fields of the server and from the
custom keys `localip0`, `localport` and `natneg`, of which `sendServerData` tests whether they
are there. A filter and a field list enter the names that they mention into the fields, so the
row can say more than the record does. `row_depends_on_server_iff` says when it does not.
-/

namespace OpenSpy.ServerBrowsing

open Bytes Redis

/-- The request mentions the name, in its field list or as a variable of its filter. -/
def Names (req : ListRequest) (name : Bytes) : Prop :=
  name ∈ req.fieldList ∨ .var name ∈ (filterToTokenList req.filter).getD []

instance (req : ListRequest) (name : Bytes) : Decidable (Names req name) :=
  inferInstanceAs (Decidable (_ ∨ _))

/-- The record stores the custom key. -/
def Stores (record : ServerRecord) (name : Bytes) : Prop :=
  (record.custkeys name).isSome

instance (record : ServerRecord) (name : Bytes) : Decidable (Stores record name) :=
  inferInstanceAs (Decidable (_ = true))

/-- The flags, addresses and ports of the row that a request gets for a server, if it gets
one. -/
def listRow (redis : Bytes → ServerRecord) (undef : Bytes → Bool) (req : ListRequest)
    (serverKey : Bytes) : Option RowHeader :=
  (matchingEntry redis undef req.toReq 2 serverKey).bind fun server =>
    if server.wanIp = inaddrNone then none
    else some (rowHeader req req.forGame false (touchFields req.fieldList server))

/-- The fields behind a row, at the names that `sendServerData` reads. -/
def rowFields (record : ServerRecord) (req : ListRequest) : Fields := fun name =>
  ((record.custkeys name).map cString).or (if Names req name then some [] else none)

/-- The names that are entered into a map get an empty text if they are new. -/
theorem foldl_touch (names : List Bytes) (kvList : Fields) (name : Bytes) :
    names.foldl Fields.touch kvList name =
      (kvList name).or (if name ∈ names then some [] else none) := by
  induction names generalizing kvList with
  | nil => simp
  | cons other names ih =>
      rw [List.foldl_cons, ih]
      by_cases heq : name = other
      · cases hname : kvList name <;> simp [← heq, Fields.touch, Fields.read, hname]
      · simp [heq, Fields.touch]

/-- The variables of a list of tokens. -/
theorem mem_variables {tokens : List CToken} {name : Bytes} :
    name ∈ tokens.filterMap variableName ↔ .var name ∈ tokens := by
  rw [List.mem_filterMap]
  constructor
  · intro h
    obtain ⟨token, htoken, hvariable⟩ := h
    cases token with
    | var other => exact Option.some.inj hvariable ▸ htoken
    | _ => cases hvariable
  · intro h
    exact ⟨.var name, h, rfl⟩

/-- An evaluation that comes to its end enters the variables into the fields. -/
theorem eval_tokens_fields {tokens stack result : List CToken} {kvList kvList' : Fields}
    (h : tokens.foldlM evalToken (stack, kvList) = some (result, kvList')) :
    kvList' = ((tokens.filterMap variableName).map cString).foldl Fields.touch kvList := by
  induction tokens generalizing stack kvList with
  | nil => exact (congrArg Prod.snd (Option.some.inj h)).symm
  | cons token tokens ih =>
      rw [List.foldlM_cons] at h
      obtain ⟨⟨stack', kvList''⟩, hstep, hrest⟩ := Option.bind_eq_some_iff.mp h
      rw [ih hrest]
      cases token with
      | var name =>
          obtain ⟨-, rfl⟩ := Prod.mk.inj (Option.some.inj hstep)
          rfl
      | operator type =>
          obtain ⟨_, _, heq⟩ := Option.map_eq_some_iff.mp hstep
          obtain ⟨-, rfl⟩ := Prod.mk.inj heq
          rfl
      | none | integer | string | leftBracket | rightBracket =>
          obtain ⟨-, rfl⟩ := Prod.mk.inj (Option.some.inj hstep)
          rfl

/-- So does a filter with an answer. -/
theorem filter_matches_fields {tokens : List CToken} {kvList kvList' : Fields} {isMatch : Bool}
    (h : filterMatches tokens kvList = some (isMatch, kvList')) :
    kvList' = ((tokens.filterMap variableName).map cString).foldl Fields.touch kvList := by
  unfold filterMatches at h
  split_ifs at h with hempty
  · rw [hempty]
    exact (congrArg Prod.snd (Option.some.inj h)).symm
  · obtain ⟨⟨stack, kvFields⟩, hrun, heq⟩ := Option.map_eq_some_iff.mp h
    obtain ⟨-, rfl⟩ := Prod.mk.inj heq
    exact eval_tokens_fields hrun

/-- A row only depends on the basic fields and the three custom keys. -/
theorem row_header_congr {req : ListRequest} {game : Game} {push : Bool} {basic : Server}
    {kvFields kvFields' : Fields}
    (h : ∀ name ∈ injectedCustomKeys, kvFields name = kvFields' name) :
    rowHeader req game push { basic with kvFields := kvFields } =
      rowHeader req game push { basic with kvFields := kvFields' } := by
  simp only [injectedCustomKeys, List.forall_mem_cons] at h
  obtain ⟨hlocalport, hlocalip, hnatneg, -⟩ := h
  simp only [rowHeader, hlocalport, hlocalip, hnatneg]

section Row

variable {redis : Bytes → ServerRecord} {undef : Bytes → Bool} {req : ListRequest}
  {serverKey : Bytes}

/-- A server is loaded with the custom keys that a row reads. -/
theorem loaded_row_fields {record : ServerRecord} {basic : Server}
    (hbasic : loadBasicServerInfo (hmget record.basic basicLookupKeys) = some basic)
    {name : Bytes} (hname : name ∈ injectedCustomKeys) :
    (setKey (loadCustomServerInfo basic (buildServerListRequestData req.toReq 2).2.1
      (hmget record.custkeys (buildServerListRequestData req.toReq 2).2.1)) serverKey).kvFields
        name = (record.custkeys name).map cString := by
  have hplain : ∀ name ∈ injectedCustomKeys,
      cString name = name ∧ name ≠ ascii "backend_id" ∧ name ≠ ascii "country" := by
    decide
  obtain ⟨hcString, hbackend, hcountry⟩ := hplain name hname
  rw [set_key_kv_fields hbasic rfl
    (lookup_pairs_iff (List.mem_append_right _ hname) hcString), if_neg hbackend, if_neg hcountry,
    Option.or_none]

/-- A filter with an answer enters its variables into the fields. -/
theorem filter_answer_fields {filter : Bytes} {tokens : List CToken} {kvFields : Fields}
    {value : Bytes → Bytes} (htokens : filterToTokenList filter = some tokens)
    (hvalue : ∀ name, .var name ∈ tokens → kvFields.read name = value name)
    (hverdict : (filterVerdict tokens value).isSome) (undef : Bool) :
    (filterAnswer undef (some tokens) kvFields).2 =
      (tokens.filterMap variableName).foldl Fields.touch kvFields := by
  have hmap : (tokens.filterMap variableName).map cString = tokens.filterMap variableName := by
    rw [List.map_congr_left (g := id), List.map_id]
    intro name hname
    exact variable_c_string htokens (mem_variables.mp hname)
  have hmatches : (filterMatches tokens kvFields).isSome := by
    rw [← Option.isSome_map (f := Prod.fst), filter_matches_eq,
      filter_verdict_congr fun name hname => ?_]
    · exact hverdict
    · rw [variable_c_string htokens hname]
      exact hvalue name hname
  obtain ⟨⟨isMatch, kvFields'⟩, hmatches⟩ := Option.isSome_iff_exists.mp hmatches
  show ((filterMatches tokens kvFields).getD (undef, kvFields)).2 = _
  rw [hmatches, ← hmap]
  exact filter_matches_fields hmatches

/-- The row of a server, when the filter of the request has an answer. -/
theorem list_row_eq {row : RowHeader} (hrow : listRow redis undef req serverKey = some row)
    (hanswer : (recordAnswer req.filter (redis serverKey) serverKey).isSome) :
    ∃ basic, loadBasicServerInfo (hmget (redis serverKey).basic basicLookupKeys) = some basic ∧
      row = rowHeader req req.forGame false
        { basic with kvFields := rowFields (redis serverKey) req } := by
  obtain ⟨server, hentry, hheader⟩ := Option.bind_eq_some_iff.mp hrow
  obtain ⟨answer, hanswer⟩ := Option.isSome_iff_exists.mp hanswer
  obtain ⟨tokens, htokens, hverdict⟩ := Option.bind_eq_some_iff.mp hanswer
  obtain ⟨basic, hbasic, hmatch⟩ := Option.bind_eq_some_iff.mp hentry
  set loaded := setKey (loadCustomServerInfo basic (buildServerListRequestData req.toReq 2).2.1
    (hmget (redis serverKey).custkeys (buildServerListRequestData req.toReq 2).2.1)) serverKey
  have htouched : (filterAnswer (undef serverKey) (filterToTokenList req.filter)
      loaded.kvFields).2 = (tokens.filterMap variableName).foldl Fields.touch loaded.kvFields := by
    rw [htokens]
    have hvalue : ∀ name, .var name ∈ tokens →
        loaded.kvFields.read name = (redis serverKey).field serverKey name := fun name hname =>
      load_custom_server_info_read hbasic (variable_looked_up htokens hname 2)
        (variable_c_string htokens hname)
    exact filter_answer_fields htokens hvalue (by simp [hverdict]) _
  have hserver : server.wanIp = basic.wanIp ∧ rowHeader req req.forGame false
      (touchFields req.fieldList server) = rowHeader req req.forGame false
        { basic with
          kvFields := req.fieldList.foldl Fields.touch
            ((tokens.filterMap variableName).foldl Fields.touch loaded.kvFields) } := by
    obtain ⟨-, hserver⟩ := Option.ite_none_right_eq_some.mp hmatch
    rw [← Option.some.inj hserver, ← htouched]
    exact ⟨rfl, rfl⟩
  obtain ⟨-, hheader⟩ := Option.ite_none_left_eq_some.mp hheader
  refine ⟨basic, hbasic, ?_⟩
  rw [← Option.some.inj hheader, hserver.2]
  refine row_header_congr fun name hname => ?_
  have hnames : Names req name ↔ name ∈ tokens.filterMap variableName ∨ name ∈ req.fieldList := by
    rw [Names, htokens, Option.getD_some, mem_variables, or_comm]
  rw [foldl_touch, foldl_touch, loaded_row_fields hbasic hname, Option.or_assoc, rowFields]
  congr 1
  by_cases hvariable : name ∈ tokens.filterMap variableName <;>
    simp [hnames, hvariable]

end Row

/-- The request with another field list and another filter. -/
def ListRequest.asking (req : ListRequest) (fieldList : List Bytes) (filter : Bytes) :
    ListRequest :=
  { req with fieldList := fieldList, filter := filter }

section Fields

variable {record : ServerRecord} {req other : ListRequest} {name : Bytes}

/-- A key that is stored is the same for every request. -/
theorem row_fields_stored (h : Stores record name) (req other : ListRequest) :
    rowFields record req name = rowFields record other name := by
  obtain ⟨text, htext⟩ := Option.isSome_iff_exists.mp h
  simp [rowFields, htext]

/-- A key that is not stored is there, without a text, if the request mentions it. -/
theorem row_fields_not_stored (h : ¬Stores record name) :
    rowFields record req name = if Names req name then some [] else none := by
  have hnone : record.custkeys name = none := by
    simpa [Stores] using h
  simp [rowFields, hnone]

/-- Mentioning `natneg` makes no difference. -/
theorem row_fields_natneg (record : ServerRecord) (req other : ListRequest) (name : Bytes) :
    (rowFields record req name).elim 0 atoi = (rowFields record other name).elim 0 atoi := by
  by_cases hstored : Stores record name
  · rw [row_fields_stored hstored req other]
  · have hzero (req : ListRequest) : (rowFields record req name).elim 0 atoi = 0 := by
      rw [row_fields_not_stored hstored]
      split <;> rfl
    rw [hzero, hzero]

/-- The private address is that of the record if the key is stored or not mentioned. -/
theorem row_fields_ip_iff :
    ((rowFields record req name).isSome = (rowFields record other name).isSome ∧
        (rowFields record req name).elim noAddress inetAddr =
          (rowFields record other name).elim noAddress inetAddr ∧
        ((rowFields record req name).isSome ↔ Stores record name)) ↔
      Stores record name ∨ ¬Names req name ∧ ¬Names other name := by
  by_cases hstored : Stores record name
  · have hsome : (rowFields record other name).isSome := by
      obtain ⟨text, htext⟩ := Option.isSome_iff_exists.mp hstored
      simp [rowFields, htext]
    simp [row_fields_stored hstored req other, hstored, hsome]
  · rw [row_fields_not_stored hstored, row_fields_not_stored hstored]
    by_cases hreq : Names req name <;> by_cases hother : Names other name <;>
      simp [hstored, hreq, hother]

/-- The private port is that of the record if the key is stored, or the port of the game is 0,
or both requests mention the key, or none. -/
theorem row_fields_port_iff (queryport : Int) :
    ((((rowFields record req name).map atoi).any (queryport ≠ ·) =
          ((rowFields record other name).map atoi).any (queryport ≠ ·)) ∧
        (if ((rowFields record req name).map atoi).any (queryport ≠ ·) then
            UInt16.ofInt (((rowFields record req name).map atoi).getD 0) else 0) =
          if ((rowFields record other name).map atoi).any (queryport ≠ ·) then
            UInt16.ofInt (((rowFields record other name).map atoi).getD 0) else 0) ↔
      Stores record name ∨ queryport = 0 ∨ (Names req name ↔ Names other name) := by
  by_cases hstored : Stores record name
  · simp [row_fields_stored hstored req other, hstored]
  · have hzero : atoi [] = 0 ∧ UInt16.ofInt 0 = 0 := ⟨rfl, rfl⟩
    rw [row_fields_not_stored hstored, row_fields_not_stored hstored]
    by_cases hreq : Names req name <;> by_cases hother : Names other name <;>
      simp [hstored, hreq, hother, hzero]

end Fields

/-- Two requests that differ in field list and filter and both get a row for a server: exactly
when its flags, addresses and ports are the same and it has `PRIVATE_IP_FLAG` just if the record
stores `localip0`. -/
theorem row_depends_on_server_iff (redis : Bytes → ServerRecord) (undef : Bytes → Bool)
    (req : ListRequest) (fieldList : List Bytes) (filter serverKey : Bytes)
    {row otherRow : RowHeader} (hrow : listRow redis undef req serverKey = some row)
    (hother : listRow redis undef (req.asking fieldList filter) serverKey = some otherRow)
    (hanswer : (recordAnswer req.filter (redis serverKey) serverKey).isSome)
    (hotherAnswer : (recordAnswer filter (redis serverKey) serverKey).isSome) :
    (row = otherRow ∧ (row.flags.privateIp ↔ Stores (redis serverKey) (ascii "localip0"))) ↔
      (Stores (redis serverKey) (ascii "localip0") ∨
        ¬Names req (ascii "localip0") ∧
          ¬Names (req.asking fieldList filter) (ascii "localip0")) ∧
      (Stores (redis serverKey) (ascii "localport") ∨ req.forGame.queryport = 0 ∨
        (Names req (ascii "localport") ↔
          Names (req.asking fieldList filter) (ascii "localport"))) := by
  obtain ⟨basic, hbasic, rfl⟩ := list_row_eq hrow hanswer
  obtain ⟨otherBasic, hotherBasic, rfl⟩ := list_row_eq hother hotherAnswer
  obtain rfl : basic = otherBasic := Option.some.inj (hbasic.symm.trans hotherBasic)
  rw [← row_fields_ip_iff, ← row_fields_port_iff req.forGame.queryport]
  have hnatneg := row_fields_natneg (redis serverKey) req (req.asking fieldList filter)
    (ascii "natneg")
  have hgame : (req.asking fieldList filter).forGame = req.forGame := rfl
  have hsend : (req.asking fieldList filter).sendFieldsForAll = req.sendFieldsForAll ∧
      (req.asking fieldList filter).sendGroups = req.sendGroups := ⟨rfl, rfl⟩
  simp only [rowHeader, RowHeader.mk.injEq, RowFlags.mk.injEq, hnatneg, hgame, hsend, true_and,
    and_true]
  -- the parts of the row, and the same parts by the two keys
  constructor
  · rintro ⟨⟨⟨hflag, hportFlag⟩, hip, hport⟩, hstored⟩
    exact ⟨⟨hflag, hip, hstored⟩, hportFlag, hport⟩
  · rintro ⟨⟨hflag, hip, hstored⟩, hportFlag, hport⟩
    exact ⟨⟨⟨hflag, hportFlag⟩, hip, hport⟩, hstored⟩

/-- The row of `oneServer` for a request that does not mention a local address. -/
def oneRow : RowHeader where
  flags := ⟨false, false, false, false, true, false, true, false⟩
  wanIp := ⟨10, 0, 0, 1⟩
  wanPort := 0
  privateIp := noAddress
  privatePort := 0
  icmpIp := noAddress

/-- A request for the host name instead of the players has the same row. -/
theorem host_row_agrees :
    oneRow = oneRow ∧ (oneRow.flags.privateIp ↔ Stores oneServer (ascii "localip0")) :=
  (row_depends_on_server_iff (fun _ => oneServer) (fun _ => true) playersRequest
    [ascii "host"] (ascii "players>0") (ascii "a")
    (by decide +kernel) (by decide +kernel) (by decide +kernel) (by decide +kernel)).mpr
    (by decide +kernel)

/-- A request for `localip0` gets a private address that the record does not store. -/
theorem localip_row_differs :
    (listRow (fun _ => oneServer) (fun _ => true) playersRequest (ascii "a")).map
        (·.flags.privateIp) = some false ∧
      (listRow (fun _ => oneServer) (fun _ => true)
        (playersRequest.asking [ascii "localip0"] []) (ascii "a")).map
          (fun row => (row.flags.privateIp, row.privateIp)) = some (true, inaddrNone) ∧
      ¬Stores oneServer (ascii "localip0") := by
  refine ⟨by decide +kernel, by decide +kernel, by decide⟩

end OpenSpy.ServerBrowsing
