import OpenSpy.Library.Codec
import OpenSpy.ServerBrowsing.ListRow

/-!
# Reading a list back

`readList` follows the format of a list: the address and the port of the client, the fields, the
popular values, then rows up to the byte 0 with the address 255.255.255.255. `list_read_back`
says that it recovers from the batches of a scan every server that gets a row.
-/

namespace OpenSpy.ServerBrowsing

open Bytes Codec

/-- The flags of a byte. -/
def RowFlags.ofByte (byte : UInt8) : RowFlags where
  unsolicitedUdp := byte &&& 1 ≠ 0
  privateIp := byte &&& 2 ≠ 0
  connectNegotiate := byte &&& 4 ≠ 0
  icmpIp := byte &&& 8 ≠ 0
  nonstandardPort := byte &&& 16 ≠ 0
  nonstandardPrivatePort := byte &&& 32 ≠ 0
  hasKeys := byte &&& 64 ≠ 0
  hasFullRules := byte &&& 128 ≠ 0

/-- The reader of an address. -/
def readIp : Reader UInt8 IPv4 :=
  (Reader.times .item 4).bind fun
    | [a, b, c, d] => .pure ⟨a, b, c, d⟩
    | _ => fun _ => none

/-- The reader of a 16-bit number in network order. -/
def readShort : Reader UInt8 UInt16 :=
  Reader.item.bind fun high => Reader.item.map fun low => .ofNat (high.toNat * 256 + low.toNat)

/-- `Buffer::ReadNTS`. -/
def readNTS : Reader UInt8 Bytes :=
  .before 0

/-- The reader of a part that is there only if a flag is set. -/
def readIf {α : Type*} (flag : Bool) (r : Reader UInt8 α) : Reader UInt8 (Option α) :=
  if flag then r.map some else .pure none

/-- The head of a list. -/
structure ListHead where
  address : IPv4
  port : UInt16
  fields : List (UInt8 × Bytes)
  popularValues : List Bytes
  deriving DecidableEq, Repr

/-- A server that was read, with the values of the fields if its row has them. -/
structure ListEntry where
  wanIp : IPv4
  wanPort : UInt16
  values : Option (List Bytes)
  deriving DecidableEq, Repr

/-- The reader of a list that is preceded by its length. -/
def readCounted {α : Type*} (r : Reader UInt8 α) : Reader UInt8 (List α) :=
  Reader.item.bind fun count => r.times count.toNat

/-- The reader of the head. -/
def readHead : Reader UInt8 ListHead :=
  readIp.bind fun address => readShort.bind fun port =>
    (readCounted (Reader.item.bind fun type => readNTS.map (type, ·))).bind fun fields =>
      (readCounted readNTS).map fun popularValues => ⟨address, port, fields, popularValues⟩

/-- The reader of a value: the index of a popular value, or 0xFF and a text. -/
def readCell (popularValues : List Bytes) : Reader UInt8 Bytes :=
  Reader.item.bind fun index =>
    if index = 0xFF then readNTS
    else fun rest => popularValues[index.toNat]?.map (·, rest)

/-- The reader of a row, or of the terminator. -/
def readRow (head : ListHead) : Reader UInt8 (Option ListEntry) :=
  Reader.item.bind fun byte => readIp.bind fun wanIp =>
    let flags := RowFlags.ofByte byte
    if byte = 0 ∧ wanIp = inaddrNone then .pure none
    else
      (readIf flags.nonstandardPort readShort).bind fun wanPort =>
        (readIf flags.privateIp readIp).bind fun _ =>
          (readIf flags.nonstandardPrivatePort readShort).bind fun _ =>
            (readIf flags.icmpIp readIp).bind fun _ =>
              (readIf flags.hasKeys
                ((readCell head.popularValues).times head.fields.length)).map fun values =>
                  some ⟨wanIp, wanPort.getD head.port, values⟩

/-- The reader of a list. Every row takes some bytes, so there are no more rows than bytes. -/
def readList : Reader UInt8 (ListHead × List ListEntry) := fun text =>
  (readHead.bind fun head => ((readRow head).untilEnd text.length).map (head, ·)) text

/-- A scan without an error: there is a reply until the cursor is 0. -/
def Completes : List (Option ScanReply) → Prop
  | some reply :: replies => reply.cursor = 0 ∨ Completes replies
  | _ => False

/-- What a client is sent for the batches of a request, when no other request comes between. -/
def listBytes (peerIp : IPv4) (req : ListRequest) (calls : List RetrievedCall) : Bytes :=
  (calls.flatMap fun call => sendListQueryResp peerIp req call req).flatten

/-- The head that a request gets. -/
def listHead (peerIp : IPv4) (req : ListRequest) : ListHead where
  address := if req.sourceIp ≠ noAddress then req.sourceIp else peerIp
  port := .ofInt req.forGame.queryport
  fields := req.fieldList.map (KeyType.string.code, ·)
  popularValues := req.forGame.popularValues

/-- The row of a server has the values of the fields. -/
def hasKeys (req : ListRequest) (server : Server) : Bool :=
  !server.allowUnsolicitedUdp || req.sendFieldsForAll

/-- What is to be read of a server. -/
def listEntry (req : ListRequest) (server : Server) : ListEntry where
  wanIp := server.wanIp
  wanPort := server.wanPort
  values := if hasKeys req server then some (req.fieldList.map server.kvFields.read) else none

/-- A server list request of the format: at most 255 fields and popular values, and no NUL in
them or in the values of the servers. -/
structure Writable (req : ListRequest) (servers : List Server) : Prop where
  serverList : req.noServerList = false ∧ req.sendGroups = false
  fields : req.fieldList.length ≤ 255
  popular : req.forGame.popularValues.length ≤ 255
  fieldNames : ∀ name ∈ req.fieldList, 0 ∉ name
  popularNul : ∀ value ∈ req.forGame.popularValues, 0 ∉ value
  values : ∀ server ∈ servers, ∀ name ∈ req.fieldList, 0 ∉ server.kvFields.read name

/-- The flags are read off their byte. -/
theorem of_byte_to_byte (flags : RowFlags) : RowFlags.ofByte flags.toByte = flags := by
  have hall : ∀ a b c d e f g h : Bool,
      RowFlags.ofByte (RowFlags.toByte ⟨a, b, c, d, e, f, g, h⟩) = ⟨a, b, c, d, e, f, g, h⟩ := by
    decide +kernel
  exact hall _ _ _ _ _ _ _ _

theorem reads_ip (ip : IPv4) : Reads readIp (ipBytes ip) ip :=
  fun _ => rfl

theorem reads_short (value : UInt16) : Reads readShort (shortBytes value) value := by
  have hjoin : UInt16.ofNat ((value >>> 8).toUInt8.toNat * 256 + value.toUInt8.toNat) = value := by
    apply UInt16.toNat_inj.mp
    have hlt := value.toNat_lt
    rw [UInt16.toNat_ofNat', UInt16.toNat_toUInt8, UInt16.toNat_toUInt8, UInt16.toNat_shiftRight]
    show (value.toNat >>> 8 % 2 ^ 8 * 256 + value.toNat % 2 ^ 8) % 2 ^ 16 = value.toNat
    rw [Nat.shiftRight_eq_div_pow]
    omega
  intro rest
  show some (UInt16.ofNat ((value >>> 8).toUInt8.toNat * 256 + value.toUInt8.toNat), rest) =
    some (value, rest)
  rw [hjoin]

theorem reads_nts {str : Bytes} (h : 0 ∉ str) : Reads readNTS (writeNTS str) str :=
  .before h

theorem reads_if {α : Type*} {r : Reader UInt8 α} {text : Bytes} {a : α} (h : Reads r text a)
    (flag : Bool) :
    Reads (readIf flag r) (if flag then text else []) (if flag then some a else none) := by
  cases flag with
  | false => exact .pure _
  | true => exact h.map some

theorem reads_counted {α β : Type*} {r : Reader UInt8 α} {enc : β → Bytes} {dec : β → α}
    {xs : List β} (hlength : xs.length ≤ 255) (h : ∀ x ∈ xs, Reads r (enc x) (dec x)) :
    Reads (readCounted r) (.ofNat xs.length :: xs.flatMap enc) (xs.map dec) := by
  have hcount : (UInt8.ofNat xs.length).toNat = xs.length := by
    rw [UInt8.toNat_ofNat']
    omega
  refine (Reads.item (UInt8.ofNat xs.length)).bind ?_
  rw [hcount]
  exact .times h

/-- A value is read back, as a popular value or as a text. -/
theorem reads_cell {game : Game} (hpopular : game.popularValues.length ≤ 255)
    {field : Option Bytes} (hnul : 0 ∉ field.getD []) :
    Reads (readCell game.popularValues) (writeCell game false .string field) (field.getD []) := by
  have hvalue : (field.map cString).getD [] = field.getD [] := by
    cases field with
    | none => rfl
    | some value => exact c_string_eq_self hnul
  unfold writeCell
  simp only [hvalue]
  cases hindex : field.bind fun _ => game.popularValues.findIdx? (· = field.getD []) with
  | some index =>
      obtain ⟨_, _, hfind⟩ := Option.bind_eq_some_iff.mp hindex
      obtain ⟨hlt, heq, _⟩ := List.findIdx?_eq_some_iff_getElem.mp hfind
      have hindexNat : (UInt8.ofNat index).toNat = index := by
        rw [UInt8.toNat_ofNat']
        omega
      have hescape : UInt8.ofNat index ≠ 0xFF := by
        intro h
        have := congrArg UInt8.toNat h
        rw [hindexNat] at this
        simp at this
        omega
      intro rest
      show (if UInt8.ofNat index = 0xFF then readNTS
        else fun rest => game.popularValues[(UInt8.ofNat index).toNat]?.map (·, rest)) rest = _
      rw [if_neg hescape, hindexNat, List.getElem?_eq_getElem hlt]
      simpa using heq
  | none =>
      have htext : (if (field.getD []).length > 0 then writeNTS (field.getD []) else [0]) =
          writeNTS (field.getD []) := by
        split
        · rfl
        · next hlength =>
            rw [List.eq_nil_of_length_eq_zero (Nat.eq_zero_of_not_pos hlength)]
            rfl
      simp only [htext]
      intro rest
      exact reads_nts hnul rest

/-- A server after the loop over the fields. -/
def touchFields (fieldList : List Bytes) (server : Server) : Server :=
  { server with kvFields := fieldList.foldl Fields.touch server.kvFields }

/-- A field is written as a string. -/
theorem write_optimized_field_eq (lastListReq : ListRequest) (servers : List Server)
    (name : Bytes) :
    writeOptimizedField lastListReq servers name =
      (KeyType.string.code :: writeNTS name, .string, servers.map (touchFields [name])) :=
  rfl

/-- The loop over the fields writes them as strings. -/
theorem write_optimized_fields_eq (lastListReq : ListRequest) (servers : List Server)
    (fieldList : List Bytes) :
    ∃ fieldTypes : Bytes → Option KeyType, (∀ name, (fieldTypes name).getD .string = .string) ∧
      writeOptimizedFields lastListReq servers fieldList =
        (fieldList.flatMap fun name => KeyType.string.code :: writeNTS name, fieldTypes,
          servers.map (touchFields fieldList)) := by
  unfold writeOptimizedFields
  simp only [write_optimized_field_eq]
  -- The field types that the loop starts with are generalised along with the buffer.
  suffices h : ∀ (buffer : Bytes) (fieldTypes : Bytes → Option KeyType),
      (∀ name, (fieldTypes name).getD .string = .string) →
      ∃ types : Bytes → Option KeyType, (∀ name, (types name).getD .string = .string) ∧
        fieldList.foldl
          (fun state name =>
            (state.1 ++ KeyType.string.code :: writeNTS name,
              Function.update state.2.1 name (some .string),
              state.2.2.map (touchFields [name])))
          (buffer, fieldTypes, servers) =
        (buffer ++ fieldList.flatMap (fun name => KeyType.string.code :: writeNTS name), types,
          servers.map (touchFields fieldList)) by
    exact h [] (fun _ => none) fun _ => rfl
  induction fieldList generalizing servers with
  | nil =>
      intro buffer fieldTypes htypes
      have hservers : servers.map (touchFields []) = servers := List.map_id servers
      exact ⟨fieldTypes, htypes, by simp [hservers]⟩
  | cons name fieldList ih =>
      intro buffer fieldTypes htypes
      have hupdate : ∀ other,
          (Function.update fieldTypes name (some .string) other).getD KeyType.string = .string := by
        intro other
        by_cases heq : other = name
        · rw [heq, Function.update_self, Option.getD_some]
        · rw [Function.update_of_ne heq]
          exact htypes other
      obtain ⟨types, hstring, heq⟩ := ih (servers.map (touchFields [name]))
        (buffer ++ KeyType.string.code :: writeNTS name) _ hupdate
      refine ⟨types, hstring, ?_⟩
      rw [List.foldl_cons, heq, List.map_map, List.flatMap_cons, List.append_assoc]
      rfl

/-- The loop over the fields leaves the values as they are. -/
theorem touch_fields_read (fieldList : List Bytes) (server : Server) :
    (touchFields fieldList server).kvFields.read = server.kvFields.read := by
  show (fieldList.foldl Fields.touch server.kvFields).read = server.kvFields.read
  generalize server.kvFields = kvFields
  induction fieldList generalizing kvFields with
  | nil => rfl
  | cons name fieldList ih =>
      rw [List.foldl_cons, ih]
      funext other
      by_cases heq : other = name
      · simp [Fields.read, Fields.touch, heq]
      · simp [Fields.read, Fields.touch, heq]

/-- The bytes of a row. -/
def rowBytes (lastListReq : ListRequest) (game : Game) (server : Server) : Bytes :=
  (rowHeader lastListReq game false server).bytes ++
    if (rowHeader lastListReq game false server).flags.hasKeys then
      lastListReq.fieldList.flatMap fun name => writeCell game false .string (server.kvFields name)
    else []

/-- A row is written for each server that is not skipped. -/
theorem send_server_data_eq (lastListReq : ListRequest) (game : Game)
    {fieldTypes : Bytes → Option KeyType}
    (htypes : ∀ name, (fieldTypes name).getD .string = .string) (server : Server) :
    sendServerData lastListReq game false fieldTypes server =
      if server.wanIp = inaddrNone then none else some (rowBytes lastListReq game server) := by
  simp only [sendServerData, htypes]
  rfl

variable {req : ListRequest} {servers : List Server}

/-- A row is read back. -/
theorem reads_row (h : Writable req servers) (peerIp : IPv4) {server : Server}
    (hip : server.wanIp ≠ inaddrNone)
    (hvalues : ∀ name ∈ req.fieldList, 0 ∉ server.kvFields.read name) :
    Reads (readRow (listHead peerIp req)) (rowBytes req req.forGame server)
      (some (listEntry req server)) := by
  set header := rowHeader req req.forGame false server with hheader
  have hport : (if header.flags.nonstandardPort then some header.wanPort else none).getD
      (listHead peerIp req).port = server.wanPort := by
    show (if decide ((server.wanPort.toNat : Int) ≠ req.forGame.queryport)
      then some server.wanPort else none).getD (.ofInt req.forGame.queryport) = server.wanPort
    by_cases heq : (server.wanPort.toNat : Int) = req.forGame.queryport
    · have hofInt : UInt16.ofInt req.forGame.queryport = server.wanPort := by
        have hlt := server.wanPort.toNat_lt
        rw [← heq]
        apply UInt16.toNat_inj.mp
        rw [UInt16.ofInt, UInt16.toNat_ofNat']
        omega
      simp [heq, hofInt]
    · simp [heq]
  have hcells : Reads ((readCell req.forGame.popularValues).times req.fieldList.length)
      (req.fieldList.flatMap fun name =>
        writeCell req.forGame false .string (server.kvFields name))
      (req.fieldList.map server.kvFields.read) :=
    .times fun name hname => reads_cell h.popular (hvalues name hname)
  have hbytes : rowBytes req req.forGame server =
      [header.flags.toByte] ++ (ipBytes header.wanIp ++
        ((if header.flags.nonstandardPort then shortBytes header.wanPort else []) ++
        ((if header.flags.privateIp then ipBytes header.privateIp else []) ++
        ((if header.flags.nonstandardPrivatePort then shortBytes header.privatePort else []) ++
        ((if header.flags.icmpIp then ipBytes header.icmpIp else []) ++
          if header.flags.hasKeys then
            req.fieldList.flatMap fun name =>
              writeCell req.forGame false .string (server.kvFields name)
          else []))))) := by
    simp only [rowBytes, RowHeader.bytes, ← hheader, List.append_assoc, List.cons_append,
      List.nil_append]
  rw [hbytes]
  refine (Reads.item _).bind ((reads_ip _).bind ?_)
  have hrow : ¬(header.flags.toByte = 0 ∧ header.wanIp = inaddrNone) := fun hstop => hip hstop.2
  have hentry : listEntry req server =
      ⟨header.wanIp,
        (if header.flags.nonstandardPort then some header.wanPort else none).getD
          (listHead peerIp req).port,
        if header.flags.hasKeys then some (req.fieldList.map server.kvFields.read) else none⟩ := by
    have hkeys : header.flags.hasKeys = hasKeys req server := by
      show (!(server.allowUnsolicitedUdp && !req.sendFieldsForAll && !req.sendGroups && !false)) =
        (!server.allowUnsolicitedUdp || req.sendFieldsForAll)
      rw [h.serverList.2]
      cases server.allowUnsolicitedUdp <;> simp
    rw [hport, hkeys]
    rfl
  have hlength : (listHead peerIp req).fields.length = req.fieldList.length :=
    List.length_map _
  simp only [of_byte_to_byte, if_neg hrow, hlength, hentry]
  exact (reads_if (reads_short _) _).bind ((reads_if (reads_ip _) _).bind
    ((reads_if (reads_short _) _).bind ((reads_if (reads_ip _) _).bind
      ((reads_if hcells _).map _))))

/-- The bytes of the head. -/
def headBytes (peerIp : IPv4) (req : ListRequest) : Bytes :=
  ipBytes (listHead peerIp req).address ++ (shortBytes (listHead peerIp req).port ++
    (.ofNat req.fieldList.length ::
        (req.fieldList.flatMap fun name => KeyType.string.code :: writeNTS name) ++
      .ofNat req.forGame.popularValues.length :: req.forGame.popularValues.flatMap writeNTS))

/-- The head is read back. -/
theorem reads_head (h : Writable req servers) (peerIp : IPv4) :
    Reads readHead (headBytes peerIp req) (listHead peerIp req) := by
  have hpopular : Reads (readCounted readNTS)
      (.ofNat req.forGame.popularValues.length :: req.forGame.popularValues.flatMap writeNTS)
      req.forGame.popularValues := by
    have hread : Reads (readCounted readNTS) _ (req.forGame.popularValues.map id) :=
      reads_counted h.popular fun value hvalue => reads_nts (h.popularNul value hvalue)
    rwa [List.map_id] at hread
  have hfields : Reads (readCounted (Reader.item.bind fun type => readNTS.map (type, ·)))
      (.ofNat req.fieldList.length ::
        (req.fieldList.flatMap fun name => KeyType.string.code :: writeNTS name))
      (listHead peerIp req).fields :=
    reads_counted h.fields fun name hname =>
      (Reads.item KeyType.string.code).bind ((reads_nts (h.fieldNames name hname)).map _)
  exact (reads_ip _).bind ((reads_short _).bind (hfields.bind (hpopular.map _)))

/-- The servers that get a row. -/
def withRow (servers : List Server) : List Server :=
  servers.filter (·.wanIp ≠ inaddrNone)

/-- The bytes of the rows of a batch, which have the fields of the last request. -/
def rowsBytes (lastListReq listReq : ListRequest) (servers : List Server) : Bytes :=
  (withRow servers).flatMap fun server =>
    rowBytes lastListReq (rowGame listReq) (touchFields listReq.fieldList server)

/-- What is sent for one batch. -/
theorem list_query_resp_bytes (peerIp : IPv4) (lastListReq : ListRequest) (call : RetrievedCall)
    {listReq : ListRequest} (hlist : listReq.noServerList = false) :
    (sendListQueryResp peerIp lastListReq call listReq).flatten =
      (if call.firstSet then headBytes peerIp listReq else []) ++
        (rowsBytes lastListReq listReq call.list ++
          if call.list.isEmpty || call.lastSet then terminator else []) := by
  obtain ⟨fieldTypes, htypes, hfields⟩ :=
    write_optimized_fields_eq lastListReq call.list listReq.fieldList
  have hrows : ((call.list.map (touchFields listReq.fieldList)).filterMap
      (sendServerData lastListReq (rowGame listReq) false fieldTypes)).flatten =
        rowsBytes lastListReq listReq call.list := by
    induction call.list with
    | nil => rfl
    | cons server list ih =>
        have hdata : sendServerData lastListReq (rowGame listReq) false fieldTypes
            (touchFields listReq.fieldList server) = if server.wanIp = inaddrNone then none
              else some (rowBytes lastListReq (rowGame listReq)
                (touchFields listReq.fieldList server)) :=
          send_server_data_eq lastListReq (rowGame listReq) htypes _
        rw [List.map_cons, List.filterMap_cons, hdata]
        by_cases hip : server.wanIp = inaddrNone
        · rw [if_pos hip, ih]
          simp [rowsBytes, withRow, hip]
        · rw [if_neg hip, List.flatten_cons, ih]
          simp [rowsBytes, withRow, hip]
  simp only [sendListQueryResp, hlist, Bool.false_eq_true, if_false, hfields]
  cases call.firstSet with
  | true =>
      rw [if_pos rfl, if_pos rfl, List.flatten_singleton, hrows]
      simp [headBytes, listHead]
  | false =>
      generalize (if call.list.isEmpty || call.lastSet then terminator else []) = ending
      rw [if_neg Bool.false_ne_true, if_neg Bool.false_ne_true, List.flatten_append, hrows]
      cases ending <;> simp

/-- What is sent for one batch and those behind it. -/
theorem list_bytes_cons (hlist : req.noServerList = false) (peerIp : IPv4) (call : RetrievedCall)
    (calls : List RetrievedCall) :
    listBytes peerIp req (call :: calls) =
      (if call.firstSet then headBytes peerIp req else []) ++ (rowsBytes req req call.list ++
        ((if call.list.isEmpty || call.lastSet then terminator else []) ++
          listBytes peerIp req calls)) := by
  rw [listBytes, List.flatMap_cons, List.flatten_append, list_query_resp_bytes _ _ _ hlist,
    List.append_assoc, List.append_assoc]
  rfl

/-- What is sent for the batches of a scan without an error. -/
theorem list_bytes_scan (hlist : req.noServerList = false) (peerIp : IPv4)
    (append : List Bytes → List Server) (sentServers : Bool) {replies : List (Option ScanReply)}
    (hcompletes : Completes replies) :
    listBytes peerIp req (scanLoop append sentServers replies) =
      (if sentServers then [] else headBytes peerIp req) ++
        (rowsBytes req req (delivered (scanLoop append sentServers replies)) ++ terminator) := by
  have hfirst (sent : Bool) : (if !sent then headBytes peerIp req else []) =
      if sent then [] else headBytes peerIp req := by
    cases sent <;> rfl
  induction replies generalizing sentServers with
  | nil => exact hcompletes.elim
  | cons reply replies ih =>
      cases reply with
      | none => exact hcompletes.elim
      | some reply =>
          by_cases hcursor : reply.cursor = 0
          · rw [scan_loop_last hcursor, list_bytes_cons hlist, hfirst]
            simp [delivered, listBytes]
          · have hrest := fun sent => ih sent (hcompletes.resolve_left hcursor)
            by_cases hempty : append reply.keys = []
            · rw [scan_loop_empty hcursor hempty, hrest]
            · rw [scan_loop_batch hcursor hempty, list_bytes_cons hlist, hrest, hfirst]
              simp [delivered, rowsBytes, withRow, hempty]

/-- For a list request of the format and an error-free scan, the client reads back the head and
every server of every batch that has a row, in order, with its address and, if the row has
them, the values of the fields, and stops behind the one terminator. -/
theorem list_read_back (peerIp : IPv4) (req : ListRequest) (append : List Bytes → List Server)
    (replies : List (Option ScanReply)) (rest : Bytes)
    (h : Writable req (delivered (scanLoop append false replies)))
    (hcompletes : Completes replies) :
    readList (listBytes peerIp req (scanLoop append false replies) ++ rest) =
      some ((listHead peerIp req,
        (withRow (delivered (scanLoop append false replies))).map (listEntry req)), rest) := by
  have hgame : rowGame req = req.forGame := by
    simp [rowGame, h.serverList.2]
  set servers := delivered (scanLoop append false replies)
  have hrow : ∀ server ∈ withRow servers,
      Reads (readRow (listHead peerIp req))
        (rowBytes req (rowGame req) (touchFields req.fieldList server))
        (some (listEntry req server)) := by
    intro server hserver
    obtain ⟨hmem, hip⟩ := List.mem_filter.mp hserver
    have hentry : listEntry req server = listEntry req (touchFields req.fieldList server) := by
      rw [listEntry, listEntry, touch_fields_read]
      rfl
    rw [hentry, hgame]
    refine reads_row h peerIp (of_decide_eq_true hip) fun name hname => ?_
    rw [touch_fields_read]
    exact h.values server hmem name hname
  have hstop : Reads (readRow (listHead peerIp req)) terminator none :=
    fun _ => rfl
  have hfuel (rest : Bytes) : (withRow servers).length <
      (headBytes peerIp req ++ (rowsBytes req req servers ++ terminator) ++ rest).length := by
    have hrows : (withRow servers).length ≤ (rowsBytes req req servers).length :=
      length_le_length_flat_map fun server _ => by simp [rowBytes, RowHeader.bytes]
    simp only [List.length_append, terminator, List.length_cons]
    omega
  rw [list_bytes_scan h.serverList.1 peerIp append false hcompletes]
  exact (reads_head h peerIp).bind ((Reads.until_end hrow hstop (hfuel rest)).map _) rest

/-- A request for the players of the servers of game 1, in which one player is popular. -/
def playersRequest : ListRequest where
  filter := []
  fieldList := [ascii "players"]
  sourceIp := noAddress
  maxResults := 0
  sendGroups := false
  pushUpdates := false
  noServerList := false
  sendFieldsForAll := false
  forGamename := ascii "game"
  fromGamename := ascii "game"
  forGame := ⟨⟨1, ascii "game"⟩, 6500, ascii "key", [ascii "1"]⟩
  fromGame := ⟨⟨1, ascii "game"⟩, 6500, ascii "key", [ascii "1"]⟩

/-- The list of a batch for the request. -/
def playersBatch (record : ServerRecord) (serverKeys : List Bytes) : List Server :=
  (appendServerEntries (fun _ => record) (fun _ => true) serverKeys ⟨[], []⟩
    playersRequest.toReq 2).list

/-- A request with two batches can be read back. -/
theorem players_list_read_back :
    readList (listBytes noAddress playersRequest (scanLoop (playersBatch oneServer) false
        [some ⟨7, [ascii "a"]⟩, some ⟨0, [ascii "b"]⟩]) ++ [1, 2]) =
      some ((listHead noAddress playersRequest,
        (withRow (delivered (scanLoop (playersBatch oneServer) false
          [some ⟨7, [ascii "a"]⟩, some ⟨0, [ascii "b"]⟩]))).map (listEntry playersRequest)),
        [1, 2]) :=
  list_read_back noAddress playersRequest (playersBatch oneServer)
    [some ⟨7, [ascii "a"]⟩, some ⟨0, [ascii "b"]⟩] [1, 2]
    { serverList := ⟨rfl, rfl⟩
      fields := by decide
      popular := by decide
      fieldNames := by decide
      popularNul := by decide
      values := by decide +kernel }
    (.inr (.inl rfl))

/-- A server whose stored address is 255.255.255.255. -/
def unaddressedServer : ServerRecord :=
  { oneServer with
    basic := Redis.hmset (fun _ => none)
      [(ascii "wan_ip", ascii "255.255.255.255"), (ascii "gameid", ascii "1")] }

/-- It is delivered, and the client does not read it. -/
theorem unaddressed_server_not_read :
    Writable playersRequest
        (delivered (scanLoop (playersBatch unaddressedServer) false [some ⟨0, [ascii "a"]⟩])) ∧
      Completes [some ⟨0, [ascii "a"]⟩] ∧
      readList (listBytes noAddress playersRequest
          (scanLoop (playersBatch unaddressedServer) false [some ⟨0, [ascii "a"]⟩])) ≠
        some ((listHead noAddress playersRequest,
          (delivered (scanLoop (playersBatch unaddressedServer) false
            [some ⟨0, [ascii "a"]⟩])).map (listEntry playersRequest)), []) := by
  refine ⟨?_, .inl rfl, by decide +kernel⟩
  exact
    { serverList := ⟨rfl, rfl⟩
      fields := by decide
      popular := by decide
      fieldNames := by decide
      popularNul := by decide
      values := by decide +kernel }

end OpenSpy.ServerBrowsing
