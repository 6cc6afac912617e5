import OpenSpy.Library.Codec
import OpenSpy.UTMaster.Listing

/-!
# What a game client asks for and reads

A game client sends its filters behind their number, and is sent the number of servers and a packet
for each of them. The number of the filters is read as a `char`, so that it is negative from 128 on:
`filters_read_back_iff`. `list_answered` goes all the way from the filters that a client writes to
the servers that it reads, which are those of the store that the filters match.
-/

namespace OpenSpy.UTMaster

open Bytes Codec MachineInt
open ServerBrowsing (ScanReply)

/-- The byte of a type. -/
def EQueryType.toByte : EQueryType → UInt8
  | equals => 0
  | notEquals => 1
  | lessThan => 2
  | lessThanEquals => 3
  | greaterThan => 4
  | greaterThanEquals => 5
  | disabled => 6

/-- A filter as a client writes it. -/
def filterBytes (filter : FilterProperties) : Bytes :=
  writeFString filter.field ++ writeFString filter.property ++ [filter.type.toByte]

/-- The message of a client that asks for servers. -/
def listRequest (filters : List FilterProperties) : Bytes :=
  0 :: .ofNat filters.length :: filters.flatMap filterBytes

/-- A server as a client reads it. -/
structure ListedServer where
  ip : IPv4
  port : UInt16
  queryPort : UInt16
  hostname : Bytes
  level : Bytes
  gameGroup : Bytes
  numPlayers : UInt8
  maxPlayers : UInt8
  flags : Option UInt32
  botLevel : Option Bytes
  deriving DecidableEq, Repr

/-- A read of a buffer, as a reader. -/
def reading {α : Type} (read : Buffer → α × Buffer) : Reader UInt8 α := fun text =>
  some ((read ⟨[], text⟩).1, (read ⟨[], text⟩).2.unread)

/-- A reader of the address of a server. -/
def readIp : Reader UInt8 IPv4 :=
  Reader.item.bind fun a => Reader.item.bind fun b => Reader.item.bind fun c =>
    Reader.item.map fun d => ⟨a, b, c, d⟩

/-- A reader of two bytes. -/
def readPort : Reader UInt8 UInt16 :=
  Reader.item.bind fun low => Reader.item.map fun high => .ofNat (low.toNat + 256 * high.toNat)

/-- A reader of what comes behind the players of a server, which depends on the version. -/
def readTail (clientVersion : UInt32) : Reader UInt8 (Option UInt32 × Option Bytes) :=
  if clientVersion = 2226 then .pure (none, none)
  else if clientVersion ≥ 3000 then
    (reading readUInt).bind fun flags => (reading (readFString false)).map fun botLevel =>
      (some flags, some botLevel)
  else Reader.item.map fun flags => (some flags.toUInt32, none)

/-- A reader of a server. -/
def readRow (clientVersion : UInt32) : Reader UInt8 ListedServer :=
  readIp.bind fun ip => readPort.bind fun port => readPort.bind fun queryPort =>
    (reading (readFString false)).bind fun hostname =>
      (reading (readFString false)).bind fun level =>
        (reading (readFString false)).bind fun gameGroup =>
          Reader.item.bind fun numPlayers => Reader.item.bind fun maxPlayers =>
            (readTail clientVersion).map fun tail =>
              ⟨ip, port, queryPort, hostname, level, gameGroup, numPlayers, maxPlayers, tail.1,
                tail.2⟩

/-- A reader of a packet, all of which is to be read by another reader. -/
def readPacket {α : Type} (reader : Reader UInt8 α) : Reader UInt8 α := fun text =>
  let (len, buffer) := readUInt ⟨[], text⟩
  match reader (buffer.unread.take len.toNat) with
  | some (a, []) => some (a, buffer.unread.drop len.toNat)
  | _ => none

/-- A reader of the servers that a client is sent. -/
def readList (clientVersion : UInt32) : Reader UInt8 (List ListedServer) :=
  (readPacket ((reading readUInt).bind fun count => Reader.item.map fun _ => count)).bind
    fun count => (readPacket (readRow clientVersion)).times count.toNat

/-- What a client is to read of a server. -/
def Peer.listedServer (peer : Peer) (server : ServerRecord) : ListedServer :=
  { ip := server.address.ip
    port := htons server.address.port
    queryPort := htons server.address.port + 1
    hostname := server.hostname
    level := server.level
    gameGroup := server.gameGroup
    numPlayers := .ofInt server.numPlayers.toInt
    maxPlayers := .ofInt server.maxPlayers.toInt
    flags := if peer.clientVersion = 2226 then none else peer.getServerFlags server
    botLevel := if peer.clientVersion ≥ 3000 then some server.botLevel else none }

/-- The length of a text is an `int`, also with its NUL. -/
def Short (s : Bytes) : Prop :=
  s.length + 1 < 2 ^ 31

instance (s : Bytes) : Decidable (Short s) :=
  inferInstanceAs (Decidable (_ < _))

/-- The texts of a server have lengths that are an `int`, and its packet one that is an
`uint32_t`. -/
structure ServerRecord.Fits (record : ServerRecord) : Prop where
  hostname : Short record.hostname
  level : Short record.level
  gameGroup : Short record.gameGroup
  botLevel : Short record.botLevel
  packet : record.hostname.length + record.level.length + record.gameGroup.length +
    record.botLevel.length < 2 ^ 32 - 64

instance (record : ServerRecord) : Decidable record.Fits :=
  decidable_of_iff (Short record.hostname ∧ Short record.level ∧ Short record.gameGroup ∧
      Short record.botLevel ∧ record.hostname.length + record.level.length +
        record.gameGroup.length + record.botLevel.length < 2 ^ 32 - 64)
    ⟨fun h => ⟨h.1, h.2.1, h.2.2.1, h.2.2.2.1, h.2.2.2.2⟩,
      fun h => ⟨h.hostname, h.level, h.gameGroup, h.botLevel, h.packet⟩⟩

section Texts

variable {s read rest : Bytes}

/-- The characters of a text are read with those that mark a colour, up to its NUL. -/
theorem read_chars_all {length fuel i : Nat} (hlength : length = i + s.length + 1)
    (hfuel : s.length < fuel) (read rest : Bytes) :
    readChars false length fuel i ⟨read, s ++ 0 :: rest⟩ = (s, ⟨read ++ s ++ [0], rest⟩) := by
  induction s generalizing fuel i read with
  | nil =>
      obtain ⟨fuel, rfl⟩ : ∃ k, fuel = k + 1 := ⟨fuel - 1, by omega⟩
      rw [List.nil_append, read_chars_nul false (by rw [hlength]; rfl), List.append_nil]
  | cons ch s ih =>
      rw [List.length_cons] at hlength hfuel
      obtain ⟨fuel, rfl⟩ : ∃ k, fuel = k + 1 := ⟨fuel - 1, by omega⟩
      have hrest := @ih fuel (i + 1) (by omega) (by omega) (read ++ [ch])
      rw [readChars, if_pos (by omega)]
      show (if i + 1 = length ∧ ch = 0 then _
        else if (false : Bool) = true ∧ ch = 0x1B then _ else _) = _
      rw [if_neg (by omega), if_neg fun hcolour => Bool.false_ne_true hcolour.1]
      show (ch :: (readChars false length fuel (i + 1) ⟨read ++ [ch], s ++ 0 :: rest⟩).1,
        (readChars false length fuel (i + 1) ⟨read ++ [ch], s ++ 0 :: rest⟩).2) = _
      rw [hrest]
      simp

/-- A text that was written is read as it was. -/
theorem read_fstring_all (h : Short s) (read rest : Bytes) :
    readFString false ⟨read, writeFString s ++ rest⟩ = (s, ⟨read ++ writeFString s, rest⟩) := by
  have hlength : s.length + 1 < 2 ^ 31 := h
  have hint : int32 (s.length + 1) = s.length + 1 := int32_eq_self (by omega) (by omega)
  have hfield : writeFString s ++ rest = writeCompactInt (s.length + 1) ++ (s ++ 0 :: rest) := by
    simp [writeFString, hint]
  have hcount := read_write_compact_int (show -2 ^ 31 < (s.length : Int) + 1 by omega) (by omega)
    read (s ++ 0 :: rest)
  rw [if_neg (by omega)] at hcount
  have hremains : sizeT (s.length + 1) ≤ Buffer.readRemaining
      ⟨read ++ writeCompactInt (s.length + 1), s ++ 0 :: rest⟩ := by
    have hsize := size_t_eq_self (show 0 ≤ (s.length : Int) + 1 by omega) (by omega)
    rw [Buffer.readRemaining, List.length_append, List.length_cons]
    omega
  rw [readFString, hfield, hcount]
  show (if _ then _ else _ : Bytes × Buffer) = _
  rw [if_pos hremains, read_chars_all (by omega) (by omega)]
  simp [writeFString, hint]

/-- A number that was written is read as it was. -/
theorem read_uint_write_int (value : UInt32) (read rest : Bytes) :
    readUInt ⟨read, writeInt value ++ rest⟩ = (value, ⟨read ++ writeInt value, rest⟩) := by
  have hlength : (writeInt value).length = 4 := LittleEndian.to_bytes_length 4 _
  have hint : Buffer.readInt ⟨read, writeInt value ++ rest⟩ =
      (writeInt value, ⟨read ++ writeInt value, rest⟩) := by
    rw [Buffer.readInt, if_neg (by simp [Buffer.readRemaining, hlength])]
    simp [Buffer.skipRead, hlength]
  have hvalue : LittleEndian.toNat (writeInt value) = value.toNat :=
    LittleEndian.to_nat_to_bytes value.toNat_lt
  rw [readUInt, hint, hvalue, UInt32.ofNat_toNat]

end Texts

section Filters

theorem of_byte_query_type (type : EQueryType) : EQueryType.ofByte type.toByte = type := by
  cases type <;> rfl

/-- A filter that was written is read as it was. -/
theorem read_filter_bytes {filter : FilterProperties} (hfield : Short filter.field)
    (hproperty : Short filter.property) (read rest : Bytes) :
    readFilter ⟨read, filterBytes filter ++ rest⟩ =
      (filter, ⟨read ++ filterBytes filter, rest⟩) := by
  have htext : filterBytes filter ++ rest = writeFString filter.field ++
      (writeFString filter.property ++ (filter.type.toByte :: rest)) := by
    simp [filterBytes]
  have hbyte : ∀ read, Buffer.readByte ⟨read, filter.type.toByte :: rest⟩ =
      (filter.type.toByte, ⟨read ++ [filter.type.toByte], rest⟩) := fun _ => rfl
  simp only [readFilter, htext, read_fstring_all hfield, read_fstring_all hproperty, hbyte,
    of_byte_query_type]
  simp [filterBytes]

/-- Filters that were written are read one after the other. -/
theorem read_entries_filters {filters : List FilterProperties}
    (hfilters : ∀ filter ∈ filters, Short filter.field ∧ Short filter.property) (read : Bytes) :
    (readEntries readFilter filters.length ⟨read, filters.flatMap filterBytes⟩).1 = filters := by
  induction filters generalizing read with
  | nil => rfl
  | cons filter filters ih =>
      obtain ⟨hfield, hproperty⟩ := hfilters filter List.mem_cons_self
      have hrest := ih (fun other hmem => hfilters other (List.mem_cons_of_mem _ hmem))
        (read ++ filterBytes filter)
      rw [List.length_cons, readEntries, List.flatMap_cons, read_filter_bytes hfield hproperty]
      dsimp only
      rw [hrest]

/-- The filters of a client come to the server exactly if there are fewer than 128 of them. From
there on none is read. -/
theorem filters_read_back_iff {filters : List FilterProperties} (hcount : filters.length < 256)
    (hfilters : ∀ filter ∈ filters, Short filter.field ∧ Short filter.property) (read : Bytes) :
    readFilters ⟨read, .ofNat filters.length :: filters.flatMap filterBytes⟩ = filters ↔
      filters.length < 128 := by
  have hbyte : (UInt8.ofNat filters.length).toBitVec.toInt.toNat =
      if filters.length < 128 then filters.length else 0 := by
    rw [UInt8.toBitVec_ofNat', BitVec.toInt_ofNat', Int.bmod_def]
    split <;> split <;> omega
  rw [readFilters]
  show (readEntries readFilter (UInt8.ofNat filters.length).toBitVec.toInt.toNat _).1 = _ ↔ _
  rw [hbyte]
  split
  · next hsmall => exact iff_of_true (read_entries_filters hfilters _) hsmall
  · next hlarge =>
    refine iff_of_false (fun hnone => hlarge ?_) hlarge
    rw [← hnone]
    exact Nat.zero_lt_succ _

end Filters

section Readers

variable {s : Bytes}

theorem reads_fstring (h : Short s) : Reads (reading (readFString false)) (writeFString s) s := by
  intro rest
  rw [reading, read_fstring_all h]

theorem reads_uint (value : UInt32) : Reads (reading readUInt) (writeInt value) value := by
  intro rest
  rw [reading, read_uint_write_int]

theorem reads_address (ip : IPv4) : Reads readIp [ip.a, ip.b, ip.c, ip.d] ip :=
  fun _ => rfl

theorem reads_port (value : Nat) :
    Reads readPort (LittleEndian.toBytes 2 value) (.ofNat value) := by
  have hjoin : UInt16.ofNat ((UInt8.ofNat value).toNat + 256 * (UInt8.ofNat (value / 256)).toNat) =
      .ofNat value := by
    rw [← UInt16.toNat_inj, UInt16.toNat_ofNat', UInt16.toNat_ofNat', UInt8.toNat_ofNat',
      UInt8.toNat_ofNat']
    omega
  intro rest
  show some (UInt16.ofNat _, rest) = _
  rw [hjoin]

/-- A packet is read with the reader of what is in it. -/
theorem reads_packet {α : Type} {reader : Reader UInt8 α} {text : Bytes} {a : α}
    (h : Reads reader text a) (hlength : text.length < 2 ^ 32) :
    Reads (readPacket reader) (packet text) a := by
  have hlen : (UInt32.ofNat text.length).toNat = text.length := by
    rw [UInt32.toNat_ofNat']
    omega
  have hwhole : reader text = some (a, []) := by
    have hall := h []
    rwa [List.append_nil] at hall
  intro rest
  rw [readPacket, packet, List.append_assoc, read_uint_write_int]
  simp only [hlen, List.take_left, List.drop_left, hwhole]

theorem write_groups_length (more : Nat) (absVal : Int) :
    (writeGroups more absVal).length ≤ more + 1 := by
  induction more generalizing absVal with
  | zero => exact Nat.le_refl 1
  | succ more ih =>
      rw [writeGroups, List.length_cons]
      split
      · have hrest := ih (absVal / 0x80)
        omega
      · simp

theorem write_fstring_length (s : Bytes) : (writeFString s).length ≤ s.length + 6 := by
  have hcount : (writeCompactInt (int32 (s.length + 1))).length ≤ 5 := by
    rw [writeCompactInt, List.length_cons]
    split
    · have hgroups := write_groups_length 3 (absInt (int32 (s.length + 1)) / 0x40)
      omega
    · simp
  rw [writeFString, List.length_append, List.length_append, List.length_singleton]
  omega

end Readers

section Rows

variable {peer later : Peer} {server : ServerRecord}

/-- The flags of the old version are those of a byte. -/
theorem flags_in_byte {flags : UInt32} (h : peer.getServerFlagsUt2003 server = some flags) :
    flags.toUInt8.toUInt32 = flags := by
  have hbyte : ∀ password stats latest mode instaGib : Bool,
      let flags := flagAt 6 password ||| flagAt 5 stats ||| flagAt 4 latest ||| flagAt 3 mode |||
        flagAt 2 instaGib
      flags.toUInt8.toUInt32 = flags := by
    decide
  rw [Peer.getServerFlagsUt2003, Option.map_eq_some_iff] at h
  obtain ⟨latest, -, rfl⟩ := h
  exact hbyte _ _ latest _ _

/-- What comes behind the players of a server is read. -/
theorem reads_tail {flags : UInt32} (hfits : server.Fits)
    (hflags : peer.clientVersion ≠ 2226 → peer.getServerFlags server = some flags) :
    Reads (readTail peer.clientVersion)
      (if peer.clientVersion = 2226 then []
        else if peer.clientVersion ≥ 3000 then writeInt flags ++ writeFString server.botLevel
        else [flags.toUInt8])
      ((peer.listedServer server).flags, (peer.listedServer server).botLevel) := by
  unfold readTail Peer.listedServer
  by_cases hold : peer.clientVersion = 2226
  · have hsmall : ¬ peer.clientVersion ≥ 3000 := by
      rw [hold]
      decide
    rw [if_pos hold, if_pos hold, if_pos hold, if_neg hsmall]
    exact .pure _
  · simp only [hold, if_false, hflags hold]
    by_cases hnew : peer.clientVersion ≥ 3000
    · simp only [hnew, if_true]
      exact (reads_uint flags).bind ((reads_fstring hfits.botLevel).map fun botLevel =>
        (some flags, some botLevel))
    · have hbyte : flags.toUInt8.toUInt32 = flags := by
        have hfound := hflags hold
        rw [Peer.getServerFlags, if_pos (UInt32.le_of_lt (UInt32.not_le.mp hnew))] at hfound
        exact flags_in_byte hfound
      have hread := (Reads.item flags.toUInt8).map fun flags =>
        (some flags.toUInt32, (none : Option Bytes))
      simp only [hnew, if_false]
      rwa [hbyte] at hread

/-- A row is read as the server that it is of. -/
theorem reads_row_of {row : Bytes} (hrow : peer.IsRow server row) (hfits : server.Fits) :
    Reads (readPacket (readRow peer.clientVersion)) (packet row) (peer.listedServer server) := by
  obtain ⟨flags, hflags, rfl⟩ := hrow
  have hquery : UInt16.ofNat ((htons server.address.port).toNat + 1) =
      htons server.address.port + 1 := by
    simp
  have hport := reads_port (htons server.address.port).toNat
  have hqueryPort := reads_port ((htons server.address.port).toNat + 1)
  rw [UInt16.ofNat_toNat] at hport
  rw [hquery] at hqueryPort
  have htail := reads_tail hfits hflags
  have htext : serverRow peer.clientVersion flags server =
      [server.address.ip.a, server.address.ip.b, server.address.ip.c, server.address.ip.d] ++
        (LittleEndian.toBytes 2 (htons server.address.port).toNat ++
          (LittleEndian.toBytes 2 ((htons server.address.port).toNat + 1) ++
            (writeFString server.hostname ++ (writeFString server.level ++
              (writeFString server.gameGroup ++ ([UInt8.ofInt server.numPlayers.toInt] ++
                ([UInt8.ofInt server.maxPlayers.toInt] ++
                  if peer.clientVersion = 2226 then []
                  else if peer.clientVersion ≥ 3000 then
                    writeInt flags ++ writeFString server.botLevel
                  else [flags.toUInt8]))))))) := by
    simp [serverRow]
  rw [htext]
  refine reads_packet ?_ ?_
  · exact (reads_address _).bind (hport.bind (hqueryPort.bind
      ((reads_fstring hfits.hostname).bind ((reads_fstring hfits.level).bind
        ((reads_fstring hfits.gameGroup).bind ((Reads.item _).bind ((Reads.item _).bind
          (htail.map fun tail => ListedServer.mk server.address.ip (htons server.address.port)
            (htons server.address.port + 1) server.hostname server.level server.gameGroup
            (.ofInt server.numPlayers.toInt) (.ofInt server.maxPlayers.toInt) tail.1 tail.2))))))))
  · have hname := write_fstring_length server.hostname
    have hlevel := write_fstring_length server.level
    have hgroup := write_fstring_length server.gameGroup
    have hbot := write_fstring_length server.botLevel
    have hflag : (writeInt flags).length = 4 := LittleEndian.to_bytes_length 4 _
    have hall := hfits.packet
    simp only [List.length_append, List.length_cons, List.length_nil, LittleEndian.to_bytes_length]
    split
    · rw [List.length_nil]
      omega
    · split
      · rw [List.length_append]
        omega
      · rw [List.length_singleton]
        omega

/-- The rows of a list are read as its servers. -/
theorem reads_rows {records : List ServerRecord} {rows : List Bytes}
    (hrows : List.Forall₂ peer.IsRow records rows) (hfits : ∀ record ∈ records, record.Fits) :
    Reads ((readPacket (readRow peer.clientVersion)).times records.length)
      (rows.map packet).flatten (records.map peer.listedServer) := by
  refine Reads.times_texts (List.forall₂_map_right_iff.mpr ?_)
  induction hrows with
  | nil => exact .nil
  | cons hrow _ ih =>
      exact .cons (reads_row_of hrow (hfits _ List.mem_cons_self))
        (ih fun record hmem => hfits record (List.mem_cons_of_mem _ hmem))

/-- The same is read of a server with the same configuration and version. -/
theorem listed_server_congr (hconfig : later.config = peer.config)
    (hversion : later.clientVersion = peer.clientVersion) :
    later.listedServer = peer.listedServer := by
  funext server
  simp only [Peer.listedServer, Peer.getServerFlags, Peer.getServerFlagsUt2003, Peer.latestVersion,
    hconfig, hversion]

end Rows

/-- A message in a packet of its own is the one that is handled. -/
theorem message_of_packet {body : Bytes} (hbody : body ≠ []) (hlength : body.length < 2 ^ 32) :
    ∃ read, messageOf (packet body) = some ⟨read, body⟩ := by
  have hlen : (UInt32.ofNat body.length).toNat = body.length := by
    rw [UInt32.toNat_ofNat']
    omega
  have hpos := List.length_pos_iff.mpr hbody
  have hne : UInt32.ofNat body.length ≠ 0 := by
    intro hzero
    rw [hzero, UInt32.toNat_zero] at hlen
    omega
  refine ⟨[], ?_⟩
  rw [messageOf, packet, read_uint_write_int]
  dsimp only
  rw [if_neg (by simp [hne, hlen, Buffer.readRemaining]), hlen, List.take_length]

/-- A client asks for the servers that its filters match. -/
theorem list_request_handled {configs : List Config} {undef : Int32} {peer : Peer} {config : Config}
    (hconfig : peer.config = some config) (hclient : config.isServer = false)
    (hstate : peer.state = .waitRequest) {filters : List FilterProperties}
    (hcount : filters.length < 128)
    (hfilters : ∀ filter ∈ filters, Short filter.field ∧ Short filter.property) (read : Bytes) :
    peer.handleMessage configs undef ⟨read, listRequest filters⟩ =
      some (peer.addRequest (.listServers filters)) := by
  have hread : readFilters ⟨read ++ [0], .ofNat filters.length :: filters.flatMap filterBytes⟩ =
      filters := (filters_read_back_iff (by omega) hfilters _).mpr hcount
  unfold Peer.handleMessage
  rw [hstate]
  show peer.config.map _ = _
  rw [hconfig, Option.map_some, hclient]
  show some (peer.addRequest (.listServers (readFilters
    ⟨read ++ [0], .ofNat filters.length :: filters.flatMap filterBytes⟩))) = _
  rw [hread]

/-- A game client asks for servers with up to 127 filters. Whatever else is read then, if the answer
comes before the peer is deleted, the client reads from it the servers of the scan that the filters
match, each with its own port, players and flags, and that is the end of the connection. -/
theorem list_answered {configs : List Config} {undef : Int32} {ip : IPv4} {now : Int}
    {clientVersion gamestatsId : UInt32} {events : List SessionEvent} {peer : Peer}
    (hrun : (connected ip now clientVersion gamestatsId).run configs undef events = some peer)
    {config : Config} (hconfig : peer.config = some config) (hclient : config.isServer = false)
    (hstate : peer.state = .waitRequest) {filters : List FilterProperties}
    (hcount : filters.length < 128)
    (hfilters : ∀ filter ∈ filters, Short filter.field ∧ Short filter.property)
    (hlength : (listRequest filters).length < 2 ^ 32) (seen : Int) :
    ∃ asked, peer.step configs undef (.read seen (packet (listRequest filters))) = some asked ∧
      asked.requests = peer.requests ++ [.listServers filters] ∧
      ∀ more later, asked.run configs undef more = some later → later.deleteFlag = false →
        ∀ (s : Store) (unset : Bytes → Undef) (replies : List (Option ScanReply)),
          let records := (s.performListServers unset filters config.gamename replies).1
          records.length < 2 ^ 32 → (∀ record ∈ records, record.Fits) →
          ∃ answered packets, later.step configs undef (.listed records) = some answered ∧
            answered.deleteFlag = true ∧ answered.sent = later.sent ++ packets ∧
            readList peer.clientVersion packets.flatten =
              some (((scannedKeys replies).filterMap (s.listServer unset filters)).map
                peer.listedServer, []) := by
  obtain ⟨last, hlast, hsound⟩ := Peer.run_sound undef
    (@Peer.connected_sound configs ip now clientVersion gamestatsId) events
  obtain rfl : peer = last := Option.some.inj (hrun.symm.trans hlast)
  have hunanswered := Peer.run_unanswered (Peer.connected_sound now clientVersion gamestatsId)
    (fun _ => rfl) events hrun
  obtain ⟨read, hmessage⟩ : ∃ read, messageOf (packet (listRequest filters)) =
      some ⟨read, listRequest filters⟩ := message_of_packet (List.cons_ne_nil _ _) hlength
  let asked := { peer with lastRecv := seen }.addRequest (.listServers filters)
  have hstep : peer.step configs undef (.read seen (packet (listRequest filters))) =
      some asked := by
    rw [Peer.step, hmessage]
    exact @list_request_handled configs undef { peer with lastRecv := seen } config hconfig hclient
      hstate filters hcount hfilters read
  have hasked : Peer.Sound configs ip asked :=
    (hsound.seen seen peer.answered).add_request hconfig hstate hclient
  refine ⟨asked, hstep, rfl, fun more later hmore hopen s unset replies => ?_⟩
  intro records hrecords hfits
  obtain ⟨hknown, hkept, hrequests⟩ := Peer.run_keeps_config hasked hconfig more hmore
  have hversion : later.clientVersion = peer.clientVersion := hkept
  have hnone : later.answered = 0 :=
    Peer.run_unanswered hasked (fun hflag => hunanswered hflag) more hmore hopen
  have hwaits : later.answered < later.requests.countP Request.isList := by
    rw [hnone]
    refine List.countP_pos_iff.mpr ⟨.listServers filters, hrequests.subset ?_, rfl⟩
    exact List.mem_append_right _ List.mem_cons_self
  obtain ⟨rows, hrows, hsent⟩ := @Peer.on_get_server_list_eq
    { later with answered := later.answered + 1 } config hknown records
  have hsame : later.listedServer = peer.listedServer := listed_server_congr
    (hknown.trans hconfig.symm) hversion
  refine ⟨_, ((writeInt (.ofNat records.length) ++ [1]) :: rows).map packet,
    by rw [Peer.step, if_pos hwaits]; exact hsent, by rw [Peer.delete_eq], ?_, ?_⟩
  · rw [Peer.delete_eq, Peer.send_packets_eq]
    exact if_neg (by simp [hopen])
  · have hhead : Reads (readPacket ((reading readUInt).bind fun count =>
        Reader.item.map fun _ => count)) (packet (writeInt (.ofNat records.length) ++ [1]))
        (.ofNat records.length) := by
      refine reads_packet ((reads_uint _).bind ((Reads.item 1).map fun _ => _)) ?_
      rw [List.length_append, writeInt, LittleEndian.to_bytes_length]
      decide
    have hcounted : (UInt32.ofNat records.length).toNat = records.length := by
      rw [UInt32.toNat_ofNat']
      omega
    have hall : Reads ((readPacket (readRow peer.clientVersion)).times records.length)
        (rows.map packet).flatten (records.map peer.listedServer) := by
      rw [← hsame, ← hversion]
      exact reads_rows hrows hfits
    have hlist := hhead.bind (f := fun count =>
      (readPacket (readRow peer.clientVersion)).times count.toNat) (by rw [hcounted]; exact hall)
    have hdone := hlist []
    rw [List.append_nil] at hdone
    rw [← perform_list_servers_eq s unset filters config.gamename replies]
    exact hdone

/-- The configuration of game clients. -/
def clientConfig : Config :=
  { serverConfig with
    clientName := ascii "UT2K4CLIENT"
    isServer := false }

/-- A game client that says who it is and is verified. -/
def clientEvents : List SessionEvent :=
  [writeFString (ascii "hash") ++ writeFString (ascii "response") ++
      writeFString clientConfig.clientName ++ writeInt 3369 ++ [3] ++ writeFString (ascii "int"),
    [0]].map fun message => .read 0 (packet message)

/-- A filter that the server of `hostHeartbeat` meets. -/
def levelFilter : FilterProperties :=
  ⟨ascii "mapname", ascii "DM-Rankin", .equals⟩

/-- What the redis of `hostHeartbeat` answers to a scan. -/
def hostReplies : List (Option ScanReply) :=
  [some ⟨0, [ascii "ut2004:1:"]⟩]

/-- The redis that `hostHeartbeat` leaves. -/
def hostStore : Store :=
  Store.empty.performHeartbeat ⟨0, ascii "ut2004", hostRecord⟩

/-- A client asks for the servers of a level and reads the one that there is, without the level and
the players that `LoadServerCustomKeys` does not come to. -/
theorem list_answered_level :
    ∃ peer asked answered packets,
      (connected hostAddress.ip 0 0 0).run [clientConfig] 0 clientEvents = some peer ∧
      peer.step [clientConfig] 0 (.read 0 (packet (listRequest [levelFilter]))) = some asked ∧
      asked.step [clientConfig] 0 (.listed (hostStore.performListServers (fun _ => ⟨0, 0, 0, 0⟩)
        [levelFilter] (ascii "ut2004") hostReplies).1) = some answered ∧
      answered.sent = asked.sent ++ packets ∧
      readList 3369 packets.flatten = some ([⟨hostAddress.ip, 7777, 7778, ascii "host", [],
        ascii "xDeathMatch", 0, 0, some 32, some []⟩], []) := by
  let start := connected hostAddress.ip 0 0 0
  obtain ⟨peer, hrun, -⟩ :=
    Peer.run_sound 0 (@Peer.connected_sound [clientConfig] hostAddress.ip 0 0 0) clientEvents
  have hpeer : (start.run [clientConfig] 0 clientEvents).map
      (fun peer => (peer.config, peer.state, peer.clientVersion)) =
        some (some clientConfig, .waitRequest, 3369) := by
    decide +kernel
  rw [hrun, Option.map_some, Option.some.injEq, Prod.mk.injEq, Prod.mk.injEq] at hpeer
  obtain ⟨hconfig, hstate, hversion⟩ := hpeer
  obtain ⟨asked, hasked, -, hanswer⟩ := list_answered hrun hconfig rfl hstate
    (show [levelFilter].length < 128 by decide) (by decide +kernel) (by decide +kernel) 0
  have hopen : (start.run [clientConfig] 0
      (clientEvents ++ [.read 0 (packet (listRequest [levelFilter]))])).map (·.deleteFlag) =
        some false := by
    decide +kernel
  rw [Peer.run_concat, hrun, Option.bind_some, hasked] at hopen
  obtain ⟨answered, packets, hstep, -, hsent, hread⟩ := hanswer [] asked rfl
    (Option.some.inj hopen) hostStore (fun _ => ⟨0, 0, 0, 0⟩) hostReplies (by decide +kernel)
    (by decide +kernel)
  refine ⟨peer, asked, answered, packets, hrun, hasked, hstep, hsent, ?_⟩
  have hclient : peer.listedServer =
      { start with config := some clientConfig, clientVersion := 3369 }.listedServer :=
    listed_server_congr hconfig hversion
  rw [hversion, hclient] at hread
  rw [hread]
  decide +kernel

end OpenSpy.UTMaster
