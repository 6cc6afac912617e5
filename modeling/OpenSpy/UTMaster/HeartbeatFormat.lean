import OpenSpy.UTMaster.Session

/-!
# A heartbeat as a game server writes it

A `WrittenHeartbeat` has what a game server tells of itself, and `WrittenHeartbeat.bytes` is its
message: each list behind the number of its entries. `written_heartbeat_read` says that the handler
gets what was written, but for colours, and `stated_entries_written` that the entries which such a
message states are those of its lists.
-/

namespace OpenSpy.UTMaster

open Bytes MachineInt

/-- A read gets a value from the bytes in front, and leaves what is behind them. -/
def Gets {α : Type} (read : Buffer → α × Buffer) (bytes : Bytes) (value : α) : Prop :=
  ∀ buffer rest, buffer.unread = bytes ++ rest →
    ∃ next, read buffer = (value, next) ∧ next.unread = rest

/-- A string that the reader finds the end of. -/
structure WireString where
  text : Bytes
  no_nul : 0 ∉ text
  short : text.length + 1 < 2 ^ 31
  whole : missingColour text ≤ 1

/-- A list whose length is an `int`. -/
structure WireList (α : Type) where
  entries : List α
  counted : entries.length < 2 ^ 31

/-- A player as a game server writes it. `skipped` is specific to version 2226. -/
structure WrittenPlayer where
  id : UInt32
  skipped : UInt32
  name : WireString
  ping : UInt32
  score : UInt32
  statsId : UInt32

/-- What a game server tells of itself. `unk4` and `botLevel` are there from version 3000 on. -/
structure WrittenHeartbeat where
  addresses : WireList WireString
  unk1 : UInt32
  address : WireString
  port : UInt32
  unk2 : UInt32
  hostname : WireString
  level : WireString
  gameGroup : WireString
  numPlayers : UInt32
  maxPlayers : UInt32
  unk3 : UInt32
  unk4 : UInt32
  botLevel : WireString
  fields : WireList (WireString × WireString)
  players : WireList WrittenPlayer

def WireString.bytes (string : WireString) : Bytes :=
  writeFString string.text

/-- A list behind its length. -/
def WireList.bytes {α : Type} (entryBytes : α → Bytes) (list : WireList α) : Bytes :=
  writeCompactInt list.entries.length ++ list.entries.flatMap entryBytes

def fieldBytes (field : WireString × WireString) : Bytes :=
  field.1.bytes ++ field.2.bytes

def WrittenPlayer.bytes (clientVersion : UInt32) (player : WrittenPlayer) : Bytes :=
  writeInt player.id ++ ((if clientVersion = 2226 then writeInt player.skipped else []) ++
    (player.name.bytes ++ (writeInt player.ping ++ (writeInt player.score ++
      writeInt player.statsId))))

/-- The level of the bots with the number in front of it. -/
def WrittenHeartbeat.botBytes (clientVersion : UInt32) (heartbeat : WrittenHeartbeat) : Bytes :=
  if clientVersion ≥ 3000 then writeInt heartbeat.unk4 ++ heartbeat.botLevel.bytes else []

/-- The message of a heartbeat. -/
def WrittenHeartbeat.bytes (clientVersion : UInt32) (heartbeat : WrittenHeartbeat) : Bytes :=
  heartbeat.addresses.bytes WireString.bytes ++ (writeInt heartbeat.unk1 ++
    (heartbeat.address.bytes ++ (writeInt heartbeat.port ++ (writeInt heartbeat.unk2 ++
    (heartbeat.hostname.bytes ++ (heartbeat.level.bytes ++ (heartbeat.gameGroup.bytes ++
    (writeInt heartbeat.numPlayers ++ (writeInt heartbeat.maxPlayers ++ (writeInt heartbeat.unk3 ++
    (heartbeat.botBytes clientVersion ++ (heartbeat.fields.bytes fieldBytes ++
      heartbeat.players.bytes (WrittenPlayer.bytes clientVersion)))))))))))))

/-- A string without its colours. -/
def WireString.plain (string : WireString) : Bytes :=
  stripColours string.text

def WrittenPlayer.record (player : WrittenPlayer) : PlayerRecord :=
  ⟨player.id.toInt32, player.name.plain, player.ping.toInt32, player.score.toInt32,
    player.statsId.toInt32⟩

/-- What the handler is to get of a heartbeat. -/
def WrittenHeartbeat.reading (clientVersion : UInt32) (heartbeat : WrittenHeartbeat) :
    HeartbeatReading where
  numAddresses := heartbeat.addresses.entries.length
  addresses := heartbeat.addresses.entries.map WireString.plain
  message :=
    { port := heartbeat.port
      hostname := heartbeat.hostname.plain
      level := heartbeat.level.plain
      gameGroup := heartbeat.gameGroup.plain
      numPlayers := heartbeat.numPlayers.toInt32
      maxPlayers := heartbeat.maxPlayers.toInt32
      botLevel := if clientVersion ≥ 3000 then heartbeat.botLevel.plain else []
      fields := heartbeat.fields.entries.map fun field => (field.1.plain, field.2.plain) }
  numFields := heartbeat.fields.entries.length
  numPlayerEntries := heartbeat.players.entries.length
  players := heartbeat.players.entries.map WrittenPlayer.record

section Reading

variable {α β : Type} {clientVersion : UInt32}

/-- A number. -/
theorem gets_uint (value : UInt32) : Gets readUInt (writeInt value) value := by
  intro buffer rest h
  have hlength : (writeInt value).length = 4 := LittleEndian.to_bytes_length 4 _
  have hint : buffer.readInt = (writeInt value, buffer.skipRead 4) := by
    rw [Buffer.readInt, if_neg (by simp [Buffer.readRemaining, h, hlength]), h,
      List.take_left' hlength]
  have hvalue : LittleEndian.toNat (writeInt value) = value.toNat :=
    LittleEndian.to_nat_to_bytes value.toNat_lt
  refine ⟨buffer.skipRead 4, by rw [readUInt, hint, hvalue, UInt32.ofNat_toNat], ?_⟩
  show buffer.unread.drop 4 = rest
  rw [h, List.drop_left' hlength]

/-- A string. -/
theorem WireString.gets (string : WireString) :
    Gets (readFString true) string.bytes string.plain := by
  rintro ⟨read, _⟩ rest rfl
  obtain ⟨hchars, hleft⟩ := read_write_fstring string.no_nul string.short read rest
  rw [Nat.sub_eq_zero_of_le string.whole, List.drop_zero] at hleft
  rw [WireString.bytes]
  generalize readFString true ⟨read, writeFString string.text ++ rest⟩ = result at *
  obtain ⟨value, next⟩ := result
  exact ⟨next, congrArg (·, next) hchars, hleft⟩

/-- The length of a list. -/
theorem WireList.gets_count (list : WireList α) :
    Gets readCompactInt (writeCompactInt list.entries.length) list.entries.length := by
  rintro ⟨read, _⟩ rest rfl
  have hcounted := list.counted
  have hcount := read_write_compact_int (show -2 ^ 31 < (list.entries.length : Int) by omega)
    (by omega) read rest
  rw [if_neg (by omega)] at hcount
  exact ⟨_, hcount, rfl⟩

/-- Entries one after the other. -/
theorem gets_entries {readEntry : Buffer → β × Buffer} {entryBytes : α → Bytes} {value : α → β}
    (h : ∀ entry, Gets readEntry (entryBytes entry) (value entry)) (entries : List α) :
    Gets (readEntries readEntry entries.length) (entries.flatMap entryBytes)
      (entries.map value) := by
  induction entries with
  | nil => exact fun buffer rest h => ⟨buffer, rfl, h⟩
  | cons entry entries ih =>
      intro buffer rest hbuffer
      rw [List.flatMap_cons, List.append_assoc] at hbuffer
      obtain ⟨behind, hentry, hbehind⟩ := h entry buffer _ hbuffer
      obtain ⟨next, hentries, hrest⟩ := ih behind rest hbehind
      refine ⟨next, ?_, hrest⟩
      rw [List.length_cons, readEntries, hentry]
      dsimp only
      rw [hentries]
      rfl

/-- The loop over the addresses. -/
theorem gets_addresses {addresses : List WireString} (h : addresses.length < 2 ^ 31) :
    Gets (readAddresses (.ofInt addresses.length)) (addresses.flatMap WireString.bytes)
      (addresses.map WireString.plain) := by
  induction addresses with
  | nil =>
      intro buffer rest hbuffer
      rw [List.length_nil, readAddresses, if_pos (by decide)]
      exact ⟨buffer, rfl, hbuffer⟩
  | cons string addresses ih =>
      intro buffer rest hbuffer
      rw [List.length_cons] at h
      rw [List.flatMap_cons, List.append_assoc] at hbuffer
      have hnonzero : Int32.ofInt (addresses.length + 1 : Nat) ≠ 0 := by
        intro hzero
        have hint := congrArg Int32.toInt hzero
        rw [Int32.toInt_ofInt_of_le (by omega) (by omega)] at hint
        exact absurd hint (by simp; omega)
      have hdown : Int32.ofInt (addresses.length + 1 : Nat) - 1 = .ofInt addresses.length := by
        rw [Nat.cast_add_one, Int32.ofInt_add]
        exact Int32.add_sub_cancel _ _
      obtain ⟨behind, hstring, hbehind⟩ := string.gets buffer _ hbuffer
      obtain ⟨next, hstrings, hrest⟩ := ih (by omega) behind rest hbehind
      refine ⟨next, ?_, hrest⟩
      rw [List.length_cons, readAddresses, if_neg hnonzero, hstring]
      dsimp only
      rw [hdown, hstrings]
      rfl

/-- A rule. -/
theorem gets_field (field : WireString × WireString) :
    Gets readField (fieldBytes field) (field.1.plain, field.2.plain) := by
  intro buffer rest h
  rw [fieldBytes, List.append_assoc] at h
  obtain ⟨behind, hfield, hbehind⟩ := field.1.gets buffer _ h
  obtain ⟨next, hproperty, hrest⟩ := field.2.gets behind rest hbehind
  exact ⟨next, by simp only [readField, hfield, hproperty], hrest⟩

/-- A number that is there in some versions only. -/
theorem gets_skipped {present : Prop} [Decidable present] (value : UInt32) (buffer : Buffer)
    {rest : Bytes} (h : buffer.unread = (if present then writeInt value else []) ++ rest) :
    (if present then (readUInt buffer).2 else buffer).unread = rest := by
  split at h
  case isTrue hpresent =>
    obtain ⟨next, hread, hnext⟩ := gets_uint value buffer rest h
    rw [if_pos hpresent, hread]
    exact hnext
  case isFalse hpresent =>
    rw [if_neg hpresent]
    exact h

/-- A player. -/
theorem WrittenPlayer.gets (player : WrittenPlayer) :
    Gets (readPlayer clientVersion) (player.bytes clientVersion) player.record := by
  intro buffer rest h
  simp only [WrittenPlayer.bytes, List.append_assoc] at h
  obtain ⟨behindId, hid, hbehind⟩ := gets_uint player.id buffer _ h
  have hskipped := gets_skipped player.skipped behindId hbehind
  obtain ⟨_, hname, hbehind⟩ := player.name.gets _ _ hskipped
  obtain ⟨_, hping, hbehind⟩ := gets_uint player.ping _ _ hbehind
  obtain ⟨_, hscore, hbehind⟩ := gets_uint player.score _ _ hbehind
  obtain ⟨next, hstatsId, hrest⟩ := gets_uint player.statsId _ _ hbehind
  refine ⟨next, ?_, hrest⟩
  simp only [readPlayer, hid, hname, hping, hscore, hstatsId]
  rfl

/-- The level of the bots. -/
theorem WrittenHeartbeat.gets_bots (heartbeat : WrittenHeartbeat) :
    Gets (fun buffer => if clientVersion ≥ 3000 then readFString true (readUInt buffer).2
        else ([], buffer))
      (heartbeat.botBytes clientVersion)
      (if clientVersion ≥ 3000 then heartbeat.botLevel.plain else []) := by
  intro buffer rest h
  rw [WrittenHeartbeat.botBytes] at h
  dsimp only
  split at h
  case isTrue hversion =>
    rw [if_pos hversion, if_pos hversion]
    rw [List.append_assoc] at h
    obtain ⟨behind, hread, hbehind⟩ := gets_uint heartbeat.unk4 buffer _ h
    rw [hread]
    exact heartbeat.botLevel.gets behind rest hbehind
  case isFalse hversion =>
    rw [if_neg hversion, if_neg hversion]
    exact ⟨buffer, rfl, h⟩

end Reading

/-- The handler gets what was written, but for colours, whatever is behind it. -/
theorem written_heartbeat_read (clientVersion : UInt32) (heartbeat : WrittenHeartbeat)
    (rest : Bytes) :
    readHeartbeat clientVersion ⟨[], heartbeat.bytes clientVersion ++ rest⟩ =
      heartbeat.reading clientVersion := by
  have hbuffer : (Buffer.mk [] (heartbeat.bytes clientVersion ++ rest)).unread =
      heartbeat.bytes clientVersion ++ rest := rfl
  generalize Buffer.mk [] (heartbeat.bytes clientVersion ++ rest) = buffer at *
  simp only [WrittenHeartbeat.bytes, WireList.bytes, List.append_assoc] at hbuffer
  -- One read after the other, each from where the last one stopped.
  obtain ⟨_, hnumAddresses, hbehind⟩ := heartbeat.addresses.gets_count _ _ hbuffer
  obtain ⟨_, haddresses, hbehind⟩ := gets_addresses heartbeat.addresses.counted _ _ hbehind
  obtain ⟨_, hunk1, hbehind⟩ := gets_uint heartbeat.unk1 _ _ hbehind
  obtain ⟨_, haddress, hbehind⟩ := heartbeat.address.gets _ _ hbehind
  obtain ⟨_, hport, hbehind⟩ := gets_uint heartbeat.port _ _ hbehind
  obtain ⟨_, hunk2, hbehind⟩ := gets_uint heartbeat.unk2 _ _ hbehind
  obtain ⟨_, hhostname, hbehind⟩ := heartbeat.hostname.gets _ _ hbehind
  obtain ⟨_, hlevel, hbehind⟩ := heartbeat.level.gets _ _ hbehind
  obtain ⟨_, hgameGroup, hbehind⟩ := heartbeat.gameGroup.gets _ _ hbehind
  obtain ⟨_, hnumPlayers, hbehind⟩ := gets_uint heartbeat.numPlayers _ _ hbehind
  obtain ⟨_, hmaxPlayers, hbehind⟩ := gets_uint heartbeat.maxPlayers _ _ hbehind
  obtain ⟨_, hunk3, hbehind⟩ := gets_uint heartbeat.unk3 _ _ hbehind
  obtain ⟨_, hbotLevel, hbehind⟩ := heartbeat.gets_bots _ _ hbehind
  obtain ⟨_, hnumFields, hbehind⟩ := heartbeat.fields.gets_count _ _ hbehind
  obtain ⟨_, hfields, hbehind⟩ := gets_entries gets_field heartbeat.fields.entries _ _ hbehind
  obtain ⟨_, hnumPlayerEntries, hbehind⟩ := heartbeat.players.gets_count _ _ hbehind
  obtain ⟨_, hplayers, -⟩ := gets_entries (fun player => player.gets) heartbeat.players.entries _ _
    hbehind
  rw [readHeartbeat, hnumAddresses]
  dsimp only
  simp only [haddresses, hunk1, haddress, hport, hunk2, hhostname, hlevel, hgameGroup, hnumPlayers,
    hmaxPlayers, hunk3, hbotLevel, hnumFields, hfields, hnumPlayerEntries, hplayers,
    Int.toNat_natCast]
  rfl

/-- A message that a game server writes states the entries of its lists. -/
theorem stated_entries_written (clientVersion : UInt32) (heartbeat : WrittenHeartbeat) :
    statedEntries clientVersion (heartbeat.bytes clientVersion) =
      heartbeat.addresses.entries.length + heartbeat.fields.entries.length +
        heartbeat.players.entries.length := by
  have hread := written_heartbeat_read clientVersion heartbeat []
  rw [List.append_nil] at hread
  rw [← turns_eq_stated, hread]
  simp [HeartbeatReading.turns, WrittenHeartbeat.reading]

end OpenSpy.UTMaster
