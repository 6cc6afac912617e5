import OpenSpy.Library.LittleEndian
import OpenSpy.UTMaster.Heartbeat
import OpenSpy.UTMaster.Wire

/-!
# Reading a heartbeat

`handle_heartbeat` reads three lists from a message, each behind the number of its entries. The loop
over the addresses counts down to 0, and the other two count up to their number. No loop asks
whether there is anything left to read, so that they turn as often as the message says:
`turns_within_message_iff`. What a message says is found with the reads of the handler here, and in
the format of the message by `stated_entries_written`.
-/

namespace OpenSpy.UTMaster

open Bytes MachineInt

/-- `MM::PlayerRecord`. -/
structure PlayerRecord where
  id : Int32
  name : Bytes
  ping : Int32
  score : Int32
  statsId : Int32
  deriving DecidableEq, Repr

/-- What `handle_heartbeat` reads, with the numbers of entries and what each turn of its loops
reads. -/
structure HeartbeatReading where
  numAddresses : Int
  addresses : List Bytes
  message : HeartbeatMessage
  numFields : Int
  numPlayerEntries : Int
  players : List PlayerRecord

/-- `Buffer::ReadInt` as a number. -/
def readUInt (buffer : Buffer) : UInt32 × Buffer :=
  (.ofNat (LittleEndian.toNat buffer.readInt.1), buffer.readInt.2)

/-- The turns of a loop that counts an `int` down to 0. A negative one goes through all values
below it and around to the highest. -/
def turnsDown (value : Int32) : Nat :=
  value.toBitVec.toNat

theorem turns_down_sub_one {value : Int32} (h : value ≠ 0) :
    turnsDown value = turnsDown (value - 1) + 1 := by
  have hne : value.toBitVec ≠ 0 := fun heq => h (Int32.toBitVec_inj.mp heq)
  unfold turnsDown
  rw [Int32.toBitVec_sub]
  show value.toBitVec.toNat = (value.toBitVec - 1#32).toNat + 1
  bv_omega

/-- `while(num_addresses--)`. -/
def readAddresses (numAddresses : Int32) (buffer : Buffer) : List Bytes × Buffer :=
  if numAddresses = 0 then ([], buffer)
  else
    let (ipAddress, buffer) := readFString true buffer
    let (addresses, buffer) := readAddresses (numAddresses - 1) buffer
    (ipAddress :: addresses, buffer)
termination_by turnsDown numAddresses
decreasing_by
  have := turns_down_sub_one ‹_›
  omega

/-- `for(int i=0;i<n;i++)` around a read. -/
def readEntries {α : Type} (readEntry : Buffer → α × Buffer) : Nat → Buffer → List α × Buffer
  | 0, buffer => ([], buffer)
  | n + 1, buffer =>
      let (entry, buffer) := readEntry buffer
      let (entries, buffer) := readEntries readEntry n buffer
      (entry :: entries, buffer)

/-- A turn of the loop over the rules. -/
def readField (buffer : Buffer) : (Bytes × Bytes) × Buffer :=
  let (field, buffer) := readFString true buffer
  let (property, buffer) := readFString true buffer
  ((field, property), buffer)

/-- A turn of the loop over the players. Version 2226 has an integer that is skipped. -/
def readPlayer (clientVersion : UInt32) (buffer : Buffer) : PlayerRecord × Buffer :=
  let (id, buffer) := readUInt buffer
  let buffer := if clientVersion = 2226 then (readUInt buffer).2 else buffer
  let (name, buffer) := readFString true buffer
  let (ping, buffer) := readUInt buffer
  let (score, buffer) := readUInt buffer
  let (statsId, buffer) := readUInt buffer
  (⟨id.toInt32, name, ping.toInt32, score.toInt32, statsId.toInt32⟩, buffer)

/-- `Peer::handle_heartbeat`: what it reads. -/
def readHeartbeat (clientVersion : UInt32) (buffer : Buffer) : HeartbeatReading :=
  let (numAddresses, buffer) := readCompactInt buffer
  let (addresses, buffer) := readAddresses (.ofInt numAddresses) buffer
  let (_, buffer) := readUInt buffer -- unknown data
  let (_, buffer) := readFString true buffer -- the address, which is only logged
  let (port, buffer) := readUInt buffer
  let (_, buffer) := readUInt buffer
  let (hostname, buffer) := readFString true buffer
  let (level, buffer) := readFString true buffer
  let (gameGroup, buffer) := readFString true buffer
  let (numPlayers, buffer) := readUInt buffer
  let (maxPlayers, buffer) := readUInt buffer
  let (_, buffer) := readUInt buffer
  let (botLevel, buffer) :=
    if clientVersion ≥ 3000 then readFString true (readUInt buffer).2 else ([], buffer)
  let (numFields, buffer) := readCompactInt buffer
  let (fields, buffer) := readEntries readField numFields.toNat buffer
  let (numPlayerEntries, buffer) := readCompactInt buffer
  let (players, _) := readEntries (readPlayer clientVersion) numPlayerEntries.toNat buffer
  { numAddresses := numAddresses
    addresses := addresses
    message := ⟨port, hostname, level, gameGroup, numPlayers.toInt32, maxPlayers.toInt32, botLevel,
      fields⟩
    numFields := numFields
    numPlayerEntries := numPlayerEntries
    players := players }

/-- The turns of the three loops. -/
def HeartbeatReading.turns (reading : HeartbeatReading) : Nat :=
  reading.addresses.length + reading.message.fields.length + reading.players.length

/-- A record without rules and mutators. -/
def ServerRecord.blank : ServerRecord :=
  ⟨0, ⟨inaddrNone, 0⟩, 0, [], [], [], [], 0, 0, [], []⟩

/-- The rules, mutators and players that the loops make. -/
def HeartbeatReading.created (reading : HeartbeatReading) : Nat :=
  let record := reading.message.fields.foldl addField .blank
  record.rules.length + record.mutators.length + reading.players.length

/-- Where a message goes on behind its addresses: the numbers and strings up to the rules. -/
def behindHeader (clientVersion : UInt32) (buffer : Buffer) : Buffer :=
  let skipUInt := fun buffer => (readUInt buffer).2
  let skipString := fun buffer => (readFString true buffer).2
  let header := skipUInt (skipUInt (skipUInt (skipString (skipString (skipString
    (skipUInt (skipUInt (skipString (skipUInt buffer)))))))))
  if clientVersion ≥ 3000 then skipString (skipUInt header) else header

/-- The number of entries that a message states in front of its addresses, its rules and its
players. -/
def statedEntries (clientVersion : UInt32) (message : Bytes) : Nat :=
  let (numAddresses, buffer) := readCompactInt ⟨[], message⟩
  let behindAddresses :=
    (fun buffer => (readFString true buffer).2)^[turnsDown (.ofInt numAddresses)] buffer
  let (numFields, buffer) := readCompactInt (behindHeader clientVersion behindAddresses)
  let behindFields := (fun buffer => (readField buffer).2)^[numFields.toNat] buffer
  turnsDown (.ofInt numAddresses) + numFields.toNat + (readCompactInt behindFields).1.toNat

section Turns

/-- The loop over the addresses turns as often as it counts down. -/
theorem read_addresses_length (numAddresses : Int32) (buffer : Buffer) :
    (readAddresses numAddresses buffer).1.length = turnsDown numAddresses := by
  fun_induction readAddresses numAddresses buffer with
  | case1 buffer => rfl
  | case2 numAddresses buffer hne ipAddress next _ addresses rest hrest ih =>
      rw [List.length_cons, turns_down_sub_one hne, ← ih, hrest]

/-- It leaves what is behind that many strings. -/
theorem read_addresses_rest (numAddresses : Int32) (buffer : Buffer) :
    (readAddresses numAddresses buffer).2 =
      (fun buffer => (readFString true buffer).2)^[turnsDown numAddresses] buffer := by
  fun_induction readAddresses numAddresses buffer with
  | case1 buffer => rfl
  | case2 numAddresses buffer hne ipAddress next hread addresses rest hrest ih =>
      rw [turns_down_sub_one hne, Function.iterate_succ_apply, hread, ← ih, hrest]

/-- The other loops turn as often as they are told. -/
theorem read_entries_length {α : Type} (readEntry : Buffer → α × Buffer) (n : Nat)
    (buffer : Buffer) : (readEntries readEntry n buffer).1.length = n := by
  induction n generalizing buffer with
  | zero => rfl
  | succ n ih => exact congrArg (· + 1) (ih _)

theorem read_entries_rest {α : Type} (readEntry : Buffer → α × Buffer) (n : Nat)
    (buffer : Buffer) :
    (readEntries readEntry n buffer).2 = (fun buffer => (readEntry buffer).2)^[n] buffer := by
  induction n generalizing buffer with
  | zero => rfl
  | succ n ih => exact ih _

/-- The lists are as long as the message states. -/
theorem turns_eq_stated (clientVersion : UInt32) (message : Bytes) :
    (readHeartbeat clientVersion ⟨[], message⟩).turns = statedEntries clientVersion message := by
  unfold HeartbeatReading.turns readHeartbeat statedEntries behindHeader
  simp only [read_addresses_length, read_addresses_rest, read_entries_length, read_entries_rest]
  by_cases hversion : clientVersion ≥ 3000
  · simp only [if_pos hversion]
  · simp only [if_neg hversion]

/-- A rule is a new one or takes the place of another. -/
theorem set_rule_length (field property : Bytes) (rules : List (Bytes × Bytes)) :
    (setRule field property rules).length ≤ rules.length + 1 := by
  induction rules with
  | nil => exact Nat.le_refl _
  | cons rule rules ih =>
      rw [setRule]
      split
      · simp
      · split
        · simp
        · simpa using ih

/-- A turn of the loop over the rules makes one entry at most. -/
theorem add_fields_entries (fields : List (Bytes × Bytes)) (record : ServerRecord) :
    (fields.foldl addField record).rules.length + (fields.foldl addField record).mutators.length ≤
      record.rules.length + record.mutators.length + fields.length := by
  induction fields generalizing record with
  | nil => exact Nat.le_refl _
  | cons field fields ih =>
      have hrest := ih (addField record field)
      have hfield : (addField record field).rules.length +
          (addField record field).mutators.length ≤
            record.rules.length + record.mutators.length + 1 := by
        unfold addField
        split
        · simp only [List.length_append, List.length_singleton]
          omega
        · have hrule := set_rule_length field.1 field.2 record.rules
          show (setRule field.1 field.2 record.rules).length + record.mutators.length ≤ _
          omega
      rw [List.foldl_cons, List.length_cons]
      omega

/-- The loops make no more records than they have turns. -/
theorem created_le_turns (reading : HeartbeatReading) : reading.created ≤ reading.turns := by
  have hfields := add_fields_entries reading.message.fields .blank
  have hblank : ServerRecord.blank.rules.length + ServerRecord.blank.mutators.length = 0 := rfl
  show _ + _ + reading.players.length ≤
    reading.addresses.length + reading.message.fields.length + reading.players.length
  omega

/-- The loops of `handle_heartbeat` turn, and make records, no more often than there are bytes in
the message exactly if the message does not state more entries than that. A negative number of
addresses counts as `2 ^ 32` more than it is, and a negative number of rules or players as none. -/
theorem turns_within_message_iff (clientVersion : UInt32) (message : Bytes) :
    ((readHeartbeat clientVersion ⟨[], message⟩).turns ≤ message.length ∧
        (readHeartbeat clientVersion ⟨[], message⟩).created ≤ message.length) ↔
      statedEntries clientVersion message ≤ message.length := by
  rw [← turns_eq_stated]
  exact and_iff_left_of_imp (created_le_turns _).trans

/-- The addresses are a part of what a message states. -/
theorem addresses_le_stated (clientVersion : UInt32) (message : Bytes) :
    turnsDown (.ofInt (readCompactInt ⟨[], message⟩).1) ≤ statedEntries clientVersion message :=
  (Nat.le_add_right _ _).trans (Nat.le_add_right _ _)

/-- Five bytes state that there are -1 addresses. -/
theorem negative_count_turns :
    ¬ ∀ (clientVersion : UInt32) (message : Bytes),
      (readHeartbeat clientVersion ⟨[], message⟩).turns ≤ message.length ∧
        (readHeartbeat clientVersion ⟨[], message⟩).created ≤ message.length := by
  intro h
  have hturns := (h 3369 [0x7F, 0xFF, 0xFF, 0xFF, 0xFF]).1
  rw [turns_eq_stated] at hturns
  have hstated := addresses_le_stated 3369 [0x7F, 0xFF, 0xFF, 0xFF, 0xFF]
  have haddresses : turnsDown
      (.ofInt (readCompactInt ⟨[], [0x7F, 0xFF, 0xFF, 0xFF, 0xFF]⟩).1) = 4294967295 := by decide
  rw [haddresses] at hstated
  exact absurd (hstated.trans hturns) (by decide)

end Turns

end OpenSpy.UTMaster
