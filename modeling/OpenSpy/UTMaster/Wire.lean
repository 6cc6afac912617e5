import OpenSpy.Core.Buffer
import OpenSpy.Library.MachineInt

/-!
# Compact integers and strings of Unreal

A compact integer has its sign and six bits in the first byte and seven bits in each byte behind it.
A string has its length as a compact integer in front, and a NUL at its end that counts.
`read_write_compact_int` says what is read of an integer that was written, and
`read_write_fstring` what is read of a string.
-/

namespace OpenSpy.UTMaster

open MachineInt

/-- `abs`, which wraps around for the lowest `int`. -/
def absInt (value : Int) : Int :=
  int32 value.natAbs

/-- A byte of seven bits, with a mark if more are to follow. -/
def groupByte (absVal : Int) : UInt8 :=
  .ofInt (if absVal < 0x80 then absVal else absVal % 0x80 + 0x80)

/-- The nested blocks of `Write_CompactInt` behind the first byte. The last one writes the bits that
are left. -/
def writeGroups : Nat → Int → Bytes
  | 0, absVal => [.ofInt absVal]
  | more + 1, absVal =>
      groupByte absVal ::
        if groupByte absVal &&& 0x80 ≠ 0 then writeGroups more (absVal / 0x80) else []

/-- The first byte of `Write_CompactInt`, with the sign and a mark if more are to follow. -/
def firstByte (value : Int) : UInt8 :=
  .ofInt ((if value ≥ 0 then 0 else 0x80) +
    if absInt value < 0x40 then absInt value else absInt value % 0x40 + 0x40)

/-- `Peer::Write_CompactInt`: the bytes that it writes. -/
def writeCompactInt (value : Int) : Bytes :=
  firstByte value ::
    if firstByte value &&& 0x40 ≠ 0 then writeGroups 3 (absInt value / 0x40) else []

/-- The nested blocks of `Read_CompactInt` behind the first byte. The last byte is a `char` with its
sign. -/
def readGroups : Nat → Buffer → Int × Buffer
  | 0, buffer => (buffer.readByte.1.toBitVec.toInt, buffer.readByte.2)
  | more + 1, buffer =>
      let (b, buffer) := buffer.readByte
      let (value, buffer) := if b &&& 0x80 ≠ 0 then readGroups more buffer else (0, buffer)
      (int32 (value * 0x80 + (b.toNat % 0x80 : Nat)), buffer)

/-- `Peer::Read_CompactInt`. A value with the sign is doubled. -/
def readCompactInt (buffer : Buffer) : Int × Buffer :=
  let (b0, buffer) := buffer.readByte
  let (value, buffer) := if b0 &&& 0x40 ≠ 0 then readGroups 3 buffer else (0, buffer)
  let value := int32 (value * 0x40 + (b0.toNat % 0x40 : Nat))
  (if b0 &&& 0x80 ≠ 0 then int32 (value * 2) else value, buffer)

/-- The loop of `Read_FString` from the character `i` on. -/
def readChars (skipColours : Bool) (length : Nat) : Nat → Nat → Buffer → Bytes × Buffer
  | 0, _, buffer => ([], buffer)
  | fuel + 1, i, buffer =>
      if i < length then
        let (ch, buffer) := buffer.readByte
        if i + 1 = length ∧ ch = 0 then ([], buffer)
        else if skipColours ∧ ch = 0x1B then
          readChars skipColours length fuel (i + 4) buffer.readByte.2.readByte.2.readByte.2
        else
          let (result, buffer) := readChars skipColours length fuel (i + 1) buffer
          (ch :: result, buffer)
      else ([], buffer)

/-- `Peer::Read_FString`. -/
def readFString (skipColours : Bool) (buffer : Buffer) : Bytes × Buffer :=
  let (length, buffer) := readCompactInt buffer
  if sizeT length ≤ buffer.readRemaining then
    readChars skipColours length.toNat length.toNat 0 buffer
  else ([], buffer)

/-- `Peer::Write_FString`: the bytes that it writes. -/
def writeFString (input : Bytes) : Bytes :=
  writeCompactInt (int32 (input.length + 1)) ++ input ++ [0]

/-- A string without its colour sequences, each of which is a marker and three bytes. The last one
may be cut short. `skip` is what is left of a sequence that the string begins in. -/
def stripColoursFrom : Nat → Bytes → Bytes
  | _, [] => []
  | skip + 1, _ :: rest => stripColoursFrom skip rest
  | 0, ch :: rest =>
      if ch = 0x1B then stripColoursFrom 3 rest else ch :: stripColoursFrom 0 rest

def stripColours (s : Bytes) : Bytes :=
  stripColoursFrom 0 s

/-- The bytes that the last colour sequence lacks at the end of a string. -/
def missingFrom : Nat → Bytes → Nat
  | skip, [] => skip
  | skip + 1, _ :: rest => missingFrom skip rest
  | 0, ch :: rest => if ch = 0x1B then missingFrom 3 rest else missingFrom 0 rest

def missingColour (s : Bytes) : Nat :=
  missingFrom 0 s

section CompactInt

variable {value absVal : Int}

theorem bit_seven_iff (b : UInt8) : b &&& 0x80 ≠ 0 ↔ 0x80 ≤ b.toNat := by
  have hall : ∀ i : Fin 256, i.val &&& 0x80 ≠ 0 ↔ 0x80 ≤ i.val := by decide +kernel
  rw [← hall ⟨b.toNat, b.toNat_lt⟩, Ne, ← UInt8.toNat_inj]
  simp

theorem bit_six_iff (b : UInt8) : b &&& 0x40 ≠ 0 ↔ 0x40 ≤ b.toNat % 0x80 := by
  have hall : ∀ i : Fin 256, i.val &&& 0x40 ≠ 0 ↔ 0x40 ≤ i.val % 0x80 := by decide +kernel
  rw [← hall ⟨b.toNat, b.toNat_lt⟩, Ne, ← UInt8.toNat_inj]
  simp

theorem of_int_to_nat (hlow : 0 ≤ value) (hhigh : value < 256) :
    ((UInt8.ofInt value).toNat : Int) = value := by
  simp only [UInt8.ofInt, UInt8.toNat_ofNat']
  omega

/-- A `char` without its highest bit is not negative. -/
theorem to_int_of_lt {b : UInt8} (h : b.toNat < 0x80) : b.toBitVec.toInt = b.toNat := by
  rw [BitVec.toInt_eq_toNat_cond, UInt8.toNat_toBitVec, if_pos (by omega)]

theorem group_byte_to_nat (hlow : 0 ≤ absVal) :
    ((groupByte absVal).toNat : Int) =
      if absVal < 0x80 then absVal else absVal % 0x80 + 0x80 := by
  unfold groupByte
  split
  · exact of_int_to_nat hlow (by omega)
  · exact of_int_to_nat (by omega) (by omega)

/-- The mark of a byte says whether there are more bits. -/
theorem group_byte_more (hlow : 0 ≤ absVal) : groupByte absVal &&& 0x80 ≠ 0 ↔ 0x80 ≤ absVal := by
  have hbyte := group_byte_to_nat hlow
  rw [bit_seven_iff]
  split at hbyte <;> omega

/-- A byte of a group that has more behind it. -/
theorem read_groups_more {b : UInt8} (hbit : b &&& 0x80 ≠ 0) {more : Nat} {read rest : Bytes}
    {next : Int × Buffer} (hnext : readGroups more ⟨read ++ [b], rest⟩ = next) :
    readGroups (more + 1) ⟨read, b :: rest⟩ =
      (int32 (next.1 * 0x80 + (b.toNat % 0x80 : Nat)), next.2) := by
  subst hnext
  show (int32 ((if b &&& 0x80 ≠ 0 then _ else _ : Int × Buffer).1 * 0x80 + _),
    (if b &&& 0x80 ≠ 0 then _ else _ : Int × Buffer).2) = _
  rw [if_pos hbit]
  rfl

/-- The last byte of a group. -/
theorem read_groups_last {b : UInt8} (hbit : ¬ b &&& 0x80 ≠ 0) (more : Nat) (read rest : Bytes) :
    readGroups (more + 1) ⟨read, b :: rest⟩ =
      (int32 (0 * 0x80 + (b.toNat % 0x80 : Nat)), ⟨read ++ [b], rest⟩) := by
  show (int32 ((if b &&& 0x80 ≠ 0 then _ else _ : Int × Buffer).1 * 0x80 + _),
    (if b &&& 0x80 ≠ 0 then _ else _ : Int × Buffer).2) = _
  rw [if_neg hbit]
  rfl

/-- The bytes behind the first one are read back. -/
theorem read_write_groups (more : Nat) (hmore : more ≤ 3) (hlow : 0 ≤ absVal)
    (hhigh : absVal < 0x80 ^ (more + 1)) (read rest : Bytes) :
    readGroups more ⟨read, writeGroups more absVal ++ rest⟩ =
      (absVal, ⟨read ++ writeGroups more absVal, rest⟩) := by
  induction more generalizing absVal read with
  | zero =>
      have hbyte : ((UInt8.ofInt absVal).toNat : Int) = absVal := of_int_to_nat hlow (by omega)
      show ((UInt8.ofInt absVal).toBitVec.toInt, Buffer.mk _ _) = _
      rw [to_int_of_lt (by omega), hbyte]
      rfl
  | succ more ih =>
      have hbyte := group_byte_to_nat hlow
      have hsmall : absVal < 2 ^ 28 :=
        hhigh.trans_le (by exact_mod_cast Nat.pow_le_pow_right (by omega) (by omega : more + 2 ≤ 4))
      rw [writeGroups, List.cons_append]
      by_cases hbits : 0x80 ≤ absVal
      · have hmark := (group_byte_more hlow).mpr hbits
        have hrest : absVal / 0x80 < 0x80 ^ (more + 1) := by
          rw [Int.ediv_lt_iff_lt_mul (by omega)]
          rwa [pow_succ] at hhigh
        have hnext := ih (by omega) (by omega) hrest (read ++ [groupByte absVal])
        rw [if_neg (by omega)] at hbyte
        rw [if_pos hmark, read_groups_more hmark hnext, int32_eq_self (by omega) (by omega)]
        refine Prod.ext ?_ (by simp)
        show absVal / 0x80 * 0x80 + _ = absVal
        omega
      · have hmark := mt (group_byte_more hlow).mp hbits
        rw [if_pos (by omega)] at hbyte
        rw [if_neg hmark, List.nil_append, read_groups_last hmark,
          int32_eq_self (by omega) (by omega)]
        refine Prod.ext ?_ rfl
        show 0 * 0x80 + _ = absVal
        omega

/-- The first byte of an integer, as its number. -/
theorem first_byte_spec (hlow : -2 ^ 31 < value) (hhigh : value < 2 ^ 31) :
    (firstByte value &&& 0x40 ≠ 0 ↔ 0x40 ≤ value.natAbs) ∧
      (firstByte value &&& 0x80 ≠ 0 ↔ value < 0) ∧
        (firstByte value).toNat % 0x40 = value.natAbs % 0x40 := by
  have habs : absInt value = value.natAbs := int32_eq_self (by omega) (by omega)
  have hbyte : ((firstByte value).toNat : Int) = (if value ≥ 0 then 0 else 0x80) +
      if absInt value < 0x40 then absInt value else absInt value % 0x40 + 0x40 := by
    refine of_int_to_nat ?_ ?_ <;> split_ifs <;> omega
  rw [bit_six_iff, bit_seven_iff]
  split_ifs at hbyte <;> omega

/-- What the first byte makes of the value of the others. -/
def finishCompactInt (b0 : UInt8) (value : Int) : Int :=
  let value := int32 (value * 0x40 + (b0.toNat % 0x40 : Nat))
  if b0 &&& 0x80 ≠ 0 then int32 (value * 2) else value

/-- A first byte that has more behind it. -/
theorem read_compact_more {b0 : UInt8} (hbit : b0 &&& 0x40 ≠ 0) {read rest : Bytes}
    {next : Int × Buffer} (hnext : readGroups 3 ⟨read ++ [b0], rest⟩ = next) :
    readCompactInt ⟨read, b0 :: rest⟩ = (finishCompactInt b0 next.1, next.2) := by
  subst hnext
  show (finishCompactInt b0 (if b0 &&& 0x40 ≠ 0 then _ else _ : Int × Buffer).1,
    (if b0 &&& 0x40 ≠ 0 then _ else _ : Int × Buffer).2) = _
  rw [if_pos hbit]
  rfl

/-- A first byte that is the only one. -/
theorem read_compact_only {b0 : UInt8} (hbit : ¬ b0 &&& 0x40 ≠ 0) (read rest : Bytes) :
    readCompactInt ⟨read, b0 :: rest⟩ = (finishCompactInt b0 0, ⟨read ++ [b0], rest⟩) := by
  show (finishCompactInt b0 (if b0 &&& 0x40 ≠ 0 then _ else _ : Int × Buffer).1,
    (if b0 &&& 0x40 ≠ 0 then _ else _ : Int × Buffer).2) = _
  rw [if_neg hbit]
  rfl

/-- The first byte that was written and the rest of the number. -/
theorem finish_first_byte (hlow : -2 ^ 31 < value) (hhigh : value < 2 ^ 31) {more : Int}
    (hmore : more = value.natAbs / 0x40) :
    finishCompactInt (firstByte value) more =
      if value < 0 then int32 (value.natAbs * 2) else value := by
  obtain ⟨-, hsign, hlast⟩ := first_byte_spec hlow hhigh
  have hwhole : int32 (more * 0x40 + ((firstByte value).toNat % 0x40 : Nat)) = value.natAbs := by
    rw [int32_eq_self (by omega) (by omega)]
    omega
  rw [finishCompactInt, hwhole]
  by_cases hneg : value < 0
  · rw [if_pos (hsign.mpr hneg), if_pos hneg]
  · rw [if_neg (mt hsign.mp hneg), if_neg hneg]
    omega

/-- An integer that was written is read with all of its bytes, and doubled if it has a sign. -/
theorem read_write_compact_int (hlow : -2 ^ 31 < value) (hhigh : value < 2 ^ 31)
    (read rest : Bytes) :
    readCompactInt ⟨read, writeCompactInt value ++ rest⟩ =
      (if value < 0 then int32 (value.natAbs * 2) else value,
        ⟨read ++ writeCompactInt value, rest⟩) := by
  have habs : absInt value = value.natAbs := int32_eq_self (by omega) (by omega)
  obtain ⟨hmark, -, -⟩ := first_byte_spec hlow hhigh
  rw [writeCompactInt, List.cons_append, habs]
  by_cases hmore : 0x40 ≤ value.natAbs
  · have hgroups := @read_write_groups (value.natAbs / 0x40) 3 (Nat.le_refl 3) (by omega) (by omega)
      (read ++ [firstByte value]) rest
    rw [if_pos (hmark.mpr hmore), read_compact_more (hmark.mpr hmore) hgroups,
      finish_first_byte hlow hhigh rfl]
    simp
  · rw [if_neg (mt hmark.mp hmore), List.nil_append, read_compact_only (mt hmark.mp hmore),
      finish_first_byte hlow hhigh (by omega)]

/-- An integer that was written is read as it was, with all of its bytes, exactly if it is not
negative. -/
theorem compact_int_comes_back_iff (hlow : -2 ^ 31 < value) (hhigh : value < 2 ^ 31)
    (read rest : Bytes) :
    readCompactInt ⟨read, writeCompactInt value ++ rest⟩ =
        (value, ⟨read ++ writeCompactInt value, rest⟩) ↔ 0 ≤ value := by
  rw [read_write_compact_int hlow hhigh, Prod.mk.injEq, and_iff_left rfl]
  split
  · next hneg =>
      refine iff_of_false (fun hsame => ?_) (by omega)
      by_cases hfits : value.natAbs < 2 ^ 30
      · rw [int32_eq_self (by omega) (by omega)] at hsame
        omega
      · rw [int32_eq_sub (by omega) (by omega)] at hsame
        omega
  · exact iff_of_true rfl (by omega)

/-- The largest integer. -/
theorem compact_int_comes_back_max :
    readCompactInt ⟨[], writeCompactInt (2 ^ 31 - 1) ++ [7]⟩ =
      (2 ^ 31 - 1, ⟨[] ++ writeCompactInt (2 ^ 31 - 1), [7]⟩) :=
  (compact_int_comes_back_iff (by omega) (by omega) [] [7]).mpr (by omega)

/-- The sign of -1 is lost. -/
theorem negative_doubled :
    ¬ ∀ value : Int, -2 ^ 31 < value → value < 2 ^ 31 → ∀ read rest : Bytes,
      readCompactInt ⟨read, writeCompactInt value ++ rest⟩ =
        (value, ⟨read ++ writeCompactInt value, rest⟩) := by
  intro h
  have hminus := h (-1) (by omega) (by omega) [] []
  exact absurd hminus (by decide)

end CompactInt

section FString

variable {s read rest : Bytes}

/-- Three bytes that are skipped. -/
theorem skip_three_unread (buffer : Buffer) :
    buffer.readByte.2.readByte.2.readByte.2.unread = buffer.unread.drop 3 := by
  rw [Buffer.read_byte_unread, Buffer.read_byte_unread, Buffer.read_byte_unread, List.drop_drop,
    List.drop_drop]

/-- The loop over the characters ends behind the last one. -/
theorem read_chars_end (skipColours : Bool) {length i : Nat} (h : length ≤ i) (fuel : Nat)
    (buffer : Buffer) : readChars skipColours length fuel i buffer = ([], buffer) := by
  cases fuel with
  | zero => rfl
  | succ fuel => rw [readChars, if_neg (by omega)]

/-- The NUL at the end of a string. -/
theorem read_chars_nul (skipColours : Bool) {length i : Nat} (h : i + 1 = length) (fuel : Nat) :
    readChars skipColours length (fuel + 1) i ⟨read, 0 :: rest⟩ = ([], ⟨read ++ [0], rest⟩) := by
  rw [readChars, if_pos (by omega)]
  show (if i + 1 = length ∧ (0 : UInt8) = 0 then _ else _) = _
  rw [if_pos ⟨h, rfl⟩]
  rfl

/-- A colour marker. -/
theorem read_chars_colour {length i : Nat} (h : i < length) (fuel : Nat) :
    readChars true length (fuel + 1) i ⟨read, 0x1B :: rest⟩ =
      readChars true length fuel (i + 4)
        (Buffer.mk (read ++ [0x1B]) rest).readByte.2.readByte.2.readByte.2 := by
  rw [readChars, if_pos h]
  show (if i + 1 = length ∧ (0x1B : UInt8) = 0 then _ else _) = _
  rw [if_neg fun hnul => absurd hnul.2 (by decide)]
  rfl

/-- Any other character. -/
theorem read_chars_plain {length i : Nat} (h : i < length) (fuel : Nat) {ch : UInt8} (hnul : ch ≠ 0)
    (hcolour : ch ≠ 0x1B) :
    readChars true length (fuel + 1) i ⟨read, ch :: rest⟩ =
      (ch :: (readChars true length fuel (i + 1) ⟨read ++ [ch], rest⟩).1,
        (readChars true length fuel (i + 1) ⟨read ++ [ch], rest⟩).2) := by
  rw [readChars, if_pos h]
  show (if i + 1 = length ∧ ch = 0 then _ else if (true : Bool) ∧ ch = 0x1B then _ else _) = _
  rw [if_neg fun h => hnul h.2, if_neg fun h => hcolour h.2]
  rfl

/-- The characters of a string and its NUL are read. What the last colour sequence lacks is taken
from behind the NUL. -/
theorem read_chars_eq (hs : 0 ∉ s) {length fuel i : Nat} {buffer : Buffer}
    (hlength : length = i + s.length + 1) (hfuel : s.length < fuel)
    (hunread : buffer.unread = s ++ 0 :: rest) :
    (readChars true length fuel i buffer).1 = stripColours s ∧
      (readChars true length fuel i buffer).2.unread = rest.drop (missingColour s - 1) := by
  induction hn : s.length using Nat.strong_induction_on generalizing s i fuel buffer with
  | _ n ih =>
      obtain ⟨fuel, rfl⟩ : ∃ k, fuel = k + 1 := ⟨fuel - 1, by omega⟩
      obtain ⟨read, unread⟩ := buffer
      cases s with
      | nil =>
          obtain rfl : unread = 0 :: rest := hunread
          rw [read_chars_nul true (by rw [hlength]; rfl)]
          exact ⟨rfl, rfl⟩
      | cons ch u =>
          obtain ⟨hch, hu⟩ : 0 ≠ ch ∧ 0 ∉ u := by simpa using hs
          obtain rfl : unread = ch :: (u ++ 0 :: rest) := hunread
          rw [List.length_cons] at hlength hfuel hn
          by_cases hcolour : ch = 0x1B
          · subst hcolour
            have hskip := skip_three_unread ⟨read ++ [0x1B], u ++ 0 :: rest⟩
            rw [read_chars_colour (by omega)]
            rcases u with _ | ⟨a, _ | ⟨b, _ | ⟨c, u⟩⟩⟩
            -- the sequence is cut short
            · rw [read_chars_end true (by rw [hlength]; simp), hskip]
              exact ⟨rfl, rfl⟩
            · rw [read_chars_end true (by rw [hlength]; simp), hskip]
              exact ⟨rfl, rfl⟩
            · rw [read_chars_end true (by rw [hlength]; simp), hskip]
              exact ⟨rfl, rfl⟩
            · simp only [List.length_cons] at hlength hfuel hn
              have hrest : 0 ∉ u := fun hmem => hu (by simp [hmem])
              exact ih u.length (by omega) hrest (by omega) (by omega) hskip rfl
          · rw [read_chars_plain (by omega) _ (Ne.symm hch) hcolour]
            obtain ⟨hchars, hleft⟩ := @ih u.length (by omega) u hu fuel (i + 1)
              ⟨read ++ [ch], u ++ 0 :: rest⟩ (by omega) (by omega) rfl rfl
            refine ⟨?_, ?_⟩
            · rw [hchars, stripColours, stripColours, stripColoursFrom, if_neg hcolour]
            · rw [hleft, missingColour, missingColour, missingFrom, if_neg hcolour]

/-- What is read of a string that was written, if its length is an `int`. -/
theorem read_write_fstring (hs : 0 ∉ s) (hlength : s.length + 1 < 2 ^ 31) (read rest : Bytes) :
    (readFString true ⟨read, writeFString s ++ rest⟩).1 = stripColours s ∧
      (readFString true ⟨read, writeFString s ++ rest⟩).2.unread =
        rest.drop (missingColour s - 1) := by
  have hint : int32 (s.length + 1) = s.length + 1 := int32_eq_self (by omega) (by omega)
  have hfield : writeFString s ++ rest = writeCompactInt (s.length + 1) ++ (s ++ 0 :: rest) := by
    simp [writeFString, hint]
  have hcount := read_write_compact_int (show -2 ^ 31 < (s.length : Int) + 1 by omega) (by omega)
    read (s ++ 0 :: rest)
  rw [if_neg (by omega)] at hcount
  have hremains : sizeT (s.length + 1) ≤ Buffer.readRemaining
      ⟨read ++ writeCompactInt (s.length + 1), s ++ 0 :: rest⟩ := by
    have hsize := size_t_eq_self (show 0 ≤ (s.length : Int) + 1 by omega) (by omega)
    rw [Buffer.readRemaining, List.length_append, List.length_cons]
    omega
  rw [readFString, hfield, hcount]
  show (if _ then _ else _ : Bytes × Buffer).1 = _ ∧
    (if _ then _ else _ : Bytes × Buffer).2.unread = _
  rw [if_pos hremains]
  exact read_chars_eq hs (by omega) (by omega) rfl

/-- A byte less is left behind a byte that is read. -/
theorem read_byte_unread_length (buffer : Buffer) :
    buffer.unread.length ≤ buffer.readByte.2.unread.length + 1 := by
  rw [Buffer.read_byte_unread, List.length_drop]
  omega

/-- The loop reads no more than its characters and the rest of a colour sequence. -/
theorem read_chars_unread_length (skipColours : Bool) (length fuel i : Nat) (buffer : Buffer) :
    buffer.unread.length ≤ (readChars skipColours length fuel i buffer).2.unread.length +
      if i < length then length - i + 3 else 0 := by
  induction fuel generalizing i buffer with
  | zero => exact Nat.le_add_right _ _
  | succ fuel ih =>
      rw [readChars]
      split
      · next hi =>
          have hbyte := read_byte_unread_length buffer
          simp only
          split
          · show buffer.unread.length ≤ buffer.readByte.2.unread.length + _
            omega
          · split
            · have hskip := skip_three_unread buffer.readByte.2
              have hlen := congrArg List.length hskip
              rw [List.length_drop] at hlen
              have hrest := ih (i + 4) buffer.readByte.2.readByte.2.readByte.2.readByte.2
              split at hrest <;> omega
            · have hrest := ih (i + 1) buffer.readByte.2
              show _ ≤
                (readChars skipColours length fuel (i + 1) buffer.readByte.2).2.unread.length + _
              split at hrest <;> omega
      · exact Nat.le_refl _

/-- What is read of a length that is not an `int`. -/
theorem read_long_length {n : Nat} (hlong : 2 ^ 31 ≤ n) (read rest : Bytes) :
    ∃ count header, count.toNat + 3 < n ∧
      readCompactInt ⟨read, writeCompactInt (int32 n) ++ rest⟩ = (count, ⟨header, rest⟩) := by
  have hrange := int32_range n
  obtain ⟨k, hk⟩ := (int32_mod n).dvd
  generalize int32 n = value at hrange hk
  by_cases hlowest : value = -2 ^ 31
  · -- the absolute value of the lowest `int` is written as a zero with a sign
    subst hlowest
    exact ⟨0, read ++ [0x80], by omega, rfl⟩
  · rw [read_write_compact_int (by omega) (by omega)]
    refine ⟨_, _, ?_, rfl⟩
    split
    · by_cases hfits : value.natAbs < 2 ^ 30
      · rw [int32_eq_self (by omega) (by omega)]
        omega
      · rw [int32_eq_sub (by omega) (by omega)]
        omega
    · omega

/-- A string whose length is not an `int` is not read to its end. -/
theorem read_long_fstring (hlong : 2 ^ 31 ≤ s.length + 1) (read rest : Bytes) :
    (readFString true ⟨read, writeFString s ++ rest⟩).2.unread ≠ rest := by
  have hfield : writeFString s ++ rest =
      writeCompactInt (int32 (s.length + 1 : Nat)) ++ (s ++ 0 :: rest) := by
    simp [writeFString]
  obtain ⟨count, header, hcount, hread⟩ := read_long_length hlong read (s ++ 0 :: rest)
  have hbound := read_chars_unread_length true count.toNat count.toNat 0 ⟨header, s ++ 0 :: rest⟩
  intro hrest
  have hlen := congrArg List.length hrest
  rw [readFString, hfield, hread] at hlen
  simp only [List.length_append, List.length_cons] at hbound
  change ((if _ then _ else _ : Bytes × Buffer).2.unread).length = _ at hlen
  split at hlen
  · split at hbound <;> omega
  · simp only [List.length_append, List.length_cons] at hlen
    omega

/-- A string that was written is read without its colour sequences, and the fields behind it are
left as they are, exactly if its length with the NUL is an `int` and its last colour sequence lacks
no more than one byte. -/
theorem fstring_delimits_itself_iff {s : Bytes} (hs : 0 ∉ s) (read : Bytes) :
    (∀ rest, (readFString true ⟨read, writeFString s ++ rest⟩).1 = stripColours s ∧
        (readFString true ⟨read, writeFString s ++ rest⟩).2.unread = rest) ↔
      s.length + 1 < 2 ^ 31 ∧ missingColour s ≤ 1 := by
  constructor
  · intro h
    have hlength : s.length + 1 < 2 ^ 31 := by
      by_contra hlong
      exact read_long_fstring (Nat.le_of_not_lt hlong) read [] (h []).2
    refine ⟨hlength, ?_⟩
    have hleft := (read_write_fstring hs hlength read [7, 7]).2
    rw [(h [7, 7]).2] at hleft
    have hlen := congrArg List.length hleft
    rw [List.length_drop] at hlen
    simp only [List.length_cons, List.length_nil] at hlen
    omega
  · rintro ⟨hlength, hcolour⟩ rest
    obtain ⟨hchars, hleft⟩ := read_write_fstring hs hlength read rest
    refine ⟨hchars, ?_⟩
    rw [hleft, Nat.sub_eq_zero_of_le hcolour, List.drop_zero]

/-- A coloured name in front of another field. -/
theorem fstring_delimits_itself_coloured :
    (readFString true ⟨[], writeFString [0x1B, 1, 2, 3, 97] ++ [7]⟩).1 = [97] ∧
      (readFString true ⟨[], writeFString [0x1B, 1, 2, 3, 97] ++ [7]⟩).2.unread = [7] :=
  (fstring_delimits_itself_iff (by decide) []).mpr ⟨by decide, by decide⟩ [7]

/-- A colour marker at the end takes two bytes of the next field. -/
theorem marker_reads_beyond :
    ¬ ∀ s : Bytes, 0 ∉ s → ∀ read rest : Bytes,
      (readFString true ⟨read, writeFString s ++ rest⟩).1 = stripColours s ∧
        (readFString true ⟨read, writeFString s ++ rest⟩).2.unread = rest := by
  intro h
  have hleft := (h [97, 0x1B] (by decide) [] [2, 98, 0]).2
  exact absurd hleft (by decide)

end FString

end OpenSpy.UTMaster
