import Mathlib.Data.Nat.Prime.Basic
import Mathlib.Data.Int.ModEq
import Mathlib.Tactic.IntervalCases
import Mathlib.Tactic.NormNum.GCD
import OpenSpy.Library.Decimal
import OpenSpy.Library.StreamCipher

/-!
# Encrypted passwords

GP and search clients send a password combined with a key stream and written in a base64 of
their own. `gspassenc` draws the stream from `gslame`, `base64_encode` and `base64_decode` are
the text format, and the handlers that read a password put them together.

`gslame` is a linear congruence modulo the prime `2 ^ 31 - 1`. `base64_decode` stores what it
reads in a block that it has allocated for the length of the text; a store outside is `none`.
-/

namespace OpenSpy

open Bytes StreamCipher

namespace GSPassword

/-- `if(a < 0) { a &= 0x7fffffff; a++; }`. -/
def foldSign (a : Int32) : Int32 :=
  if a < 0 then (a &&& 0x7fffffff) + 1 else a

/-- `gslame`. The additions wrap around. -/
def gslame (num : Int32) : Int32 :=
  let c := ((num >>> 16) &&& 0xffff) * 0x41a7
  let a := (num &&& 0xffff) * 0x41a7
  let a := foldSign (a + ((c &&& 0x7fff) <<< 16))
  foldSign (a + (c >>> 15))

/-- The number that `gspassenc` starts with, "gspy". -/
def gspy : Int32 :=
  0x79707367 &&& 0x7fffffff

/-- The next byte of the key stream. -/
def nextByte (num : Int32) : UInt8 × Int32 :=
  let num := gslame num
  ((num % 0xff).toInt.toNat.toUInt8, num)

/-- `gspassenc`. -/
def gspassenc (pass : Bytes) : Bytes :=
  (run (xorStep nextByte) gspy pass).1

/-- The alphabet of `base64_encode`. -/
def alphabet : Bytes :=
  ascii "ABCDEFGHIJKLMNOPQRSTUVWXYZabcdefghijklmnopqrstuvwxyz0123456789[]"

/-- `base[value & 63]` of `base64_encode`. -/
def symbol (value : UInt8) : UInt8 :=
  alphabet.getD (value &&& 63).toNat 0

/-- The four symbols for three bytes. -/
def encodeGroup (a b c : UInt8) : Bytes :=
  [symbol (a >>> 2), symbol (((a &&& 3) <<< 4) ||| ((b >>> 4) &&& 15)),
    symbol (((b &&& 15) <<< 2) ||| ((c >>> 6) &&& 3)), symbol c]

/-- The loop of `base64_encode`, which reads whole groups also where fewer bytes are left: the
symbols, and how many bytes the last group was short of. -/
def encodeLoop (data : Nat → UInt8) (len : Nat) : Bytes × Nat :=
  let group := encodeGroup (data 0) (data 1) (data 2)
  if len ≤ 3 then (group, 3 - len)
  else
    let rest := encodeLoop (fun i => data (i + 3)) (len - 3)
    (group ++ rest.1, rest.2)

/-- `base64_encode` of the first `len` bytes at `data`, without its NUL. -/
def base64Encode (data : Nat → UInt8) (len : Nat) : Bytes :=
  let (symbols, short) := encodeLoop data len
  symbols.take (symbols.length - short) ++ List.replicate short (char '_')

/-- The values of `base64_decode`. -/
def base : Bytes :=
  [0x00,0x00,0x00,0x00,0x00,0x00,0x00,0x00,0x00,0x00,0x00,0x00,0x00,0x00,0x00,0x00,
    0x00,0x00,0x00,0x00,0x00,0x00,0x00,0x00,0x00,0x00,0x00,0x00,0x00,0x00,0x00,0x00,
    0x00,0x00,0x00,0x00,0x00,0x00,0x00,0x00,0x00,0x00,0x00,0x3e,0x00,0x00,0x00,0x3f,
    0x34,0x35,0x36,0x37,0x38,0x39,0x3a,0x3b,0x3c,0x3d,0x00,0x00,0x00,0x00,0x00,0x00,
    0x00,0x00,0x01,0x02,0x03,0x04,0x05,0x06,0x07,0x08,0x09,0x0a,0x0b,0x0c,0x0d,0x0e,
    0x0f,0x10,0x11,0x12,0x13,0x14,0x15,0x16,0x17,0x18,0x19,0x3e,0x00,0x3f,0x00,0x00,
    0x00,0x1a,0x1b,0x1c,0x1d,0x1e,0x1f,0x20,0x21,0x22,0x23,0x24,0x25,0x26,0x27,0x28,
    0x29,0x2a,0x2b,0x2c,0x2d,0x2e,0x2f,0x30,0x31,0x32,0x33,0x00,0x00,0x00,0x00,0x00]

/-- `base[c]`. -/
def value (c : UInt8) : UInt8 :=
  base.getD c.toNat 0

/-- `*p++ = byte` in a block of `xlen` bytes, where `p` points behind what was stored. -/
def store (xlen : Nat) (stored : Bytes) (byte : UInt8) : Option Bytes :=
  if stored.length < xlen then some (stored ++ [byte]) else none

/-- The variables of `base64_decode`. -/
structure Decoding where
  step : Nat
  a : UInt8
  b : UInt8
  stored : Bytes

/-- The `switch` of `base64_decode` and the loop's `step++`. -/
def Decoding.read (xlen : Nat) (state : Decoding) (c : UInt8) : Option Decoding :=
  match state.step % 4 with
  | 0 => some { state with step := state.step + 1, a := value c }
  | 1 => do
      let stored ← store xlen state.stored ((state.a <<< 2) ||| (value c >>> 4))
      some { state with step := state.step + 1, b := value c, stored := stored }
  | 2 => do
      let stored ← store xlen state.stored (((state.b &&& 15) <<< 4) ||| (value c >>> 2))
      some { state with step := state.step + 1, a := value c, stored := stored }
  | _ => do
      let stored ← store xlen state.stored (((state.a &&& 3) <<< 6) ||| value c)
      some { state with step := state.step + 1, stored := stored }

/-- The characters that end a base64 text. -/
def isEnd (c : UInt8) : Bool :=
  c == char '=' || c == char '_' || c == 0

/-- The characters that `base64_decode` skips. -/
def isSkipped (c : UInt8) : Bool :=
  c ≤ char ' ' || 0x7f < c

/-- The loop of `base64_decode`. -/
def decodeLoop (xlen : Nat) (state : Decoding) : Bytes → Option Decoding
  | [] => some state
  | c :: data =>
      if isEnd c then some state
      else if isSkipped c then decodeLoop xlen state data
      else do
        let next ← state.read xlen c
        decodeLoop xlen next data

/-- `base64_decode`: the bytes before the NUL that it stores last. -/
def base64Decode (data : Bytes) : Option Bytes := do
  let xlen := data.length / 4 * 3 + 1
  let state ← decodeLoop xlen ⟨0, 0, 0, []⟩ data
  let _ ← store xlen state.stored 0
  some state.stored

/-- What the handlers do with an encrypted password: `base64_decode` and `gspassenc` in place,
and the result read as a C string. -/
def readPassenc (passenc : Bytes) : Option Bytes := do
  let dpass ← base64Decode passenc
  some (cString (gspassenc dpass ++ [0]))

/-- The bits of an `int`, read as a natural number. -/
def bits (a : Int32) : Nat :=
  a.toBitVec.toNat

theorem bits_add (a b : Int32) : bits (a + b) = (bits a + bits b) % 2 ^ 32 := rfl

theorem bits_mul (a b : Int32) : bits (a * b) = bits a * bits b % 2 ^ 32 := rfl

/-- The low bits. -/
theorem bits_mask {mask : Int32} {k : Nat} (h : bits mask = 2 ^ k - 1) (a : Int32) :
    bits (a &&& mask) = bits a % 2 ^ k := by
  rw [← Nat.and_two_pow_sub_one_eq_mod, ← h]
  rfl

theorem bits_shift_left (a : Int32) : bits (a <<< 16) = bits a * 2 ^ 16 % 2 ^ 32 := by
  rw [← Nat.shiftLeft_eq]
  exact BitVec.toNat_shiftLeft

theorem neg_iff_bits (a : Int32) : a < 0 ↔ 2 ^ 31 ≤ bits a := by
  rw [Int32.lt_iff_toBitVec_slt, Int32.toBitVec_zero, BitVec.slt_zero_eq_msb,
    BitVec.msb_eq_decide, decide_eq_true_iff, bits]

theorem bits_shift_right {a places : Int32} {k : Nat} (ha : bits a < 2 ^ 31)
    (hplaces : (places.toBitVec.smod 32).toNat = k) : bits (a >>> places) = bits a / 2 ^ k := by
  have hmsb : a.toBitVec.msb = false := by
    rw [BitVec.msb_eq_decide, decide_eq_false_iff_not]
    exact Nat.not_le.mpr ha
  have hshift := BitVec.sshiftRight_eq_of_msb_false (s := k) hmsb
  rw [bits, bits, ← Nat.shiftRight_eq_div_pow, ← BitVec.toNat_ushiftRight, ← hshift, ← hplaces]
  rfl

/-- A sum is folded to a number of 31 bits that it is congruent to. -/
theorem fold_sign_bits {a : Int32} (h : bits a ≤ 2 * (2 ^ 31 - 1)) :
    bits (foldSign a) ≤ 2 ^ 31 - 1 ∧ bits (foldSign a) ≡ bits a [MOD 2 ^ 31 - 1] := by
  rw [foldSign]
  split
  · next hneg =>
    have hlarge : 2 ^ 31 ≤ bits a := (neg_iff_bits a).mp hneg
    have hbits : bits ((a &&& 0x7fffffff) + 1) = bits a - (2 ^ 31 - 1) := by
      have hone : bits 1 = 1 := rfl
      rw [bits_add, bits_mask (k := 31) rfl, hone]
      omega
    rw [hbits, Nat.ModEq, ← Nat.mod_eq_sub_mod (by omega)]
    exact ⟨by omega, rfl⟩
  · next hpos =>
    have hsmall : ¬ 2 ^ 31 ≤ bits a := mt (neg_iff_bits a).mpr hpos
    exact ⟨by omega, rfl⟩

/-- The two folded sums are the product with 16807. -/
theorem gslame_congruent {num : Int32} (h : bits num < 2 ^ 31) :
    bits (gslame num) ≤ 2 ^ 31 - 1 ∧ bits (gslame num) ≡ 16807 * bits num [MOD 2 ^ 31 - 1] := by
  have hfactor : bits 0x41a7 = 16807 := rfl
  obtain ⟨c, hc⟩ : ∃ c : Int32, c = ((num >>> 16) &&& 0xffff) * 0x41a7 := ⟨_, rfl⟩
  obtain ⟨a, ha⟩ : ∃ a : Int32,
      a = (num &&& 0xffff) * 0x41a7 + ((c &&& (0x7fff : Int32)) <<< (16 : Int32)) := ⟨_, rfl⟩
  have hhigh : bits num / 2 ^ 16 < 2 ^ 15 := by omega
  have hbitsc : bits c = bits num / 2 ^ 16 * 16807 := by
    rw [hc, bits_mul, bits_mask (k := 16) rfl, bits_shift_right (k := 16) h rfl, hfactor,
      Nat.mod_eq_of_lt (by omega), Nat.mod_eq_of_lt (by omega)]
  have hbitsa : bits a = bits num % 2 ^ 16 * 16807 + bits c % 2 ^ 15 * 2 ^ 16 := by
    rw [ha, bits_add, bits_mul, bits_mask (k := 16) rfl, bits_shift_left,
      bits_mask (k := 15) rfl, hfactor]
    omega
  obtain ⟨hfold, hmod⟩ := fold_sign_bits (a := a) (by omega)
  have hcarry : bits (c >>> 15) = bits c / 2 ^ 15 := bits_shift_right (k := 15) (by omega) rfl
  have hsum : bits (foldSign a + (c >>> 15)) = bits (foldSign a) + bits c / 2 ^ 15 := by
    rw [bits_add, hcarry]
    omega
  obtain ⟨hlast, hmod'⟩ := fold_sign_bits (a := foldSign a + (c >>> 15)) (by omega)
  rw [gslame, ← hc, ← ha]
  refine ⟨hlast, ?_⟩
  calc bits (foldSign (foldSign a + (c >>> 15)))
      ≡ bits (foldSign a) + bits c / 2 ^ 15 [MOD 2 ^ 31 - 1] := hsum ▸ hmod'
    _ ≡ bits a + bits c / 2 ^ 15 [MOD 2 ^ 31 - 1] := hmod.add_right _
    _ ≡ 16807 * bits num [MOD 2 ^ 31 - 1] := by
        rw [Nat.ModEq]
        omega

/-- The generator is multiplication modulo a prime, and never comes to zero. -/
theorem gslame_bits {num : Int32} (hpos : 0 < bits num) (h : bits num < 2 ^ 31 - 1) :
    bits (gslame num) = 16807 * bits num % (2 ^ 31 - 1) ∧ 0 < bits (gslame num) := by
  obtain ⟨hle, hmod⟩ := @gslame_congruent num (by omega)
  have hne : 16807 * bits num % (2 ^ 31 - 1) ≠ 0 := by
    intro hzero
    have hdvd : 2 ^ 31 - 1 ∣ bits num :=
      Nat.Coprime.dvd_of_dvd_mul_left (by norm_num) (Nat.dvd_of_mod_eq_zero hzero)
    exact Nat.not_le.mpr h (Nat.le_of_dvd hpos hdvd)
  rw [Nat.ModEq] at hmod
  have hlt : bits (gslame num) < 2 ^ 31 - 1 := by
    refine Nat.lt_of_le_of_ne hle fun heq => hne ?_
    rw [← hmod, heq, Nat.mod_self]
  rw [Nat.mod_eq_of_lt hlt] at hmod
  exact ⟨hmod, by omega⟩

/-- Every symbol is read as the value that it was written for. -/
theorem symbol_reads (v : UInt8) :
    value (symbol v) = v &&& 63 ∧ isEnd (symbol v) = false ∧ isSkipped (symbol v) = false := by
  have hall : ∀ n : Fin 256, value (symbol (.ofNat n)) = .ofNat n &&& 63 ∧
      isEnd (symbol (.ofNat n)) = false ∧ isSkipped (symbol (.ofNat n)) = false := by
    decide +kernel
  simpa using hall ⟨v.toNat, v.toNat_lt⟩

theorem first_byte (a b : UInt8) :
    (((a >>> 2) &&& 63) <<< 2) |||
      (((((a &&& 3) <<< 4) ||| ((b >>> 4) &&& 15)) &&& 63) >>> 4) = a := by
  apply UInt8.eq_of_toBitVec_eq
  ext i hi
  interval_cases i <;> simp

theorem second_byte (a b c : UInt8) :
    ((((((a &&& 3) <<< 4) ||| ((b >>> 4) &&& 15)) &&& 63) &&& 15) <<< 4) |||
      (((((b &&& 15) <<< 2) ||| ((c >>> 6) &&& 3)) &&& 63) >>> 2) = b := by
  apply UInt8.eq_of_toBitVec_eq
  ext i hi
  interval_cases i <;> simp

theorem third_byte (b c : UInt8) :
    ((((((b &&& 15) <<< 2) ||| ((c >>> 6) &&& 3)) &&& 63) &&& 3) <<< 6) ||| (c &&& 63) = c := by
  apply UInt8.eq_of_toBitVec_eq
  ext i hi
  interval_cases i <;> simp

/-- The byte that a number gives, and the number after it. -/
theorem next_byte_bits {num : Int32} (hpos : 0 < bits num) (h : bits num < 2 ^ 31 - 1) :
    (nextByte num).1 = (16807 * bits num % (2 ^ 31 - 1) % 255).toUInt8 := by
  obtain ⟨hbits, -⟩ := gslame_bits hpos h
  have hint : (gslame num).toInt = bits (gslame num) :=
    BitVec.toInt_eq_toNat_of_lt (by
      show 2 * bits (gslame num) < 2 ^ 32
      omega)
  have hlen : (0xff : Int32).toInt = 255 := rfl
  rw [nextByte, Int32.toInt_mod, hint, hlen, hbits]
  rfl

/-- The key stream from any number of the generator on. -/
theorem key_stream_byte {num : Int32} (hpos : 0 < bits num) (h : bits num < 2 ^ 31 - 1)
    (pass : Bytes) (i : Nat) :
    (run (xorStep nextByte) num pass).1[i]? = pass[i]?.map fun byte =>
      byte ^^^ (16807 ^ (i + 1) * bits num % (2 ^ 31 - 1) % 255).toUInt8 := by
  induction pass generalizing num i with
  | nil => rfl
  | cons byte pass ih =>
      obtain ⟨hbits, hnext⟩ := gslame_bits hpos h
      have hlt : bits (gslame num) < 2 ^ 31 - 1 := hbits ▸ Nat.mod_lt _ (by decide)
      cases i with
      | zero => simp [run, xorStep, next_byte_bits hpos h]
      | succ i =>
          have hrest := ih hnext hlt i
          rw [hbits, Nat.mul_mod_mod, ← mul_assoc, ← pow_succ] at hrest
          exact hrest

/-- The numbers of the generator. -/
theorem gslame_iterate {num : Int32} (hpos : 0 < bits num) (h : bits num < 2 ^ 31 - 1) (i : Nat) :
    bits (gslame^[i] num) = 16807 ^ i * bits num % (2 ^ 31 - 1) ∧ 0 < bits (gslame^[i] num) := by
  induction i with
  | zero =>
      rw [pow_zero, one_mul, Nat.mod_eq_of_lt h]
      exact ⟨rfl, hpos⟩
  | succ i ih =>
      obtain ⟨hbits, hlast⟩ := ih
      have hlt : bits (gslame^[i] num) < 2 ^ 31 - 1 := hbits ▸ Nat.mod_lt _ (by decide)
      obtain ⟨hnext, hnextPos⟩ := gslame_bits hlast hlt
      rw [Function.iterate_succ_apply']
      refine ⟨?_, hnextPos⟩
      rw [hnext, hbits, Nat.mul_mod_mod, ← mul_assoc, ← pow_succ']

/-- Each byte of a password is combined with a power of 16807 modulo `2 ^ 31 - 1`, and the number
that it comes from is never zero. -/
theorem gspassenc_powers (pass : Bytes) (i : Nat) :
    (gspassenc pass)[i]? = pass[i]?.map (fun byte =>
        byte ^^^ (16807 ^ (i + 1) * 0x79707367 % (2 ^ 31 - 1) % 255).toUInt8) ∧
      bits (gslame^[i + 1] gspy) = 16807 ^ (i + 1) * 0x79707367 % (2 ^ 31 - 1) ∧
      0 < bits (gslame^[i + 1] gspy) := by
  have hpos : 0 < bits gspy := by decide
  have hlt : bits gspy < 2 ^ 31 - 1 := by decide
  exact ⟨key_stream_byte hpos hlt pass i, gslame_iterate hpos hlt (i + 1)⟩

/-- The characters that `base64_decode` reads. -/
def readSymbols (data : Bytes) : Bytes :=
  (data.takeWhile (!isEnd ·)).filter (!isSkipped ·)

/-- Skipped characters change nothing. -/
theorem decode_loop_eq (xlen : Nat) (state : Decoding) (data : Bytes) :
    decodeLoop xlen state data = (readSymbols data).foldlM (Decoding.read xlen) state := by
  induction data generalizing state with
  | nil => rfl
  | cons c data ih =>
      by_cases hend : isEnd c = true
      · simp [decodeLoop, readSymbols, hend]
      · by_cases hskip : isSkipped c = true
        · rw [decodeLoop, if_neg hend, if_pos hskip, ih]
          simp [readSymbols, hend, hskip]
        · rw [decodeLoop, if_neg hend, if_neg hskip]
          simp [readSymbols, hend, hskip, ih]

/-- Three bytes are stored for four symbols. -/
def Decoding.Counted (state : Decoding) : Prop :=
  state.stored.length = state.step * 3 / 4

/-- A step is defined exactly if what it has to store fits. -/
theorem read_counted {xlen : Nat} {state : Decoding} (h : state.Counted)
    (hfits : state.step * 3 / 4 ≤ xlen) (c : UInt8) :
    if (state.step + 1) * 3 / 4 ≤ xlen then
      ∃ next, state.read xlen c = some next ∧ next.Counted ∧ next.step = state.step + 1
    else state.read xlen c = none := by
  have hcount : state.stored.length = state.step * 3 / 4 := h
  obtain hphase | hphase | hphase | hphase : state.step % 4 = 0 ∨ state.step % 4 = 1 ∨
      state.step % 4 = 2 ∨ state.step % 4 = 3 := by omega
  · rw [if_pos (by omega), Decoding.read, hphase]
    exact ⟨_, rfl, by simp only [Decoding.Counted]; omega, rfl⟩
  all_goals
    rw [Decoding.read, hphase]
    simp only [store, Option.bind_eq_bind]
    split
    · rw [if_pos (by omega)]
      refine ⟨_, rfl, ?_, rfl⟩
      simp only [Decoding.Counted, List.length_append, List.length_singleton]
      omega
    · rw [if_neg (by omega), Option.bind_none]

/-- A run over symbols is defined exactly if all that it has to store fits. -/
theorem read_all_counted {xlen : Nat} (symbols : Bytes) {state : Decoding} (h : state.Counted)
    (hfits : state.step * 3 / 4 ≤ xlen) :
    if (state.step + symbols.length) * 3 / 4 ≤ xlen then
      ∃ last, symbols.foldlM (Decoding.read xlen) state = some last ∧ last.Counted ∧
        last.step = state.step + symbols.length
    else symbols.foldlM (Decoding.read xlen) state = none := by
  induction symbols generalizing state with
  | nil => simpa [hfits] using h
  | cons c symbols ih =>
      have hread := read_counted h hfits c
      have hlength : (c :: symbols).length = 1 + symbols.length := by
        rw [List.length_cons, Nat.add_comm]
      rw [hlength, ← Nat.add_assoc, List.foldlM_cons]
      split at hread
      · rename_i hroom
        obtain ⟨next, hnext, hcounted, hstep⟩ := hread
        have hrest := ih hcounted (by rw [hstep]; exact hroom)
        rw [hstep] at hrest
        rw [hnext]
        exact hrest
      · rename_i hroom
        rw [hread, if_neg (by omega)]
        rfl

/-- The bytes of `n` symbols and a NUL have room in a block for a text of a length. -/
theorem symbols_fit_iff {n len : Nat} (hle : n ≤ len) :
    n * 3 / 4 < len / 4 * 3 + 1 ↔ n % 4 ≤ 1 ∨ n / 4 < len / 4 := by
  have hgroups : n / 4 ≤ len / 4 := Nat.div_le_div_right hle
  have hbytes : n * 3 / 4 = n / 4 * 3 + n % 4 * 3 / 4 := by omega
  have hover : n % 4 * 3 / 4 = 0 ↔ n % 4 ≤ 1 := by omega
  omega

/-- When `base64_decode` stays inside of the block that it allocates. -/
theorem base64_decode_is_some_iff (data : Bytes) :
    (base64Decode data).isSome ↔ (readSymbols data).length % 4 ≤ 1 ∨
      (readSymbols data).length / 4 < data.length / 4 := by
  have hle : (readSymbols data).length ≤ data.length :=
    (List.length_filter_le _ _).trans (List.takeWhile_prefix _).length_le
  have hrun := @read_all_counted (data.length / 4 * 3 + 1) (readSymbols data) ⟨0, 0, 0, []⟩ rfl
    (Nat.zero_le _)
  rw [Nat.zero_add] at hrun
  rw [← symbols_fit_iff hle, base64Decode, decode_loop_eq]
  split at hrun
  · next hroom =>
    obtain ⟨last, hlast, hcounted, hstep⟩ := hrun
    have hcount : last.stored.length = (readSymbols data).length * 3 / 4 := hstep ▸ hcounted
    rw [hlast, ← hcount, Option.bind_eq_bind, Option.bind_some, store]
    split
    · next hnul => exact iff_of_true rfl hnul
    · next hnul => exact iff_of_false Bool.false_ne_true hnul
  · next hroom =>
    rw [hrun]
    simp only [Option.bind_eq_bind, Option.bind_none, Option.isSome_none, Bool.false_eq_true,
      false_iff]
    exact fun hfits => hroom (Nat.le_of_lt hfits)

section Phases

variable {xlen step : Nat} {a b : UInt8} {stored : Bytes}

/-- The first of four symbols stores nothing. -/
theorem read_first (h : step % 4 = 0) (c : UInt8) :
    Decoding.read xlen ⟨step, a, b, stored⟩ c = some ⟨step + 1, value c, b, stored⟩ := by
  simp only [Decoding.read, h]

/-- The second symbol stores the first byte. -/
theorem read_second (h : step % 4 = 1) (hroom : stored.length < xlen) (c : UInt8) :
    Decoding.read xlen ⟨step, a, b, stored⟩ c =
      some ⟨step + 1, a, value c, stored ++ [(a <<< 2) ||| (value c >>> 4)]⟩ := by
  simp [Decoding.read, h, store, hroom]

/-- The third symbol stores the second byte. -/
theorem read_third (h : step % 4 = 2) (hroom : stored.length < xlen) (c : UInt8) :
    Decoding.read xlen ⟨step, a, b, stored⟩ c =
      some ⟨step + 1, value c, b, stored ++ [((b &&& 15) <<< 4) ||| (value c >>> 2)]⟩ := by
  simp [Decoding.read, h, store, hroom]

/-- The fourth symbol stores the third byte. -/
theorem read_fourth (h : step % 4 = 3) (hroom : stored.length < xlen) (c : UInt8) :
    Decoding.read xlen ⟨step, a, b, stored⟩ c =
      some ⟨step + 1, a, b, stored ++ [((a &&& 3) <<< 6) ||| value c]⟩ := by
  simp [Decoding.read, h, store, hroom]

end Phases

/-- The first symbols of three bytes are read as the bytes that they are enough for. -/
theorem read_group {xlen k : Nat} {state : Decoding} (hphase : state.step % 4 = 0) (hk : k ≤ 3)
    (hroom : state.stored.length + k ≤ xlen) (a b c : UInt8) :
    ∃ next, ((encodeGroup a b c).take (k + 1)).foldlM (Decoding.read xlen) state = some next ∧
      next.step = state.step + k + 1 ∧ next.stored = state.stored ++ [a, b, c].take k := by
  obtain ⟨step, x, y, stored⟩ := state
  simp only at hphase hroom ⊢
  have hread := @read_first xlen step x y stored hphase (symbol (a >>> 2))
  rw [(symbol_reads _).1] at hread
  rcases k with _ | k
  · exact ⟨_, by
      simp only [encodeGroup, List.take_succ_cons, List.take_zero, List.foldlM_cons,
        List.foldlM_nil, hread, Option.bind_eq_bind, Option.bind_some]
      rfl, rfl, by simp⟩
  have hread2 := @read_second xlen (step + 1) ((a >>> 2) &&& 63) y stored (by omega) (by omega)
    (symbol (((a &&& 3) <<< 4) ||| ((b >>> 4) &&& 15)))
  rw [(symbol_reads _).1, first_byte] at hread2
  rcases k with _ | k
  · exact ⟨_, by
      simp only [encodeGroup, List.take_succ_cons, List.take_zero, List.foldlM_cons,
        List.foldlM_nil, hread, hread2, Option.bind_eq_bind, Option.bind_some]
      rfl, rfl, by simp⟩
  have hread3 := @read_third xlen (step + 1 + 1) ((a >>> 2) &&& 63)
    ((((a &&& 3) <<< 4) ||| ((b >>> 4) &&& 15)) &&& 63) (stored ++ [a]) (by omega)
    (by simp; omega) (symbol (((b &&& 15) <<< 2) ||| ((c >>> 6) &&& 3)))
  rw [(symbol_reads _).1, second_byte] at hread3
  rcases k with _ | k
  · exact ⟨_, by
      simp only [encodeGroup, List.take_succ_cons, List.take_zero, List.foldlM_cons,
        List.foldlM_nil, hread, hread2, hread3, Option.bind_eq_bind, Option.bind_some]
      rfl, rfl, by simp⟩
  have hread4 := @read_fourth xlen (step + 1 + 1 + 1)
    ((((b &&& 15) <<< 2) ||| ((c >>> 6) &&& 3)) &&& 63)
    ((((a &&& 3) <<< 4) ||| ((b >>> 4) &&& 15)) &&& 63) (stored ++ [a] ++ [b]) (by omega)
    (by simp; omega) (symbol c)
  rw [(symbol_reads _).1, third_byte] at hread4
  obtain rfl : k = 0 := by omega
  exact ⟨_, by
    simp only [encodeGroup, List.take_succ_cons, List.take_zero, List.foldlM_cons,
      List.foldlM_nil, hread, hread2, hread3, hread4, Option.bind_eq_bind, Option.bind_some]
    rfl, rfl, by simp⟩

/-- A text has four symbols for each group, and the last is short of what three bytes are more
than are left. -/
theorem encode_loop_length (data : Nat → UInt8) (len : Nat) :
    (encodeLoop data len).2 ≤ 3 ∧
      (encodeLoop data len).1.length = (len + 2) / 3 * 4 + 4 * (1 - len) ∧
      (encodeLoop data len).1.length * 3 = (len + (encodeLoop data len).2) * 4 := by
  fun_induction encodeLoop data len with
  | case1 data len group hle =>
      refine ⟨by simp, ?_, ?_⟩ <;> simp only [group, encodeGroup, List.length_cons,
        List.length_nil] <;> omega
  | case2 data len group hgt rest ih =>
      obtain ⟨hshort, hlength, hthird⟩ := ih
      have hgroup : group.length = 4 := rfl
      refine ⟨hshort, ?_, ?_⟩ <;> simp only [List.length_append, hgroup, rest] <;> omega

/-- Each character of a text is a symbol. -/
theorem mem_encode_loop {data : Nat → UInt8} {len : Nat} {c : UInt8}
    (h : c ∈ (encodeLoop data len).1) : ∃ v, c = symbol v := by
  fun_induction encodeLoop data len with
  | case1 data len group hle =>
      simp only [group, encodeGroup, List.mem_cons, List.not_mem_nil, or_false] at h
      obtain rfl | rfl | rfl | rfl := h <;> exact ⟨_, rfl⟩
  | case2 data len group hgt rest ih =>
      obtain hmem | hmem := List.mem_append.mp h
      · simp only [group, encodeGroup, List.mem_cons, List.not_mem_nil, or_false] at hmem
        obtain rfl | rfl | rfl | rfl := hmem <;> exact ⟨_, rfl⟩
      · exact ih hmem

/-- The symbols that are left when the last group is cut short are read as the bytes. -/
theorem read_encode_loop {xlen : Nat} (data : Nat → UInt8) (len : Nat) {state : Decoding}
    (hphase : state.step % 4 = 0) (hroom : state.stored.length + len ≤ xlen) :
    ∃ last, ((encodeLoop data len).1.take
        ((encodeLoop data len).1.length - (encodeLoop data len).2)).foldlM
          (Decoding.read xlen) state = some last ∧
      last.stored = state.stored ++ (List.range len).map data := by
  fun_induction encodeLoop data len generalizing state with
  | case1 =>
      rename_i data len group hle
      obtain ⟨last, hread, -, hstored⟩ :=
        read_group hphase hle hroom (data 0) (data 1) (data 2)
      have hcut : group.length - (3 - len) = len + 1 := by
        have hgroup : group.length = 4 := rfl
        omega
      refine ⟨last, hcut ▸ hread, hstored.trans ?_⟩
      rcases len with _ | _ | _ | _ | len
      · rfl
      · rfl
      · rfl
      · rfl
      · omega
  | case2 =>
      rename_i data len group hgt rest ih
      obtain ⟨next, hread, hstep, hstored⟩ := @read_group xlen 3 state hphase (Nat.le_refl 3)
        (by omega) (data 0) (data 1) (data 2)
      have hnext : next.stored.length = state.stored.length + 3 := by
        rw [hstored, List.length_append]
        rfl
      obtain ⟨last, hlast, hrest⟩ := @ih next (by omega) (by omega)
      obtain ⟨hshort, hlength, -⟩ : rest.2 ≤ 3 ∧
          rest.1.length = (len - 3 + 2) / 3 * 4 + 4 * (1 - (len - 3)) ∧ _ :=
        encode_loop_length (fun i => data (i + 3)) (len - 3)
      refine ⟨last, ?_, ?_⟩
      · have hgroup : group.length = 4 := rfl
        have hcut : (group ++ rest.1).length - rest.2 =
            group.length + (rest.1.length - rest.2) := by
          rw [List.length_append]
          omega
        have hwhole : group.foldlM (Decoding.read xlen) state =
            some next := hread
        simp only [hcut]
        rw [List.take_length_add_append, List.foldlM_append, hwhole]
        exact hlast
      · obtain ⟨more, rfl⟩ : ∃ more, len = 3 + more := ⟨len - 3, by omega⟩
        rw [hrest, hstored, List.range_add, List.map_append, List.map_map, List.append_assoc,
          Nat.add_sub_cancel_left]
        simp only [Function.comp_def, Nat.add_comm 3]
        rfl

/-- A text of symbols is read up to its end. -/
theorem read_symbols_append {symbols ends : Bytes} (hsymbols : ∀ c ∈ symbols, ∃ v, c = symbol v)
    (hends : ∀ c ∈ ends, isEnd c = true) : readSymbols (symbols ++ ends) = symbols := by
  have hread : ∀ c ∈ symbols, isEnd c = false ∧ isSkipped c = false := by
    intro c hc
    obtain ⟨v, rfl⟩ := hsymbols c hc
    exact (symbol_reads v).2
  have hstop : ends.takeWhile (!isEnd ·) = [] := by
    cases ends with
    | nil => rfl
    | cons c ends => simp [hends c List.mem_cons_self]
  rw [readSymbols, List.takeWhile_append_of_pos (fun c hc => by simp [(hread c hc).1]), hstop,
    List.append_nil, List.filter_eq_self]
  exact fun c hc => by simp [(hread c hc).2]

/-- `base64_decode` reads what `base64_encode` has written, whatever stood behind the bytes that
were encoded, and `base64_encode` stays inside of its block. -/
theorem base64_decode_encode (data : Nat → UInt8) (len : Nat) :
    base64Decode (base64Encode data len) = some ((List.range len).map data) ∧
      (base64Encode data len).length < len / 3 * 4 + 6 := by
  obtain ⟨hshort, hlength, hthird⟩ := encode_loop_length data len
  have hwhole : (base64Encode data len).length = (encodeLoop data len).1.length := by
    simp only [base64Encode, List.length_append, List.length_take, List.length_replicate]
    omega
  refine ⟨?_, by omega⟩
  have hread : readSymbols (base64Encode data len) = (encodeLoop data len).1.take
      ((encodeLoop data len).1.length - (encodeLoop data len).2) := by
    refine read_symbols_append (fun c hc => mem_encode_loop (List.mem_of_mem_take hc)) ?_
    intro c hc
    rw [List.eq_of_mem_replicate hc]
    decide
  obtain ⟨last, hlast, hstored⟩ := @read_encode_loop
    ((base64Encode data len).length / 4 * 3 + 1) data len ⟨0, 0, 0, []⟩ rfl
    (by simp only [List.length_nil]; omega)
  have hbytes : last.stored = (List.range len).map data := hstored
  have hcount : last.stored.length = len := by
    rw [hbytes, List.length_map, List.length_range]
  rw [base64Decode, decode_loop_eq, hread, hlast, Option.bind_eq_bind, Option.bind_some, store,
    if_pos (by omega), Option.bind_eq_bind, Option.bind_some, hbytes]

/-- A password comes back from what a client sends for it, up to a NUL inside of it. -/
theorem read_passenc_of_password (password : Bytes) (beyond : Nat → UInt8) :
    readPassenc (base64Encode (fun i => (gspassenc password).getD i (beyond i)) password.length) =
      some (cString password) := by
  have hlength : (gspassenc password).length = password.length := run_length _ _ _
  have hbytes : (List.range password.length).map
      (fun i => (gspassenc password).getD i (beyond i)) = gspassenc password := by
    refine List.ext_getElem (by simp [hlength]) fun i hi hi' => ?_
    simp [List.getElem?_eq_getElem hi']
  have hundone : gspassenc (gspassenc password) = password :=
    congrArg Prod.fst (run_xor_xor nextByte gspy password)
  have hnul : cString (password ++ [0]) = cString password := by
    rw [cString, List.takeWhile_append]
    split
    · next hall =>
      rw [cString, (List.takeWhile_prefix _).eq_of_length hall]
      simp
    · rfl
  rw [readPassenc, (base64_decode_encode _ _).1, hbytes, Option.bind_eq_bind, Option.bind_some,
    hundone, hnul]

/-- Reading a password stays inside of the block that is allocated for it exactly if the
characters that are read leave at most one over from whole groups of four, or are fewer groups
than the text has room for. -/
theorem read_passenc_stays_in_block (passenc : Bytes) :
    (readPassenc passenc).isSome ↔ (readSymbols passenc).length % 4 ≤ 1 ∨
      (readSymbols passenc).length / 4 < passenc.length / 4 := by
  rw [← base64_decode_is_some_iff]
  cases h : base64Decode passenc <;> simp [readPassenc, h]

end GSPassword

end OpenSpy
