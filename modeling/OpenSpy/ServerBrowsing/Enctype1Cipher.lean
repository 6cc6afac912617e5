import OpenSpy.Library.ByteTable
import OpenSpy.Library.Decimal
import OpenSpy.Library.StreamCipher

/-!
# The ciphers of encryption type 1

The functions of `enctype1_decoder.cpp` and `enctype1_encoder.cpp`. Their arrays hold a table
of 256 bytes, which only an `unsigned char` indexes, and registers behind it at fixed indices.
`enctype1Func7e` was written as the inverse of `enctype1Func7`: both go on from a key in the
same way, and `func6_func6e` says that the one undoes the other.
-/

namespace OpenSpy.ServerBrowsing

open StreamCipher

/-- The key of `enctype1_func2`: the table and `crypt[256]`, `crypt[257]`. -/
structure CryptKey where
  table : ByteTable
  n1 : UInt8
  n2 : UInt8

/-- The next byte of the key stream of `enctype1_func2`. -/
def func2Next (crypt : CryptKey) : UInt8 × CryptKey :=
  let n1 := crypt.n1 + 1
  let t := crypt.table.byte n1
  let n2 := crypt.n2 + t
  let table := (crypt.table.set n1 (crypt.table.byte n2)).set n2 t
  let t := t + table.byte n1
  (table.byte t, ⟨table, n1, n2⟩)

/-- `enctype1_func2`. -/
def enctype1Func2 (crypt : CryptKey) (data : Bytes) : Bytes × CryptKey :=
  run (xorStep func2Next) crypt data

/-- The body of the second loop of `enctype1_func3`. -/
def func3Swap (data : Bytes) (state : ByteTable × UInt8) (i : Nat) : ByteTable × UInt8 :=
  let (buff, pos) := state
  let tmp := buff.byte (UInt8.ofNat i)
  let pos := pos + (data.getD (i % data.length) 0 + tmp)
  ((buff.set (UInt8.ofNat i) (buff.byte pos)).set pos tmp, pos)

/-- `enctype1_func3`: the key of `enctype1_func2` made from the data. -/
def enctype1Func3 (data : Bytes) : CryptKey :=
  let swapped := (List.range 256).foldl (func3Swap data) (.ofFn (0xff - ·), 0)
  ⟨swapped.1, 0, 0⟩

/-- The key of `enctype1_func6`: the table and `enc1key[256]` to `enc1key[260]`. -/
structure Enc1Key where
  table : ByteTable
  r256 : UInt8
  r257 : UInt8
  r258 : UInt8
  r259 : UInt8
  r260 : UInt8

/-- `do mask = (mask << 1) + 1; while(mask < cnt)`. -/
def func5Mask (cnt mask : Nat) : Nat :=
  if 2 * mask + 1 < cnt then func5Mask cnt (2 * mask + 1) else 2 * mask + 1
termination_by cnt - mask

/-- The loop of `enctype1_func5`, where `rounds` rounds are left before `i` exceeds 11 and
`tmp` is reduced, which ends the loop: the result, `n1` and `n2`. -/
def func5Loop (id : Bytes) (table : ByteTable) (mask cnt : Nat) :
    Nat → Nat × Nat → Nat × Nat × Nat
  | rounds, (n1, n2) =>
      let n1 := (table.byte (UInt8.ofNat n1)).toNat + (id.getD n2 0).toNat
      let n2 := n2 + 1
      let (n1, n2) := if id.length ≤ n2 then (n1 + id.length, 0) else (n1, n2)
      let tmp := n1 &&& mask
      match rounds with
      | 0 => (tmp % cnt, n1, n2)
      | rounds + 1 =>
          if cnt < tmp then func5Loop id table mask cnt rounds (n1, n2) else (tmp, n1, n2)

/-- `enctype1_func5`. -/
def enctype1Func5 (cnt : Nat) (id : Bytes) (state : Nat × Nat) (table : ByteTable) :
    Nat × Nat × Nat :=
  if cnt = 0 then (0, state)
  else func5Loop id table (if 1 < cnt then func5Mask cnt 1 else 1) cnt 11 state

/-- The body of the second loop of `enctype1_func4`. -/
def func4Swap (id : Bytes) (state : ByteTable × Nat × Nat) (i : Nat) : ByteTable × Nat × Nat :=
  let (table, n) := state
  let (t1, n) := enctype1Func5 i id n table
  let t2 := table.byte (UInt8.ofNat i)
  ((table.set (UInt8.ofNat i) (table.byte (UInt8.ofNat t1))).set (UInt8.ofNat t1) t2, n)

/-- `enctype1_func4`: the key of `enctype1_func6` made from `id`. Without any bytes in `id` the
key stays as it is. -/
def enctype1Func4 (id : Bytes) (enc1key : Enc1Key) : Enc1Key :=
  if id.length < 1 then enc1key
  else
    let (table, n1, _) := (List.range 256).reverse.foldl (func4Swap id) (.ofFn (·), 0, 0)
    { table
      r256 := table.byte 1
      r257 := table.byte 3
      r258 := table.byte 5
      r259 := table.byte 7
      r260 := table.byte (UInt8.ofNat n1) }

/-- What `enctype1_func7` and `enctype1_func7e` do before they come to their own byte: the byte
to combine it with, and the key. -/
def func7Next (enc1key : Enc1Key) : UInt8 × Enc1Key :=
  let a := enc1key.r256
  let b := enc1key.r257
  let c := enc1key.table.byte a
  let r256 := a + 1
  let r257 := b + c
  let a := enc1key.r260
  let b := enc1key.table.byte r257
  let c := enc1key.table.byte a
  let table := enc1key.table.set a b
  let a := table.byte enc1key.r259
  let table := table.set r257 a
  let a := table.byte r256
  let table := table.set enc1key.r259 a
  let table := table.set r256 c
  let a := table.byte c
  let r258 := enc1key.r258 + a
  let c := table.byte enc1key.r259
  let b := table.byte r257
  let a := table.byte r258
  let c := c + b
  let b := table.byte enc1key.r260
  let c := c + b
  let b := table.byte c
  let c := table.byte r256
  let a := a + c
  let c := table.byte b
  let b := table.byte a
  (c ^^^ b, { enc1key with table, r256, r257, r258 })

/-- `enctype1_func7e`: encrypts a byte. -/
def enctype1Func7e (enc1key : Enc1Key) (v : UInt8) : UInt8 × Enc1Key :=
  let (pad, enc1key) := func7Next enc1key
  let c := pad ^^^ v
  (c, { enc1key with r260 := c, r259 := v })

/-- `enctype1_func7`: decrypts a byte. -/
def enctype1Func7 (enc1key : Enc1Key) (a : UInt8) : UInt8 × Enc1Key :=
  let (pad, enc1key) := func7Next enc1key
  let c := pad ^^^ a
  (c, { enc1key with r260 := a, r259 := c })

/-- `enctype1_func6e`. -/
def enctype1Func6e (enc1key : Enc1Key) (data : Bytes) : Bytes × Enc1Key :=
  run enctype1Func7e enc1key data

/-- `enctype1_func6`. -/
def enctype1Func6 (enc1key : Enc1Key) (data : Bytes) : Bytes × Enc1Key :=
  run enctype1Func7 enc1key data

/-- `enctype1_func8`: each byte is looked up. -/
def enctype1Func8 (enctype1Data data : Bytes) : Bytes :=
  data.map fun byte => enctype1Data.getD byte.toNat 0

/-- `enctype1_master_key`, with the NUL of the literal. -/
def enctype1MasterKey : Bytes :=
  [0x01, 0xba, 0xfa, 0xb2, 0x51, 0x00, 0x54, 0x80, 0x75, 0x16, 0x8e, 0x8e, 0x02, 0x08, 0x36, 0xa5,
   0x2d, 0x05, 0x0d, 0x16, 0x52, 0x07, 0xb4, 0x22, 0x8c, 0xe9, 0x09, 0xd6, 0xb9, 0x26, 0x00, 0x04,
   0x06, 0x05, 0x00, 0x13, 0x18, 0xc4, 0x1e, 0x5b, 0x1d, 0x76, 0x74, 0xfc, 0x50, 0x51, 0x06, 0x16,
   0x00, 0x51, 0x28, 0x00, 0x04, 0x0a, 0x29, 0x78, 0x51, 0x00, 0x01, 0x11, 0x52, 0x16, 0x06, 0x4a,
   0x20, 0x84, 0x01, 0xa2, 0x1e, 0x16, 0x47, 0x16, 0x32, 0x51, 0x9a, 0xc4, 0x03, 0x2a, 0x73, 0xe1,
   0x2d, 0x4f, 0x18, 0x4b, 0x93, 0x4c, 0x0f, 0x39, 0x0a, 0x00, 0x04, 0xc0, 0x12, 0x0c, 0x9a, 0x5e,
   0x02, 0xb3, 0x18, 0xb8, 0x07, 0x0c, 0xcd, 0x21, 0x05, 0xc0, 0xa9, 0x41, 0x43, 0x04, 0x3c, 0x52,
   0x75, 0xec, 0x98, 0x80, 0x1d, 0x08, 0x02, 0x1d, 0x58, 0x84, 0x01, 0x4e, 0x3b, 0x6a, 0x53, 0x7a,
   0x55, 0x56, 0x57, 0x1e, 0x7f, 0xec, 0xb8, 0xad, 0x00, 0x70, 0x1f, 0x82, 0xd8, 0xfc, 0x97, 0x8b,
   0xf0, 0x83, 0xfe, 0x0e, 0x76, 0x03, 0xbe, 0x39, 0x29, 0x77, 0x30, 0xe0, 0x2b, 0xff, 0xb7, 0x9e,
   0x01, 0x04, 0xf8, 0x01, 0x0e, 0xe8, 0x53, 0xff, 0x94, 0x0c, 0xb2, 0x45, 0x9e, 0x0a, 0xc7, 0x06,
   0x18, 0x01, 0x64, 0xb0, 0x03, 0x98, 0x01, 0xeb, 0x02, 0xb0, 0x01, 0xb4, 0x12, 0x49, 0x07, 0x1f,
   0x5f, 0x5e, 0x5d, 0xa0, 0x4f, 0x5b, 0xa0, 0x5a, 0x59, 0x58, 0xcf, 0x52, 0x54, 0xd0, 0xb8, 0x34,
   0x02, 0xfc, 0x0e, 0x42, 0x29, 0xb8, 0xda, 0x00, 0xba, 0xb1, 0xf0, 0x12, 0xfd, 0x23, 0xae, 0xb6,
   0x45, 0xa9, 0xbb, 0x06, 0xb8, 0x88, 0x14, 0x24, 0xa9, 0x00, 0x14, 0xcb, 0x24, 0x12, 0xae, 0xcc,
   0x57, 0x56, 0xee, 0xfd, 0x08, 0x30, 0xd9, 0xfd, 0x8b, 0x3e, 0x0a, 0x84, 0x46, 0xfa, 0x77, 0xb8,
   0x00]

/-- `find_master_key_offset`, with `none` for -1. -/
def findMasterKeyOffset (key : UInt8) (masterKey : Bytes) : Option Nat :=
  masterKey.findIdx? (· == key)

/-- `obfuscate_scramble_data`. -/
def obfuscateScrambleData (scrambleData masterKey : Bytes) : Bytes :=
  scrambleData.map fun byte =>
    match findMasterKeyOffset byte masterKey with
    | some offset => UInt8.ofNat offset
    | none => byte

set_option maxRecDepth 2000 in
/-- `sizeof(enctype1_master_key)`. -/
theorem master_key_length : enctype1MasterKey.length = 257 :=
  rfl

/-- `enctype1_func2` undoes itself from the same key. -/
theorem func2_func2 (crypt : CryptKey) (data : Bytes) :
    (enctype1Func2 crypt (enctype1Func2 crypt data).1).1 = data := by
  rw [enctype1Func2, enctype1Func2, run_xor_xor]

/-- `enctype1_func7` undoes `enctype1_func7e` from the same key, and both leave the same key. -/
theorem func7_func7e (enc1key : Enc1Key) (v : UInt8) :
    enctype1Func7 enc1key (enctype1Func7e enc1key v).1 = (v, (enctype1Func7e enc1key v).2) := by
  have hplain (pad : UInt8) : pad ^^^ (pad ^^^ v) = v := by
    rw [← UInt8.xor_assoc, UInt8.xor_self, UInt8.zero_xor]
  simp only [enctype1Func7, enctype1Func7e, hplain]

/-- `enctype1_func6` undoes `enctype1_func6e` from the same key, and both leave the same key. -/
theorem func6_func6e (enc1key : Enc1Key) (data : Bytes) :
    enctype1Func6 enc1key (enctype1Func6e enc1key data).1 =
      (data, (enctype1Func6e enc1key data).2) :=
  run_inverse func7_func7e enc1key data

/-- From an `id` that is not empty `enctype1_func4` makes the whole key. -/
theorem func4_overwrites {id : Bytes} (h : id ≠ []) (enc1key enc1key' : Enc1Key) :
    enctype1Func4 id enc1key = enctype1Func4 id enc1key' := by
  have hlen : ¬ id.length < 1 := by
    have := List.length_pos_iff.mpr h
    omega
  rw [enctype1Func4, enctype1Func4, if_neg hlen, if_neg hlen]

/-- A byte from one of the first 256 places of the master key is found again. -/
theorem func8_find {masterKey : Bytes} {byte : UInt8} {i : Nat} (hi : i < 256)
    (h : masterKey[i]? = some byte) :
    ∃ offset, findMasterKeyOffset byte masterKey = some offset ∧
      masterKey.getD (UInt8.ofNat offset).toNat 0 = byte := by
  obtain ⟨hlt, hbyte⟩ := List.getElem?_eq_some_iff.mp h
  cases hfind : findMasterKeyOffset byte masterKey with
  | none =>
      have hnone := List.findIdx?_eq_none_iff.mp hfind masterKey[i] (List.getElem_mem hlt)
      simp [hbyte] at hnone
  | some offset =>
      obtain ⟨hoffset, hfound, hbefore⟩ := List.findIdx?_eq_some_iff_getElem.mp hfind
      have hle : offset ≤ i := by
        by_contra hgt
        exact hbefore i (by omega) (by simp [hbyte])
      have hnat : (UInt8.ofNat offset).toNat = offset := by
        rw [UInt8.toNat_ofNat']
        omega
      refine ⟨offset, rfl, ?_⟩
      rw [hnat, List.getD_eq_getElem?_getD, List.getElem?_eq_getElem hoffset]
      exact eq_of_beq hfound

/-- Looking the obfuscated scramble bytes up gives them back. -/
theorem func8_obfuscate {masterKey scrambleData : Bytes}
    (h : ∀ byte ∈ scrambleData, ∃ i < 256, masterKey[i]? = some byte) :
    enctype1Func8 masterKey (obfuscateScrambleData scrambleData masterKey) = scrambleData := by
  rw [enctype1Func8, obfuscateScrambleData, List.map_map]
  calc scrambleData.map _ = scrambleData.map id := by
        refine List.map_congr_left fun byte hbyte => ?_
        obtain ⟨i, hi, hplace⟩ := h byte hbyte
        obtain ⟨offset, hfind, hlookup⟩ := func8_find hi hplace
        simp only [Function.comp_apply, hfind, hlookup, id]
    _ = scrambleData := List.map_id _

end OpenSpy.ServerBrowsing
