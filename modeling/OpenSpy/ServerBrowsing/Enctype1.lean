import OpenSpy.Library.MachineInt
import OpenSpy.ServerBrowsing.Enctype1Cipher
import OpenSpy.ServerBrowsing.ShareTree

/-!
# Replies of encryption type 1

`create_enctype1_buffer` puts three layers of encryption on a reply and writes a header of 58
bytes that carries the keys, all but the validate key. The repository declares
`enctype1_decoder`, which reads the header, but has only the functions that it calls.
`enctype1Decode` puts them together by the header that the encoder writes.

The decoder gives the reply back as long as the key stream of the shared layer lasts
(`decode_reply`). The layer covers all but 17 of the first half of the bytes. For a reply of less
than 516132 bytes the key stream always lasts, for one of 518022 it never does, and in between its
key decides (`sharedLimit`).
-/

namespace OpenSpy.ServerBrowsing

open MachineInt Bytes

/-- The bytes of an `unsigned int` in memory on a little-endian host. -/
def intBytes (value : UInt32) : Bytes :=
  [value.toUInt8, (value >>> 8).toUInt8, (value >>> 16).toUInt8, (value >>> 24).toUInt8]

/-- The bytes of `htonl(value)` in memory. -/
def networkBytes (value : UInt32) : Bytes :=
  (intBytes value).reverse

/-- The number that bytes in network order stand for. -/
def ofNetworkBytes (bytes : Bytes) : Nat :=
  bytes.foldl (fun value byte => 256 * value + byte.toNat) 0

/-- What `rand()` returns in the course of `create_enctype1_buffer`. -/
structure Enctype1Rand where
  encshare4Data : UInt32
  keys : Vector UInt8 16
  unused : Vector UInt8 13
  unknown : UInt8
  unusedEnd : Vector UInt8 18

/-- The scramble bytes chosen. -/
def Enctype1Rand.scrambleData (rand : Enctype1Rand) : Bytes :=
  rand.keys.toList.map fun key => enctype1MasterKey.getD key.toNat 0

/-- The shared layer, which both sides apply alike: `encshare1` on `(len >> 1) - 17` bytes if
that is not negative. -/
def sharedLayer (seed data : Bytes) : Option Bytes :=
  if 17 ≤ data.length / 2 then do
    let tbuff ← encshare4 seed Tbuff.zero
    (encshare1 tbuff (data.take (data.length / 2 - 17))).map
      (· ++ data.drop (data.length / 2 - 17))
  else some data

/-- The layer of `enctype1_func2`, which both sides apply alike. -/
def func2Layer (scrambleData data : Bytes) : Bytes :=
  (enctype1Func2 (enctype1Func3 scrambleData) data).1

/-- The layer of the validate key: `func`, which is `enctype1_func6` or `enctype1_func6e`, on
`(len >> 2) - 5` bytes if that is not negative. `stack` is what the key's memory holds before. -/
def func6Layer (func : Enc1Key → Bytes → Bytes × Enc1Key) (validateKey : Bytes)
    (stack : Enc1Key) (data : Bytes) : Bytes :=
  if 5 ≤ data.length / 4 then
    (func (enctype1Func4 (cString validateKey) stack) (data.take (data.length / 4 - 5))).1 ++
      data.drop (data.length / 4 - 5)
  else data

/-- `write_enctype1_encrypted_data` to an empty buffer. -/
def writeEnctype1EncryptedData (rand : Enctype1Rand) (scrambleData encryptedData : Bytes) :
    Bytes :=
  let header := [42, 218] ++ rand.unused.toList ++ scrambleData ++ [rand.unknown] ++
    intBytes rand.encshare4Data ++ rand.unusedEnd.toList
  networkBytes (UInt32.ofNat (4 + header.length + encryptedData.length)) ++ header ++
    encryptedData

/-- The body of `create_enctype1_buffer` for `encrypt_len` bytes. -/
def encryptReply (validateKey : Bytes) (stack : Enc1Key) (rand : Enctype1Rand)
    (encryptData : Bytes) : Option Bytes := do
  let encryptData ← sharedLayer (intBytes rand.encshare4Data) encryptData
  let encryptData := func2Layer rand.scrambleData encryptData
  let encryptData := func6Layer enctype1Func6e validateKey stack encryptData
  let scrambleData := obfuscateScrambleData rand.scrambleData enctype1MasterKey
  some (writeEnctype1EncryptedData rand scrambleData encryptData)

/-- `create_enctype1_buffer`, into an empty buffer. `encrypt_len` is an `int`, and where it is
negative `enctype1_func2` counts down from it and leaves the buffer. -/
def createEnctype1Buffer (validateKey : Bytes) (stack : Enc1Key) (rand : Enctype1Rand)
    (input : Bytes) : Option Bytes :=
  let encryptLen := int32 input.length
  if encryptLen < 0 then none
  else encryptReply validateKey stack rand (input.take encryptLen.toNat)

/-- The scramble bytes of a reply, looked up in the master key. -/
def replyScramble (reply : Bytes) : Bytes :=
  enctype1Func8 enctype1MasterKey ((reply.drop 19).take 16)

/-- The decoder of a reply: the length and the two bytes behind it say where the encrypted data
are, and the layers are undone with the keys of the header. -/
def enctype1Decode (validateKey : Bytes) (stack : Enc1Key) (reply : Bytes) : Option Bytes :=
  let length := ofNetworkBytes (reply.take 4)
  let skip := ((reply.getD 4 0 ^^^ 62) - 20).toNat + ((reply.getD 5 0 ^^^ 205) - 5).toNat
  let data := (reply.take length).drop (40 + skip)
  let data := func6Layer enctype1Func6 validateKey stack data
  let data := func2Layer (replyScramble reply) data
  sharedLayer ((reply.drop 36).take 4) data

/-- The number of bytes that a reply with this key of the shared layer has less than. The 4096 times
16 words of the tree are enough for 516131 bytes, and each 16 words that `encshare2` makes of what
is in front of its stacks for 126 more. -/
def sharedLimit (seed : Bytes) : Nat :=
  516132 + 126 * overrunBlocks (overrunWord (cryptTable seed))

/-- The decoder inverts the reply made for the plaintext: it is made, the scramble bytes are
found in it, and it decodes to the plaintext, whatever the memory of the keys held before. -/
def DecodesTo (validateKey : Bytes) (stack stack' : Enc1Key) (rand : Enctype1Rand)
    (input : Bytes) : Prop :=
  ∃ reply, createEnctype1Buffer validateKey stack rand input = some reply ∧
    replyScramble reply = rand.scrambleData ∧
    enctype1Decode validateKey stack' reply = some input

theorem int_bytes_length (value : UInt32) : (intBytes value).length = 4 :=
  rfl

theorem scramble_data_length (rand : Enctype1Rand) : rand.scrambleData.length = 16 := by
  simp [Enctype1Rand.scrambleData]

/-- A length in network order is read back. -/
theorem of_network_bytes_network_bytes {n : Nat} (h : n < 2 ^ 32) :
    ofNetworkBytes (networkBytes (UInt32.ofNat n)) = n := by
  simp [ofNetworkBytes, networkBytes, intBytes, Nat.shiftRight_eq_div_pow]
  omega

theorem int_bytes_ne_nil (value : UInt32) : intBytes value ≠ [] :=
  List.cons_ne_nil _ _

theorem shared_limit_bounds (seed : Bytes) :
    516132 ≤ sharedLimit seed ∧ sharedLimit seed ≤ 518022 := by
  have hspec := overrun_blocks_spec (overrunWord (cryptTable seed))
  unfold sharedLimit
  generalize overrunBlocks (overrunWord (cryptTable seed)) = blocks at hspec ⊢
  omega

/-- The shared layer is defined exactly if its key stream lasts. -/
theorem shared_layer_is_some_iff {seed : Bytes} (hseed : seed ≠ []) (data : Bytes) :
    (sharedLayer seed data).isSome ↔ data.length < sharedLimit seed := by
  obtain ⟨tbuff, hkey, hblocks⟩ := encshare4_blocks hseed
  unfold sharedLayer sharedLimit
  generalize overrunBlocks (overrunWord (cryptTable seed)) = blocks at hblocks
  split
  · rename_i hlen
    have hiff := encshare1_is_some_iff hblocks (data.take (data.length / 2 - 17))
    rw [List.length_take, Nat.min_eq_left (by omega)] at hiff
    rw [show data.length < 516132 + 126 * blocks ↔
      data.length / 2 - 17 ≤ 63 * (blocks + 4095 + 1) by omega, ← hiff, hkey]
    simp
  · simp only [Option.isSome_some, true_iff]
    omega

/-- The shared layer keeps the length of the data. -/
theorem shared_layer_length {seed data cipher : Bytes} (h : sharedLayer seed data = some cipher) :
    cipher.length = data.length := by
  unfold sharedLayer at h
  split at h
  · simp only [Option.bind_eq_bind, Option.bind_eq_some_iff, Option.map_eq_some_iff] at h
    obtain ⟨tbuff, -, front, hfront, rfl⟩ := h
    rw [List.length_append, encshare1_length hfront, ← List.length_append, List.take_append_drop]
  · rw [Option.some.inj h]

/-- The shared layer undoes itself. -/
theorem shared_layer_shared_layer {seed data cipher : Bytes}
    (h : sharedLayer seed data = some cipher) : sharedLayer seed cipher = some data := by
  have hlen := shared_layer_length h
  unfold sharedLayer at h ⊢
  rw [hlen]
  split at h
  · rename_i hhalf
    simp only [Option.bind_eq_bind, Option.bind_eq_some_iff, Option.map_eq_some_iff] at h
    obtain ⟨tbuff, hkey, front, hfront, rfl⟩ := h
    have hfrontlen : front.length = data.length / 2 - 17 := by
      rw [encshare1_length hfront, List.length_take]
      omega
    rw [if_pos hhalf, hkey, List.take_left' hfrontlen, List.drop_left' hfrontlen]
    simp [encshare1_encshare1 hfront]
  · rw [if_neg ‹_›, Option.some.inj h]

@[simp] theorem func2_layer_length (scrambleData data : Bytes) :
    (func2Layer scrambleData data).length = data.length := by
  simp [func2Layer, enctype1Func2]

/-- The layer of `enctype1_func2` undoes itself. -/
theorem func2_layer_func2_layer (scrambleData data : Bytes) :
    func2Layer scrambleData (func2Layer scrambleData data) = data :=
  func2_func2 _ data

theorem func6e_layer_length (validateKey : Bytes) (stack : Enc1Key) (data : Bytes) :
    (func6Layer enctype1Func6e validateKey stack data).length = data.length := by
  unfold func6Layer
  split
  · rw [List.length_append, enctype1Func6e, StreamCipher.run_length, ← List.length_append,
      List.take_append_drop]
  · rfl

/-- The layer of the validate key is undone, whatever the memory of the keys held before. -/
theorem func6_layer_func6e_layer {validateKey : Bytes} (hkey : cString validateKey ≠ [])
    (stack stack' : Enc1Key) (data : Bytes) :
    func6Layer enctype1Func6 validateKey stack'
      (func6Layer enctype1Func6e validateKey stack data) = data := by
  rw [func6Layer, func6e_layer_length, func4_overwrites hkey stack' stack, func6Layer]
  split
  · have hfront : (enctype1Func6e (enctype1Func4 (cString validateKey) stack)
        (data.take (data.length / 4 - 5))).1.length = data.length / 4 - 5 := by
      rw [enctype1Func6e, StreamCipher.run_length, List.length_take]
      omega
    rw [List.take_left' hfront, List.drop_left' hfront, func6_func6e, List.take_append_drop]
  · rfl

/-- Every scramble byte is one of the first 256 of the master key. -/
theorem scramble_data_in_master_key (rand : Enctype1Rand) :
    ∀ byte ∈ rand.scrambleData, ∃ i < 256, enctype1MasterKey[i]? = some byte := by
  intro byte hbyte
  obtain ⟨key, -, rfl⟩ := List.mem_map.mp hbyte
  have hkey := key.toNat_lt
  have hlt : key.toNat < enctype1MasterKey.length := by
    rw [master_key_length]
    omega
  refine ⟨key.toNat, hkey, ?_⟩
  rw [List.getD_eq_getElem?_getD, List.getElem?_eq_getElem hlt, Option.getD_some]

/-- A reply by its parts: the length, the header up to the scramble bytes, these, the key of the
shared layer between unused bytes, and the data. -/
theorem write_parts (rand : Enctype1Rand) (scrambleData data : Bytes)
    (hscramble : scrambleData.length = 16) :
    writeEnctype1EncryptedData rand scrambleData data =
      networkBytes (UInt32.ofNat (58 + data.length)) ++ ([42, 218] ++ rand.unused.toList) ++
        (scrambleData ++ ([rand.unknown] ++ (intBytes rand.encshare4Data ++
          (rand.unusedEnd.toList ++ data)))) := by
  simp [writeEnctype1EncryptedData, hscramble, int_bytes_length]

/-- Where the decoder finds the parts of a reply. -/
theorem write_spec (rand : Enctype1Rand) (scrambleData data : Bytes)
    (hscramble : scrambleData.length = 16) :
    let reply := writeEnctype1EncryptedData rand scrambleData data
    reply.take 4 = networkBytes (UInt32.ofNat (58 + data.length)) ∧
      reply.getD 4 0 = 42 ∧ reply.getD 5 0 = 218 ∧ (reply.drop 19).take 16 = scrambleData ∧
      (reply.drop 36).take 4 = intBytes rand.encshare4Data ∧
      reply.length = 58 + data.length ∧ reply.drop 58 = data := by
  intro reply
  have hreply := write_parts rand scrambleData data hscramble
  have h19 : (networkBytes (UInt32.ofNat (58 + data.length)) ++
      ([42, 218] ++ rand.unused.toList)).length = 19 := by
    simp [networkBytes, intBytes]
  have hdrop19 : reply.drop 19 = scrambleData ++ ([rand.unknown] ++
      (intBytes rand.encshare4Data ++ (rand.unusedEnd.toList ++ data))) := by
    rw [show reply = _ from hreply, List.drop_left' h19]
  have hdrop36 : reply.drop 36 =
      intBytes rand.encshare4Data ++ (rand.unusedEnd.toList ++ data) := by
    rw [show 36 = 19 + 17 by rfl, ← List.drop_drop, hdrop19, ← List.append_assoc]
    exact List.drop_left' (by simp [hscramble])
  have hdrop58 : reply.drop 58 = data := by
    rw [show 58 = 36 + 22 by rfl, ← List.drop_drop, hdrop36, ← List.append_assoc]
    exact List.drop_left' (by simp [int_bytes_length])
  refine ⟨?_, ?_, ?_, ?_, ?_, ?_, hdrop58⟩
  · rw [show reply = _ from hreply, List.append_assoc]
    exact List.take_left' rfl
  · rw [show reply = _ from hreply]
    rfl
  · rw [show reply = _ from hreply]
    rfl
  · rw [hdrop19, List.take_left' hscramble]
  · rw [hdrop36, List.take_left' (int_bytes_length _)]
  · rw [show reply = _ from hreply, List.length_append, h19]
    simp [hscramble, int_bytes_length]
    omega

/-- The decoder inverts the encoder on a reply whose length the header can hold. -/
theorem decode_reply {validateKey : Bytes} (hkey : cString validateKey ≠ [])
    (stack stack' : Enc1Key) (rand : Enctype1Rand) {input reply : Bytes}
    (hlen : input.length < 2 ^ 31)
    (hreply : encryptReply validateKey stack rand input = some reply) :
    replyScramble reply = rand.scrambleData ∧
      enctype1Decode validateKey stack' reply = some input := by
  simp only [encryptReply, Option.bind_eq_bind, Option.bind_eq_some_iff, Option.some.injEq]
    at hreply
  obtain ⟨shared, hshared, rfl⟩ := hreply
  have hobfuscated : (obfuscateScrambleData rand.scrambleData enctype1MasterKey).length = 16 := by
    simp [obfuscateScrambleData, scramble_data_length]
  set cipher := func6Layer enctype1Func6e validateKey stack (func2Layer rand.scrambleData shared)
    with hcipher
  have hcipherlen : cipher.length = input.length := by
    rw [hcipher, func6e_layer_length, func2_layer_length, shared_layer_length hshared]
  obtain ⟨htake, h4, h5, hscramble, hseed, hlength, hdata⟩ :=
    write_spec rand (obfuscateScrambleData rand.scrambleData enctype1MasterKey) cipher hobfuscated
  set reply := writeEnctype1EncryptedData rand
    (obfuscateScrambleData rand.scrambleData enctype1MasterKey) cipher
  have hlookup : replyScramble reply = rand.scrambleData := by
    rw [replyScramble, hscramble, func8_obfuscate (scramble_data_in_master_key rand)]
  refine ⟨hlookup, ?_⟩
  -- the two bytes that the decoder skips by
  have hskip : ((42 ^^^ 62 : UInt8) - 20).toNat + ((218 ^^^ 205 : UInt8) - 5).toNat = 18 := by
    decide
  have hnetwork : ofNetworkBytes (networkBytes (UInt32.ofNat (58 + cipher.length))) =
      reply.length := by
    rw [of_network_bytes_network_bytes (by omega), hlength]
  simp only [enctype1Decode, htake, h4, h5, hskip, hnetwork, List.take_length, hdata, hlookup,
    hseed, Nat.reduceAdd]
  -- the layer that was put on last comes off first
  rw [hcipher, func6_layer_func6e_layer hkey, func2_layer_func2_layer]
  exact shared_layer_shared_layer hshared

/-- A reply is made exactly if the key stream of the shared layer lasts. -/
theorem encrypt_reply_is_some_iff (validateKey : Bytes) (stack : Enc1Key) (rand : Enctype1Rand)
    (input : Bytes) : (encryptReply validateKey stack rand input).isSome ↔
      input.length < sharedLimit (intBytes rand.encshare4Data) := by
  rw [← shared_layer_is_some_iff (int_bytes_ne_nil rand.encshare4Data) input]
  cases hshared : sharedLayer (intBytes rand.encshare4Data) input <;>
    simp [encryptReply, hshared]

/-- The decoder inverts the reply exactly if the key stream of the shared layer lasts. -/
theorem decodes_to_iff {validateKey : Bytes} (hkey : cString validateKey ≠ [])
    (stack stack' : Enc1Key) (rand : Enctype1Rand) (input : Bytes) :
    DecodesTo validateKey stack stack' rand input ↔
      input.length < sharedLimit (intBytes rand.encshare4Data) := by
  constructor
  · rintro ⟨reply, hcreate, -, hdecode⟩
    simp only [createEnctype1Buffer] at hcreate
    split at hcreate
    · cases hcreate
    · have hrange : int32 input.length < 2 ^ 31 := Int.bmod_lt (by decide)
      have hlen : (input.take (int32 input.length).toNat).length < 2 ^ 31 := by
        rw [List.length_take]
        omega
      have hinput : input.take (int32 input.length).toNat = input :=
        Option.some.inj ((decode_reply hkey stack stack' rand hlen hcreate).2.symm.trans hdecode)
      rw [hinput] at hcreate
      exact (encrypt_reply_is_some_iff validateKey stack rand input).mp (by simp [hcreate])
  · intro hlen
    have hlimit := (shared_limit_bounds (intBytes rand.encshare4Data)).2
    obtain ⟨reply, hreply⟩ := Option.isSome_iff_exists.mp
      ((encrypt_reply_is_some_iff validateKey stack rand input).mpr hlen)
    have hint : int32 input.length = input.length := int32_eq_self (by omega) (by omega)
    have hcreate : createEnctype1Buffer validateKey stack rand input = some reply := by
      simp only [createEnctype1Buffer, hint, Int.toNat_natCast, List.take_length]
      rw [if_neg (by omega)]
      exact hreply
    exact ⟨reply, hcreate, decode_reply hkey stack stack' rand (by omega) hreply⟩

/-- A reply of less than 516132 bytes decodes with every key. -/
theorem decodes_to_of_short {validateKey : Bytes} (hkey : cString validateKey ≠ [])
    (stack stack' : Enc1Key) (rand : Enctype1Rand) {input : Bytes} (h : input.length < 516132) :
    DecodesTo validateKey stack stack' rand input :=
  (decodes_to_iff hkey stack stack' rand input).mpr
    (h.trans_le (shared_limit_bounds (intBytes rand.encshare4Data)).1)

/-- The decoder's `enctype1_func6` undoes the encoder's `enctype1_func6e` from every key, and
the reply decodes to the plaintext exactly if this is shorter than the key of the shared layer
allows. -/
theorem enctype1_decodes_iff {validateKey : Bytes} (hkey : cString validateKey ≠ [])
    (stack stack' : Enc1Key) (rand : Enctype1Rand) (input : Bytes) :
    ((∀ enc1key data, enctype1Func6 enc1key (enctype1Func6e enc1key data).1 =
        (data, (enctype1Func6e enc1key data).2)) ∧
      DecodesTo validateKey stack stack' rand input) ↔
        input.length < sharedLimit (intBytes rand.encshare4Data) := by
  rw [decodes_to_iff hkey]
  exact and_iff_right func6_func6e

/-- A key in memory that holds zeros. -/
def zeroKey : Enc1Key :=
  ⟨.ofFn fun _ => 0, 0, 0, 0, 0, 0⟩

/-- A sequence of random numbers that are all 0. -/
def zeroRand : Enctype1Rand :=
  ⟨0, .replicate 16 0, .replicate 13 0, 0, .replicate 18 0⟩

/-- A reply with a short list decodes to it. -/
theorem short_reply_decodes :
    DecodesTo (ascii "lRKxyW") zeroKey zeroKey zeroRand (ascii "\\final\\") := by
  have hshort : (ascii "\\final\\").length < 516132 := by decide
  exact ((enctype1_decodes_iff (by decide) zeroKey zeroKey zeroRand _).mpr
    (hshort.trans_le (shared_limit_bounds _).1)).2

/-- A reply of 518022 bytes is not made: `encshare2` leaves `tbuff`. -/
theorem long_reply_undefined :
    ¬ DecodesTo (ascii "lRKxyW") zeroKey zeroKey zeroRand (List.replicate 518022 0) := by
  rw [decodes_to_iff (by decide), List.length_replicate]
  exact Nat.not_lt.mpr (shared_limit_bounds _).2

end OpenSpy.ServerBrowsing
