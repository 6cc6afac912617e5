import OpenSpy.Library.Deck
import OpenSpy.Library.Runs
import OpenSpy.ServerBrowsing.Enctype1Cipher

/-!
# The cipher of server browsing version 2

The functions of `sb_crypt.cpp`. The state is a deck of cards that a key shuffles at first and
every byte shuffles a little more. The functions for a byte and those for a whole text are
written out twice in the source, and `enctype1_decoder.cpp` has the cipher once more under other
names, which `enctype1_cipher_eq_goa` compares with this one.
-/

namespace OpenSpy.ServerBrowsing

open StreamCipher ByteTable

/-- `GOACryptState`. -/
structure GOACryptState where
  cards : ByteTable
  rotor : UInt8
  ratchet : UInt8
  avalanche : UInt8
  lastPlain : UInt8
  lastCipher : UInt8

/-- `memset(&m_crypt_state, 0, sizeof(m_crypt_state))`. -/
def GOACryptState.zero : GOACryptState :=
  ⟨.ofFn fun _ => 0, 0, 0, 0, 0, 0⟩

/-- What the body of the loop of `keyrand` does with `rsum` and `keypos`. -/
def keyrandRound (cards : ByteTable) (userKey : Bytes) (state : UInt8 × Nat) : UInt8 × Nat :=
  let (rsum, keypos) := state
  let rsum := cards.byte rsum + userKey.getD keypos 0
  let keypos := keypos + 1
  if userKey.length ≤ keypos then (rsum + UInt8.ofNat userKey.length, 0) else (rsum, keypos)

/-- The loop of `keyrand`, where `rounds` rounds are left before `retry_limiter` exceeds 11 and
`u` is reduced, which ends the loop: `u`, `rsum` and `keypos`. -/
def keyrandLoop (cards : ByteTable) (limit mask : Nat) (userKey : Bytes) :
    Nat → UInt8 × Nat → Nat × UInt8 × Nat
  | 0, state =>
      let state := keyrandRound cards userKey state
      ((mask &&& state.1.toNat) % limit, state)
  | rounds + 1, state =>
      let state := keyrandRound cards userKey state
      let u := mask &&& state.1.toNat
      if limit < u then keyrandLoop cards limit mask userKey rounds state else (u, state)

/-- `keyrand`: `u`, `rsum` and `keypos`. -/
def keyrand (cards : ByteTable) (limit mask : Nat) (userKey : Bytes) (state : UInt8 × Nat) :
    Nat × UInt8 × Nat :=
  if limit = 0 then (0, state) else keyrandLoop cards limit mask userKey 11 state

/-- `GOAHashInit`. -/
def goaHashInit : GOACryptState :=
  { cards := .ofFn (255 - ·)
    rotor := 1
    ratchet := 3
    avalanche := 5
    lastPlain := 7
    lastCipher := 11 }

/-- The variables of the loop of `GOACryptInit`. -/
structure CryptInitLoop where
  cards : ByteTable
  rsum : UInt8
  keypos : Nat
  mask : Nat

/-- The body of the loop of `GOACryptInit`. -/
def cryptInitSwap (key : Bytes) (loop : CryptInitLoop) (i : Nat) : CryptInitLoop :=
  let (toswap, rsum, keypos) := keyrand loop.cards i loop.mask key (loop.rsum, loop.keypos)
  let (i', toswap) := (UInt8.ofNat i, UInt8.ofNat toswap)
  let swaptemp := loop.cards.byte i'
  { cards := (loop.cards.set i' (loop.cards.byte toswap)).set toswap swaptemp
    rsum
    keypos
    mask := if i &&& (i - 1) = 0 then loop.mask >>> 1 else loop.mask }

/-- `for (i=255;i>0;i--)`. -/
def cryptInitRounds : List Nat :=
  (List.range 255).reverse.map (· + 1)

/-- `GOACryptInit`, where `keysize` is the length of the key. -/
def goaCryptInit (key : Bytes) : GOACryptState :=
  if key.length < 1 then goaHashInit
  else
    let loop := cryptInitRounds.foldl (cryptInitSwap key) ⟨.ofFn (·), 0, 0, 255⟩
    { cards := loop.cards
      rotor := loop.cards.byte 1
      ratchet := loop.cards.byte 3
      avalanche := loop.cards.byte 5
      lastPlain := loop.cards.byte 7
      lastCipher := loop.cards.byte loop.rsum }

/-- `GOAEncryptByte`: the byte, and the state. -/
def goaEncryptByte (state : GOACryptState) (byte : UInt8) : UInt8 × GOACryptState :=
  let ratchet := state.ratchet + state.cards.byte state.rotor
  let rotor := state.rotor + 1
  let swaptemp := state.cards.byte state.lastCipher
  let cards := state.cards.set state.lastCipher (state.cards.byte ratchet)
  let cards := cards.set ratchet (cards.byte state.lastPlain)
  let cards := cards.set state.lastPlain (cards.byte rotor)
  let cards := cards.set rotor swaptemp
  let avalanche := state.avalanche + cards.byte swaptemp
  let lastCipher := byte ^^^ cards.byte (cards.byte avalanche + cards.byte rotor) ^^^
    cards.byte (cards.byte
      (cards.byte state.lastPlain + cards.byte state.lastCipher + cards.byte ratchet))
  (lastCipher, ⟨cards, rotor, ratchet, avalanche, byte, lastCipher⟩)

/-- `GOADecryptByte`: the byte, and the state. -/
def goaDecryptByte (state : GOACryptState) (byte : UInt8) : UInt8 × GOACryptState :=
  let ratchet := state.ratchet + state.cards.byte state.rotor
  let rotor := state.rotor + 1
  let swaptemp := state.cards.byte state.lastCipher
  let cards := state.cards.set state.lastCipher (state.cards.byte ratchet)
  let cards := cards.set ratchet (cards.byte state.lastPlain)
  let cards := cards.set state.lastPlain (cards.byte rotor)
  let cards := cards.set rotor swaptemp
  let avalanche := state.avalanche + cards.byte swaptemp
  let lastPlain := byte ^^^ cards.byte (cards.byte avalanche + cards.byte rotor) ^^^
    cards.byte (cards.byte
      (cards.byte state.lastPlain + cards.byte state.lastCipher + cards.byte ratchet))
  (lastPlain, ⟨cards, rotor, ratchet, avalanche, lastPlain, byte⟩)

/-- The loop of `GOAEncrypt`, whose local variables and cards are the state: the second card is
looked up under `swaptemp`, where `GOAEncryptByte` looks under `state->cards[state->rotor]`. -/
def goaEncryptLoop : GOACryptState → Bytes → Bytes × GOACryptState
  | state, [] => ([], state)
  | ⟨cards, rotor, ratchet, avalanche, lastPlain, lastCipher⟩, byte :: bp =>
      let ratchet := ratchet + cards.byte rotor
      let rotor := rotor + 1
      let swaptemp := cards.byte lastCipher
      let cards := cards.set lastCipher (cards.byte ratchet)
      let cards := cards.set ratchet (cards.byte lastPlain)
      let cards := cards.set lastPlain (cards.byte rotor)
      let cards := cards.set rotor swaptemp
      let avalanche := avalanche + cards.byte swaptemp
      let lastCipher := byte ^^^ cards.byte (cards.byte avalanche + swaptemp) ^^^
        cards.byte (cards.byte
          (cards.byte lastPlain + cards.byte lastCipher + cards.byte ratchet))
      let (rest, last) :=
        goaEncryptLoop ⟨cards, rotor, ratchet, avalanche, byte, lastCipher⟩ bp
      (lastCipher :: rest, last)

/-- `GOAEncrypt`. -/
def goaEncrypt (state : GOACryptState) (bp : Bytes) : Bytes × GOACryptState :=
  goaEncryptLoop state bp

/-- `GOADecrypt`, whose loop does with its local variables what `GOADecryptByte` does with the
state. -/
def goaDecrypt (state : GOACryptState) (bp : Bytes) : Bytes × GOACryptState :=
  run goaDecryptByte state bp

/-- The bytes of the first loop of `GOAHashFinal`. -/
def hashFinalBytes : Bytes :=
  (List.range 256).reverse.map UInt8.ofNat

/-- `GOAHashFinal`: the hash, and the state. -/
def goaHashFinal (state : GOACryptState) (hashlength : Nat) : Bytes × GOACryptState :=
  run goaEncryptByte (run goaEncryptByte state hashFinalBytes).2 (List.replicate hashlength 0)

/-- The cards are a permutation of 0 to 255, as the comment on them says. -/
def GOACryptState.Shuffled (state : GOACryptState) : Prop :=
  state.cards.IsDeck

/-- Every byte moves the cards along a chain. -/
theorem encrypt_byte_cards (state : GOACryptState) (byte : UInt8) :
    (goaEncryptByte state byte).2.cards =
      ((state.cards.swap state.lastCipher (state.ratchet + state.cards.byte state.rotor)).swap
        (state.ratchet + state.cards.byte state.rotor) state.lastPlain).swap
        state.lastPlain (state.rotor + 1) :=
  set_chain_eq_swap state.cards _ _ _ _

theorem encrypt_byte_shuffled (state : GOACryptState) (byte : UInt8) (h : state.Shuffled) :
    (goaEncryptByte state byte).2.Shuffled := by
  rw [GOACryptState.Shuffled, encrypt_byte_cards]
  exact ((IsDeck.swap h _ _).swap _ _).swap _ _

/-- Decrypting moves the cards as encrypting does. -/
theorem decrypt_byte_shuffled (state : GOACryptState) (byte : UInt8) (h : state.Shuffled) :
    (goaDecryptByte state byte).2.Shuffled :=
  encrypt_byte_shuffled state byte h

/-- `GOAEncrypt` does what `GOAEncryptByte` does with one byte after the other. -/
theorem goa_encrypt_eq (state : GOACryptState) (bp : Bytes) :
    goaEncrypt state bp = run goaEncryptByte state bp := by
  rw [goaEncrypt]
  induction bp generalizing state with
  | nil => rfl
  | cons byte bp ih =>
      -- the card under the rotor is the one that was just put there
      simp only [goaEncryptLoop, run, goaEncryptByte, byte_set_self, ih]

/-- `GOADecryptByte` undoes `GOAEncryptByte` from the same state, and both leave the same
state. -/
theorem decrypt_encrypt_byte (state : GOACryptState) (byte : UInt8) :
    goaDecryptByte state (goaEncryptByte state byte).1 = (byte, (goaEncryptByte state byte).2) := by
  have hplain (a b : UInt8) : byte ^^^ a ^^^ b ^^^ a ^^^ b = byte := by
    rw [UInt8.xor_assoc (byte ^^^ a), UInt8.xor_comm b a, ← UInt8.xor_assoc, xor_xor_self,
      xor_xor_self]
  simp only [goaDecryptByte, goaEncryptByte, hplain]

/-- The loop of `GOACryptInit` swaps two cards. -/
theorem crypt_init_swap_cards (key : Bytes) (loop : CryptInitLoop) (i : Nat) :
    (cryptInitSwap key loop i).cards = loop.cards.swap (UInt8.ofNat i)
      (UInt8.ofNat (keyrand loop.cards i loop.mask key (loop.rsum, loop.keypos)).1) :=
  rfl

theorem crypt_init_loop_deck (key : Bytes) (rounds : List Nat) (loop : CryptInitLoop)
    (h : loop.cards.IsDeck) : (rounds.foldl (cryptInitSwap key) loop).cards.IsDeck := by
  induction rounds generalizing loop with
  | nil => exact h
  | cons i rounds ih =>
      refine ih _ ?_
      rw [crypt_init_swap_cards]
      exact h.swap _ _

/-- `GOACryptInit` shuffles a whole deck, whatever the key. -/
theorem goa_crypt_init_shuffled (key : Bytes) : (goaCryptInit key).Shuffled := by
  rw [GOACryptState.Shuffled, goaCryptInit]
  split
  · refine is_deck_of_fn fun i j h => ?_
    grind
  · have hascending : (ByteTable.ofFn (·)).IsDeck := is_deck_of_fn fun _ _ h => h
    exact crypt_init_loop_deck key cryptInitRounds ⟨.ofFn (·), 0, 0, 255⟩ hascending

/-- A call of one of the functions on a state. -/
inductive GOACall
  | hashInit
  | cryptInit (key : Bytes)
  | encryptByte (byte : UInt8)
  | encrypt (bp : Bytes)
  | decryptByte (byte : UInt8)
  | decrypt (bp : Bytes)
  | hashFinal (hashlength : Nat)

/-- The state after a call. -/
def GOACryptState.call (state : GOACryptState) : GOACall → GOACryptState
  | .hashInit => goaHashInit
  | .cryptInit key => goaCryptInit key
  | .encryptByte byte => (goaEncryptByte state byte).2
  | .encrypt bp => (goaEncrypt state bp).2
  | .decryptByte byte => (goaDecryptByte state byte).2
  | .decrypt bp => (goaDecrypt state bp).2
  | .hashFinal hashlength => (goaHashFinal state hashlength).2

theorem encrypt_run_shuffled {state : GOACryptState} (h : state.Shuffled) (bp : Bytes) :
    (run goaEncryptByte state bp).2.Shuffled :=
  run_keeps encrypt_byte_shuffled h bp

/-- Every call keeps the cards a permutation. -/
theorem call_shuffled (state : GOACryptState) (call : GOACall) (h : state.Shuffled) :
    (state.call call).Shuffled := by
  cases call with
  | hashInit => exact goa_crypt_init_shuffled []
  | cryptInit key => exact goa_crypt_init_shuffled key
  | encryptByte byte => exact encrypt_byte_shuffled state byte h
  | encrypt bp =>
      rw [GOACryptState.call, goa_encrypt_eq]
      exact encrypt_run_shuffled h bp
  | decryptByte byte => exact decrypt_byte_shuffled state byte h
  | decrypt bp => exact run_keeps decrypt_byte_shuffled h bp
  | hashFinal hashlength => exact encrypt_run_shuffled (encrypt_run_shuffled h hashFinalBytes) _

/-- From any key on the cards are a permutation, and stay one whatever is encrypted, decrypted
and hashed, and whichever keys follow. -/
theorem goa_cards_stay_shuffled (key : Bytes) (calls : List GOACall) :
    (Runs.after GOACryptState.call (goaCryptInit key) calls).Shuffled :=
  Runs.invariant (goa_crypt_init_shuffled key) call_shuffled calls

/-- The key of `enctype1_func6` as a state of this cipher. -/
def Enc1Key.toGOA (enc1key : Enc1Key) : GOACryptState :=
  { cards := enc1key.table
    rotor := enc1key.r256
    ratchet := enc1key.r257
    avalanche := enc1key.r258
    lastPlain := enc1key.r259
    lastCipher := enc1key.r260 }

/-- `enctype1_func7e` is `GOAEncryptByte`. -/
theorem func7e_eq_encrypt_byte (enc1key : Enc1Key) (v : UInt8) :
    goaEncryptByte enc1key.toGOA v =
      ((enctype1Func7e enc1key v).1, (enctype1Func7e enc1key v).2.toGOA) := by
  have hpad (a b : UInt8) : v ^^^ a ^^^ b = b ^^^ a ^^^ v := by
    rw [UInt8.xor_assoc, UInt8.xor_comm a b, UInt8.xor_comm v]
  have hsum (a b c : UInt8) : a + b + c = a + c + b := by
    rw [UInt8.add_assoc, UInt8.add_comm b c, UInt8.add_assoc]
  simp only [goaEncryptByte, enctype1Func7e, func7Next, Enc1Key.toGOA, hpad,
    hsum _ (ByteTable.byte _ enc1key.r260)]

/-- The mask that `enctype1_func5` makes for a card. -/
def roundMask (i : Nat) : Nat :=
  if 1 < i then func5Mask i 1 else 1

/-- The mask that `GOACryptInit` carries from card to card is the one that `enctype1_func5`
makes anew. -/
theorem round_mask_step : ∀ i ∈ List.range 256, roundMask i < 256 ∧ (1 < i →
    (if i &&& (i - 1) = 0 then roundMask i >>> 1 else roundMask i) = roundMask (i - 1)) := by
  decide +kernel

/-- A mask of a byte takes no notice of what an `int` has above the byte. -/
theorem and_mask_of_byte {mask : Nat} (h : mask < 256) (n : Nat) :
    mask &&& (UInt8.ofNat n).toNat = n &&& mask := by
  refine Nat.eq_of_testBit_eq fun k => ?_
  rw [Nat.testBit_and, Nat.testBit_and, UInt8.toNat_ofNat', Nat.testBit_mod_two_pow]
  by_cases hk : k < 8
  · simp [hk, Bool.and_comm]
  · have hpow : 2 ^ 8 ≤ 2 ^ k := Nat.pow_le_pow_right (by decide) (by omega)
    rw [Nat.testBit_lt_two_pow (by omega : mask < 2 ^ k), Bool.false_and, Bool.and_false]

/-- What the body of the loop of `enctype1_func5` does with `*n1` and `*n2`. -/
def func5Round (id : Bytes) (table : ByteTable) (state : Nat × Nat) : Nat × Nat :=
  let n1 := (table.byte (UInt8.ofNat state.1)).toNat + (id.getD state.2 0).toNat
  if id.length ≤ state.2 + 1 then (n1 + id.length, 0) else (n1, state.2 + 1)

theorem func5_loop_zero (id : Bytes) (table : ByteTable) (mask cnt : Nat) (state : Nat × Nat) :
    func5Loop id table mask cnt 0 state =
      (((func5Round id table state).1 &&& mask) % cnt, func5Round id table state) := by
  rw [func5Loop, func5Round]

theorem func5_loop_succ (id : Bytes) (table : ByteTable) (mask cnt rounds : Nat)
    (state : Nat × Nat) :
    func5Loop id table mask cnt (rounds + 1) state =
      if cnt < (func5Round id table state).1 &&& mask then
        func5Loop id table mask cnt rounds (func5Round id table state)
      else ((func5Round id table state).1 &&& mask, func5Round id table state) := by
  rw [func5Loop, func5Round]

/-- `rsum` is the low byte of `*n1`. -/
def lowByte (state : Nat × Nat) : UInt8 × Nat :=
  (UInt8.ofNat state.1, state.2)

theorem keyrand_round_eq_func5_round (id : Bytes) (table : ByteTable) (state : Nat × Nat) :
    keyrandRound table id (lowByte state) = lowByte (func5Round id table state) := by
  rw [keyrandRound, func5Round, lowByte]
  split <;> simp only [lowByte, UInt8.ofNat_add, UInt8.ofNat_toNat]

/-- The loops of `keyrand` and `enctype1_func5` find the same card. -/
theorem keyrand_loop_eq_func5_loop {mask : Nat} (hmask : mask < 256) (id : Bytes)
    (table : ByteTable) (cnt rounds : Nat) (state : Nat × Nat) :
    keyrandLoop table cnt mask id rounds (lowByte state) =
      ((func5Loop id table mask cnt rounds state).1,
        lowByte (func5Loop id table mask cnt rounds state).2) := by
  have hmasked (state : Nat × Nat) : mask &&& (lowByte state).1.toNat = state.1 &&& mask :=
    and_mask_of_byte hmask state.1
  induction rounds generalizing state with
  | zero => rw [keyrandLoop, func5_loop_zero, keyrand_round_eq_func5_round, hmasked]
  | succ rounds ih =>
      rw [keyrandLoop, func5_loop_succ, keyrand_round_eq_func5_round, hmasked, ih]
      split <;> rfl

/-- `keyrand` finds the card of `enctype1_func5`. -/
theorem keyrand_eq_func5 {cnt : Nat} (hcnt : cnt < 256) (id : Bytes) (table : ByteTable)
    (state : Nat × Nat) :
    keyrand table cnt (roundMask cnt) id (lowByte state) =
      ((enctype1Func5 cnt id state table).1, lowByte (enctype1Func5 cnt id state table).2) := by
  have hmask := (round_mask_step cnt (List.mem_range.mpr hcnt)).1
  rw [keyrand, enctype1Func5]
  split
  · rfl
  · exact keyrand_loop_eq_func5_loop hmask id table cnt 11 state

/-- The variables of the loop of `GOACryptInit` before a card, from those of the loop of
`enctype1_func4`. -/
def initLoopOf (i : Nat) (state : ByteTable × Nat × Nat) : CryptInitLoop :=
  ⟨state.1, (lowByte state.2).1, state.2.2, roundMask i⟩

/-- Both loops do the same with a card. -/
theorem crypt_init_swap_eq_func4_swap {i : Nat} (hone : 1 < i) (hi : i < 256) (id : Bytes)
    (state : ByteTable × Nat × Nat) :
    cryptInitSwap id (initLoopOf i state) i = initLoopOf (i - 1) (func4Swap id state i) := by
  have hcard := keyrand_eq_func5 hi id state.1 state.2
  have hmask := (round_mask_step i (List.mem_range.mpr hi)).2 hone
  rw [lowByte] at hcard
  simp only [cryptInitSwap, initLoopOf, func4Swap, lowByte, hcard, hmask]

/-- Both loops do the same with all cards down to the second. -/
theorem init_rounds_eq_func4_rounds {k : Nat} (hk : k < 255) (id : Bytes)
    (state : ByteTable × Nat × Nat) :
    ((List.range k).reverse.map (· + 2)).foldl (cryptInitSwap id) (initLoopOf (k + 1) state) =
      initLoopOf 1 (((List.range k).reverse.map (· + 2)).foldl (func4Swap id) state) := by
  induction k generalizing state with
  | zero => rfl
  | succ k ih =>
      have hswap : cryptInitSwap id (initLoopOf (k + 2) state) (k + 2) =
          initLoopOf (k + 1) (func4Swap id state (k + 2)) :=
        crypt_init_swap_eq_func4_swap (by omega) (by omega) id state
      rw [List.range_succ, List.reverse_append, List.map_append, List.foldl_append,
        List.foldl_append]
      simp only [List.reverse_singleton, List.map_singleton, List.foldl_cons, List.foldl_nil]
      rw [hswap, ih (by omega)]

/-- The first card changes places with a card too, but the last mask is not used. -/
theorem init_first_card_eq (id : Bytes) (state : ByteTable × Nat × Nat) :
    (cryptInitSwap id (initLoopOf 1 state) 1).cards = (func4Swap id state 1).1 ∧
      (cryptInitSwap id (initLoopOf 1 state) 1).rsum = UInt8.ofNat (func4Swap id state 1).2.1 := by
  have hcard := keyrand_eq_func5 (by decide : 1 < 256) id state.1 state.2
  rw [lowByte] at hcard
  simp only [cryptInitSwap, initLoopOf, func4Swap, lowByte, hcard, and_self]

/-- At 0 the loop of `enctype1_func4` swaps a card with itself. -/
theorem func4_swap_zero (id : Bytes) (state : ByteTable × Nat × Nat) :
    func4Swap id state 0 = state := by
  obtain ⟨table, n⟩ := state
  have hself : (table.set (UInt8.ofNat 0) (table.byte (UInt8.ofNat 0))).set (UInt8.ofNat 0)
      (table.byte (UInt8.ofNat 0)) = table := by
    rw [set_byte, set_byte]
  simp only [func4Swap, enctype1Func5, if_true, hself]

/-- The two key schedules agree on every key. -/
theorem crypt_init_eq_func4 {id : Bytes} (h : id ≠ []) (enc1key : Enc1Key) :
    (enctype1Func4 id enc1key).toGOA = goaCryptInit id := by
  have hlen : ¬ id.length < 1 := by
    have := List.length_pos_iff.mpr h
    omega
  have hgoa : cryptInitRounds = (List.range 254).reverse.map (· + 2) ++ [1] := by
    decide +kernel
  have hfunc4 : (List.range 256).reverse = (List.range 254).reverse.map (· + 2) ++ [1, 0] := by
    decide +kernel
  have hrounds := init_rounds_eq_func4_rounds (by decide : 254 < 255) id (.ofFn (·), 0, 0)
  have hstart : (⟨.ofFn (·), 0, 0, 255⟩ : CryptInitLoop) =
      initLoopOf 255 (.ofFn (·), 0, 0) := by
    have hmask : roundMask 255 = 255 := by decide +kernel
    rw [initLoopOf, hmask]
    rfl
  rw [enctype1Func4, goaCryptInit, if_neg hlen, if_neg hlen, hgoa, hfunc4, hstart,
    List.foldl_append, List.foldl_append, hrounds]
  obtain ⟨hcards, hrsum⟩ := init_first_card_eq id
    (((List.range 254).reverse.map (· + 2)).foldl (func4Swap id) (.ofFn (·), 0, 0))
  simp only [List.foldl_cons, List.foldl_nil, func4_swap_zero, Enc1Key.toGOA, hcards, hrsum]

/-- What `enctype1_func6e` and `GOAEncrypt` do is the same from states that agree. -/
theorem func6e_eq_encrypt (enc1key : Enc1Key) (data : Bytes) :
    goaEncrypt enc1key.toGOA data =
      ((enctype1Func6e enc1key data).1, (enctype1Func6e enc1key data).2.toGOA) := by
  rw [goa_encrypt_eq, enctype1Func6e]
  induction data generalizing enc1key with
  | nil => rfl
  | cons byte data ih => simp only [run, func7e_eq_encrypt_byte, ih]

/-- The cipher of the encryption type 1 and that of server browsing version 2 are the same: from
any key of at least one byte they encrypt every text alike, and either side decrypts what the
other has encrypted. -/
theorem enctype1_cipher_eq_goa {id : Bytes} (h : id ≠ []) (enc1key : Enc1Key) (data : Bytes) :
    (enctype1Func6e (enctype1Func4 id enc1key) data).1 = (goaEncrypt (goaCryptInit id) data).1 ∧
      (goaDecrypt (goaCryptInit id) (enctype1Func6e (enctype1Func4 id enc1key) data).1).1 = data ∧
      (enctype1Func6 (enctype1Func4 id enc1key) (goaEncrypt (goaCryptInit id) data).1).1 =
        data := by
  have hsame : (enctype1Func6e (enctype1Func4 id enc1key) data).1 =
      (goaEncrypt (goaCryptInit id) data).1 := by
    rw [← crypt_init_eq_func4 h enc1key, func6e_eq_encrypt]
  refine ⟨hsame, ?_, ?_⟩
  · rw [hsame, goa_encrypt_eq, goaDecrypt, run_inverse decrypt_encrypt_byte]
  · rw [← hsame, func6_func6e]

/-- Both encrypt a word with the key of two characters alike. -/
theorem enctype1_cipher_eq_goa_word :
    (enctype1Func6e (enctype1Func4 [104, 105] ⟨.ofFn (·), 0, 0, 0, 0, 0⟩) [1, 2, 3]).1 =
      (goaEncrypt (goaCryptInit [104, 105]) [1, 2, 3]).1 :=
  (enctype1_cipher_eq_goa (by decide) ⟨.ofFn (·), 0, 0, 0, 0, 0⟩ [1, 2, 3]).1

end OpenSpy.ServerBrowsing
