import OpenSpy.Library.Ascii
import OpenSpy.Library.LeafWalk
import OpenSpy.Library.StreamCipher

/-!
# The shared key stream of the encryption types

`encshare1` to `encshare4` work on `tbuff`, an array of 326 words: a table of 256 words, three
stacks of 16 words, five registers and the 16 words of key stream made last. An access outside of
the array is undefined, `none`.

`encshare2` walks through the leaves of a binary tree of depth 16 and makes one word of key
stream a leaf. Behind the last one it takes what the stacks and the table hold for nodes, from the
end of the stacks down. A word that it takes for a node above the leaves makes it write outside of
`tbuff`, and 256 words behind the last leaf it reads in front of it (`blocks_left_overrun`).
-/

namespace OpenSpy.ServerBrowsing

open LeafWalk StreamCipher

/-- `sizeof(tbuff) / sizeof(tbuff[0])`. -/
def tbuffSize : Nat := 326

/-- The words of `tbuff`. -/
structure Tbuff where
  words : Vector UInt32 tbuffSize

/-- `memset(&tbuff, 0, sizeof(tbuff))`. -/
def Tbuff.zero : Tbuff :=
  ⟨.replicate tbuffSize 0⟩

/-- `tbuff[i]` at an index inside the array. -/
def Tbuff.word (tbuff : Tbuff) (i : Nat) : UInt32 :=
  tbuff.words[i]?.getD 0

/-- `tbuff[i] = value` at an index inside the array. -/
def Tbuff.set (tbuff : Tbuff) (i : Nat) (value : UInt32) : Tbuff :=
  ⟨tbuff.words.setIfInBounds i value⟩

/-- `tbuff[i] = value` at a computed index. -/
def Tbuff.store (tbuff : Tbuff) (i : Nat) (value : UInt32) : Option Tbuff :=
  if i < tbuffSize then some (tbuff.set i value) else none

/-- `tbuff[i]` at a computed index. -/
def Tbuff.load (tbuff : Tbuff) (i : Nat) : Option UInt32 :=
  if i < tbuffSize then some (tbuff.word i) else none

/-- `(t << 24) | (t >> 8)`. -/
def ror8 (t : UInt32) : UInt32 :=
  (t <<< 24) ||| (t >>> 8)

/-- `(t >> 24) | (t << 8)`. -/
def rol8 (t : UInt32) : UInt32 :=
  (t >>> 24) ||| (t <<< 8)

/-- `t ^= tbuff[t & 0xff]`. -/
def Tbuff.mix (tbuff : Tbuff) (t : UInt32) : UInt32 :=
  t ^^^ tbuff.word (t &&& 0xff).toNat

/-- The local variables of `encshare2` that last from one word to the next. -/
structure ShareRegs where
  t1 : UInt32
  t2 : UInt32
  t3 : UInt32
  t5 : UInt32

/-- The body of the inner loop of `encshare2`. -/
def encshare2Push (p : Nat) (tbuff : Tbuff) (regs : ShareRegs) : Option (Tbuff × ShareRegs) := do
  let t1 := regs.t1 + regs.t5
  let p := p + 1
  let t3 := regs.t3 + t1
  let t1 := t1 + t3
  let tbuff ← tbuff.store (p - 17) t1
  let tbuff ← tbuff.store (p - 1) t3
  let t4 := ror8 t3
  let tbuff ← tbuff.store (p + 15) regs.t5
  let t5 := regs.t5 <<< 1
  let t2 := regs.t2 + 1
  let t1 := tbuff.mix t1
  let t4 := tbuff.mix t4
  let t3 := ror8 t4
  let t4 := rol8 t1
  let t4 := tbuff.mix t4
  let t3 := tbuff.mix t3
  let t1 := rol8 t4
  some (tbuff, ⟨t1, t2, t3, t5⟩)

/-- `while(t5 < 65536)` of `encshare2`. Each round writes behind the one before, so a loop that
never ended would leave `tbuff` before its fuel is gone. -/
def encshare2Descend : Nat → Nat → Tbuff → ShareRegs → Option (Tbuff × ShareRegs)
  | 0, _, _, _ => none
  | fuel + 1, p, tbuff, regs =>
      if regs.t5 < 65536 then do
        let (tbuff, regs) ← encshare2Push p tbuff regs
        encshare2Descend fuel (p + 1) tbuff regs
      else some (tbuff, regs)

/-- The body of the outer loop of `encshare2`: one word of key stream goes to `tbuffp`. -/
def encshare2Word (tbuffp : Nat) (tbuff : Tbuff) (regs : ShareRegs) :
    Option (Tbuff × ShareRegs) := do
  let (tbuff, regs) ← encshare2Descend tbuffSize (regs.t2.toNat + 272) tbuff regs
  let t3 := regs.t3 ^^^ regs.t1
  let tbuff ← tbuff.store tbuffp t3
  let t2 := regs.t2 - 1
  let t1 ← tbuff.load (t2 + 256).toNat
  let t5 ← tbuff.load (t2 + 272).toNat
  let t1 := ~~~t1
  let t3 := ror8 t1
  let t3 := tbuff.mix t3
  let t5 := tbuff.mix t5
  let t1 := ror8 t3
  let t4 := rol8 t5
  let t1 := tbuff.mix t1
  let t4 := tbuff.mix t4
  let t3 := rol8 t4
  let node ← tbuff.load (t2 + 288).toNat
  some (tbuff, ⟨t1, t2, t3, (node <<< 1) + 1⟩)

/-- `while(tbuffp < limit)` of `encshare2`, `len` words before the limit. -/
def encshare2Loop : Nat → Nat → Tbuff → ShareRegs → Option (Tbuff × ShareRegs)
  | 0, _, tbuff, regs => some (tbuff, regs)
  | len + 1, tbuffp, tbuff, regs => do
      let (tbuff, regs) ← encshare2Word tbuffp tbuff regs
      encshare2Loop len (tbuffp + 1) tbuff regs

/-- The registers that `tbuff` keeps between two calls. -/
def Tbuff.regs (tbuff : Tbuff) : ShareRegs where
  t1 := tbuff.word 305
  t2 := tbuff.word 304
  t3 := tbuff.word 306
  t5 := tbuff.word 307

/-- `encshare2`: `len` words of key stream go to the words of `tbuff` from `tbuffp` on. -/
def encshare2 (tbuff : Tbuff) (tbuffp len : Nat) : Option Tbuff := do
  let (tbuff, regs) ← encshare2Loop len tbuffp tbuff tbuff.regs
  some ((((tbuff.set 304 regs.t2).set 305 regs.t1).set 306 regs.t3).set 307 regs.t5)

/-- The byte at `s + off`, where `s` is `(unsigned char *)(tbuff + 309)` on a little-endian
host. -/
def streamByte (tbuff : Tbuff) (off : Nat) : UInt8 :=
  (tbuff.word (309 + off / 4) >>> (8 * UInt32.ofNat (off % 4))).toUInt8

/-- One round of `encshare1`: the next byte of the key stream, where `off` is `p - s`. Of each
16 words made, the last byte is not used. -/
def encshare1Next (state : Tbuff × Nat) : Option (UInt8 × Tbuff × Nat) := do
  let (tbuff, off) ←
    if state.2 = 63 then (encshare2 state.1 309 16).map fun tbuff => (tbuff, 0)
    else some state
  some (streamByte tbuff off, tbuff, off + 1)

/-- `encshare1`: the data, combined with the key stream. -/
def encshare1 (tbuff : Tbuff) (data : Bytes) : Option Bytes := do
  let tbuff ← encshare2 tbuff 309 16
  (tryRun (tryXorStep encshare1Next) (tbuff, 0) data).map Prod.fst

/-- The local variables of `encshare3`. -/
structure KeyRegs where
  t1 : UInt32
  t2 : UInt32
  t4 : UInt32

/-- The body of the loop of `encshare3`. -/
def encshare3Round (n2 : UInt32) (state : Tbuff × KeyRegs) (i : UInt32) :
    Option (Tbuff × KeyRegs) := do
  let (data, regs) := state
  let t2 := regs.t2 + regs.t4
  let t1 := regs.t1 + t2
  let t2 := t2 + t1
  if n2 &&& i ≠ 0 then
    let t2 := ~~~t2
    let t4 := (regs.t4 <<< 1) + 1
    let t3 := ror8 t2
    let t3 := data.mix t3
    let t1 := data.mix t1
    let t2 := ror8 t3
    let t3 := rol8 t1
    let t2 := data.mix t2
    let t3 := data.mix t3
    let t1 := rol8 t3
    some (data, ⟨t1, t2, t4⟩)
  else
    let data ← data.store (data.word 304 + 256).toNat t2
    let data ← data.store (data.word 304 + 272).toNat t1
    let data ← data.store (data.word 304 + 288).toNat regs.t4
    let data := data.set 304 (data.word 304 + 1)
    let t3 := ror8 t1
    let t2 := data.mix t2
    let t3 := data.mix t3
    let t1 := ror8 t3
    let t3 := rol8 t2
    let t3 := data.mix t3
    let t1 := data.mix t1
    let t2 := rol8 t3
    some (data, ⟨t1, t2, regs.t4 <<< 1⟩)

/-- The values of `i` in the loop of `encshare3`. -/
def encshare3Bits : List UInt32 :=
  (List.range 16).map fun k => 32768 >>> UInt32.ofNat k

/-- `encshare3`. -/
def encshare3 (data : Tbuff) (n1 n2 : UInt32) : Option Tbuff := do
  let (data, regs) ← encshare3Bits.foldlM (encshare3Round n2) (data.set 304 0, ⟨0, n1, 1⟩)
  some ((((data.set 305 regs.t2).set 306 regs.t1).set 307 regs.t4).set 308 n1)

/-- The body of the innermost loop of `encshare4`: two words change places. -/
def encshare4Swap (src : Bytes) (state : Tbuff × UInt8) (i : Nat) : Tbuff × UInt8 :=
  let (dest, pos) := state
  let tmp := dest.word i
  let pos := pos + (tmp.toUInt8 + src.getD (i % src.length) 0)
  ((dest.set i (dest.word pos.toNat)).set pos.toNat tmp, pos)

/-- The body of the loop of `encshare4` over `y`. -/
def encshare4Round (src : Bytes) (dest : Tbuff) (y : Nat) : Tbuff :=
  let dest := (List.range 256).foldl
    (fun dest i => dest.set i ((dest.word i <<< 8) + UInt32.ofNat i)) dest
  let passes := (List.range 256 ++ List.range 256).foldl (encshare4Swap src)
    (dest, UInt8.ofNat y)
  passes.1

/-- `encshare4`: the table is made from the key `src`. There is no remainder by a `size` of 0. -/
def encshare4 (src : Bytes) (dest : Tbuff) : Option Tbuff :=
  if src.length = 0 then none
  else
    let dest := (List.range 256).foldl (fun dest i => dest.set i 0) dest
    let dest := (List.range 4).foldl (encshare4Round src) dest
    let dest :=
      (List.range 256).foldl (fun dest i => dest.set i (dest.word i ^^^ UInt32.ofNat i)) dest
    encshare3 dest 0 0

theorem Tbuff.set_self {i : Nat} (h : i < tbuffSize) (tbuff : Tbuff) (value : UInt32) :
    (tbuff.set i value).word i = value := by
  rw [Tbuff.word, Tbuff.set, Vector.getElem?_setIfInBounds_self_of_lt h, Option.getD_some]

theorem Tbuff.set_of_ne {i j : Nat} (h : j ≠ i) (tbuff : Tbuff) (value : UInt32) :
    (tbuff.set i value).word j = tbuff.word j := by
  rw [Tbuff.word, Tbuff.set, Vector.getElem?_setIfInBounds_ne h.symm, Tbuff.word]

theorem Tbuff.store_of_lt {i : Nat} (h : i < tbuffSize) (tbuff : Tbuff) (value : UInt32) :
    tbuff.store i value = some (tbuff.set i value) :=
  if_pos h

theorem Tbuff.load_of_lt {i : Nat} (h : i < tbuffSize) (tbuff : Tbuff) :
    tbuff.load i = some (tbuff.word i) :=
  if_pos h

/-- The nodes on the stack at `tbuff + 288`, the last one first. -/
def stackOf (tbuff : Tbuff) : Nat → List Nat
  | 0 => []
  | k + 1 => (tbuff.word (288 + k)).toNat :: stackOf tbuff k

@[simp] theorem stack_of_length (tbuff : Tbuff) (k : Nat) : (stackOf tbuff k).length = k := by
  induction k with
  | zero => rfl
  | succ k ih => simp [stackOf, ih]

/-- The stack only depends on its own words. -/
theorem stack_of_congr {tbuff tbuff' : Tbuff} {k : Nat}
    (h : ∀ i, 288 ≤ i → i < 288 + k → tbuff'.word i = tbuff.word i) :
    stackOf tbuff' k = stackOf tbuff k := by
  induction k with
  | zero => rfl
  | succ k ih =>
      rw [stackOf, stackOf, h (288 + k) (by omega) (by omega),
        ih fun i hlow hhigh => h i hlow (by omega)]

/-- So many words behind the last leaf, `t2` has gone below zero as often, and the next node is
taken from in front of the third stack. -/
def Overrun (tbuff : Tbuff) (regs : ShareRegs) (j : Nat) : Prop :=
  regs.t2.toNat + j = 2 ^ 32 ∧ regs.t5 = tbuff.word (288 - j) <<< 1 + 1

/-- The number of leaves that are left. -/
def WordsLeft (tbuff : Tbuff) (regs : ShareRegs) : Nat → Prop
  | 0 => Overrun tbuff regs 1
  | n + 1 => Walk 16 regs.t5.toNat (stackOf tbuff regs.t2.toNat) (n + 1)

/-- One round of the inner loop pushes its node and goes to the left. -/
theorem encshare2_push_spec (tbuff : Tbuff) (regs : ShareRegs) {k : Nat} (hk : k < 16) :
    ∃ tbuff' t1 t3, encshare2Push (k + 272) tbuff regs =
        some (tbuff', ⟨t1, regs.t2 + 1, t3, regs.t5 <<< 1⟩) ∧
      tbuff'.word (288 + k) = regs.t5 ∧
        ∀ i, 288 ≤ i → i ≠ 288 + k → tbuff'.word i = tbuff.word i := by
  have h1 : k + 272 + 1 - 17 < tbuffSize := by simp only [tbuffSize]; omega
  have h2 : k + 272 + 1 - 1 < tbuffSize := by simp only [tbuffSize]; omega
  have h3 : k + 272 + 1 + 15 < tbuffSize := by simp only [tbuffSize]; omega
  simp only [encshare2Push, Tbuff.store_of_lt h1, Tbuff.store_of_lt h2, Tbuff.store_of_lt h3,
    Option.bind_eq_bind, Option.bind_some]
  refine ⟨_, _, _, rfl, ?_, ?_⟩
  · rw [show 288 + k = k + 272 + 1 + 15 by omega, Tbuff.set_self h3]
  · intro i hlow hne
    rw [Tbuff.set_of_ne (by omega), Tbuff.set_of_ne (by omega), Tbuff.set_of_ne (by omega)]

theorem stack_of_push {tbuff tbuff' : Tbuff} {node : UInt32} {k : Nat}
    (hnode : tbuff'.word (288 + k) = node)
    (hrest : ∀ i, 288 ≤ i → i ≠ 288 + k → tbuff'.word i = tbuff.word i) :
    stackOf tbuff' (k + 1) = node.toNat :: stackOf tbuff k := by
  rw [stackOf, hnode, stack_of_congr fun i hlow hhigh => hrest i hlow (by omega)]

/-- Doubling a node above the leaves does not overflow. -/
theorem node_shift {node : UInt32} (h : node.toNat < 2 ^ 16) :
    (node <<< 1).toNat = 2 * node.toNat := by
  rw [UInt32.toNat_shiftLeft]
  simp only [UInt32.toNat_one, Nat.reduceMod, Nat.shiftLeft_eq, pow_one]
  omega

/-- The inner loop goes down to the next leaf. -/
theorem encshare2_descend_spec {tbuff : Tbuff} {regs : ShareRegs} (fuel : Nat) {k n : Nat}
    (hfuel : 17 ≤ fuel + k) (ht2 : regs.t2.toNat = k)
    (h : Walk 16 regs.t5.toNat (stackOf tbuff k) n) :
    ∃ tbuff' regs', encshare2Descend fuel (k + 272) tbuff regs = some (tbuff', regs') ∧
      2 ^ 16 ≤ regs'.t5.toNat ∧
      Walk 16 regs'.t5.toNat (stackOf tbuff' regs'.t2.toNat) n := by
  induction fuel generalizing tbuff regs k with
  | zero =>
      have hlen := h.stack_le
      rw [stack_of_length] at hlen
      omega
  | succ fuel ih =>
      by_cases hnode : regs.t5.toNat < 2 ^ 16
      -- above the leaves there is room for one node more
      · have hk := h.stack_lt hnode
        rw [stack_of_length] at hk
        obtain ⟨tbuff', t1, t3, hpush, htop, hrest⟩ :=
          encshare2_push_spec tbuff regs hk
        have hwalk := h.left hnode
        rw [← stack_of_push htop hrest, ← node_shift hnode] at hwalk
        have ht2' : (regs.t2 + 1).toNat = k + 1 := by
          rw [UInt32.toNat_add, ht2]
          simp only [UInt32.toNat_one]
          omega
        have hlt : regs.t5 < 65536 := UInt32.lt_iff_toNat_lt.mpr hnode
        obtain ⟨last, lastRegs, hrun, hleaf, hlast⟩ :=
          @ih tbuff' ⟨t1, regs.t2 + 1, t3, regs.t5 <<< 1⟩ (k + 1) (by omega) ht2' hwalk
        refine ⟨last, lastRegs, ?_, hleaf, hlast⟩
        rw [encshare2Descend, if_pos hlt, hpush]
        rw [show k + 272 + 1 = k + 1 + 272 by omega]
        exact hrun
      · have hge : ¬ regs.t5 < 65536 := fun hlt => hnode (UInt32.lt_iff_toNat_lt.mp hlt)
        refine ⟨tbuff, regs, ?_, by omega, by rwa [ht2]⟩
        rw [encshare2Descend, if_neg hge]

/-- The index `t2 - 1 + base` does not wrap around, even where `t2 - 1` does. -/
theorem popped_index {t2 : UInt32} (base : UInt32) (ht2 : t2.toNat ≤ 16) (hlow : 256 ≤ base.toNat)
    (hhigh : base.toNat ≤ 288) : (t2 - 1 + base).toNat + 1 = t2.toNat + base.toNat := by
  rw [UInt32.toNat_add, UInt32.toNat_sub]
  simp only [UInt32.toNat_one]
  omega

/-- A popped node's right child does not overflow. -/
theorem right_child {node : UInt32} (h : 2 * node.toNat + 1 < 2 ^ 17) :
    (node <<< 1 + 1).toNat = 2 * node.toNat + 1 := by
  rw [UInt32.toNat_add, node_shift (by omega)]
  simp only [UInt32.toNat_one]
  omega

/-- A word of key stream is made if a leaf is left. -/
theorem encshare2_word_spec {tbuff : Tbuff} {regs : ShareRegs} {tbuffp n : Nat}
    (hlow : 309 ≤ tbuffp) (hhigh : tbuffp < tbuffSize) (h : WordsLeft tbuff regs (n + 1)) :
    ∃ tbuff' regs', encshare2Word tbuffp tbuff regs = some (tbuff', regs') ∧
      WordsLeft tbuff' regs' n := by
  have hstack : regs.t2.toNat ≤ 16 := by simpa using Walk.stack_le h
  obtain ⟨down, leaf, hdescend, hleaf, hwalk⟩ :=
    encshare2_descend_spec tbuffSize (by simp only [tbuffSize]; omega) rfl h
  have ht2 : leaf.t2.toNat ≤ 16 := by simpa using hwalk.stack_le
  have h256 := popped_index 256 ht2 (by decide) (by decide)
  have h272 := popped_index 272 ht2 (by decide) (by decide)
  have h288 := popped_index 288 ht2 (by decide) (by decide)
  simp only [UInt32.reduceToNat] at h256 h272 h288
  have hl256 : (leaf.t2 - 1 + 256).toNat < tbuffSize := by simp only [tbuffSize]; omega
  have hl272 : (leaf.t2 - 1 + 272).toNat < tbuffSize := by simp only [tbuffSize]; omega
  have hl288 : (leaf.t2 - 1 + 288).toNat < tbuffSize := by simp only [tbuffSize]; omega
  simp only [encshare2Word, hdescend, Tbuff.store_of_lt hhigh, Tbuff.load_of_lt hl256,
    Tbuff.load_of_lt hl272, Tbuff.load_of_lt hl288, Option.bind_eq_bind, Option.bind_some]
  refine ⟨_, _, rfl, ?_⟩
  cases hk : leaf.t2.toNat with
  | zero =>
      -- behind the last leaf there is nothing to pop, and `t2` goes below zero
      rw [hk] at hwalk
      obtain rfl : n = 0 := by simpa using hwalk.last hleaf
      have hzero : leaf.t2 = 0 := UInt32.toNat_inj.mp hk
      show (leaf.t2 - 1).toNat + 1 = 2 ^ 32 ∧ _
      rw [hzero]
      exact ⟨rfl, rfl⟩
  | succ k =>
      rw [hk] at hwalk
      have hnext := hwalk.next hleaf
      obtain ⟨m, rfl⟩ : ∃ m, n = m + 1 := Nat.exists_eq_succ_of_ne_zero hnext.pos.ne'
      have hpopped : (leaf.t2 - 1).toNat = k := by
        rw [UInt32.toNat_sub, hk]
        simp only [UInt32.toNat_one]
        omega
      have hindex : (leaf.t2 - 1 + 288).toNat = 288 + k := by omega
      show Walk 16 (((down.set tbuffp _).word (leaf.t2 - 1 + 288).toNat) <<< 1 + 1).toNat
        (stackOf _ (leaf.t2 - 1).toNat) (m + 1)
      rw [hindex, hpopped, Tbuff.set_of_ne (by omega), right_child hnext.node_lt,
        stack_of_congr fun i _ hi => Tbuff.set_of_ne (by omega) down _]
      exact hnext

/-- The number of leaves that are left in the state which `tbuff` keeps. -/
def Tbuff.Left (tbuff : Tbuff) (n : Nat) : Prop :=
  WordsLeft tbuff tbuff.regs n

/-- Writing the registers back keeps the leaves left. -/
theorem left_of_words_left {tbuff last : Tbuff} {regs : ShareRegs} {n : Nat}
    (h : WordsLeft tbuff regs n) (hregs : last.regs = regs)
    (hstack : ∀ i < 304, last.word i = tbuff.word i) : last.Left n := by
  rw [Tbuff.Left, hregs]
  cases n with
  | zero => exact ⟨h.1, by rw [hstack _ (by decide)]; exact h.2⟩
  | succ n =>
      have ht2 : regs.t2.toNat ≤ 16 := by simpa using Walk.stack_le h
      show Walk 16 _ (stackOf last regs.t2.toNat) (n + 1)
      rw [stack_of_congr fun i _ hhigh => hstack i (by omega)]
      exact h

/-- What `encshare2` leaves: the registers are in their words, and the others are as the loop left
them. -/
theorem encshare2_of_loop {tbuff last : Tbuff} {regs : ShareRegs}
    (h : encshare2Loop 16 309 tbuff tbuff.regs = some (last, regs)) :
    ∃ kept, encshare2 tbuff 309 16 = some kept ∧ kept.regs = regs ∧
      ∀ i, i < 304 ∨ 308 < i → kept.word i = last.word i := by
  refine ⟨(((last.set 304 regs.t2).set 305 regs.t1).set 306 regs.t3).set 307 regs.t5, ?_, ?_, ?_⟩
  · rw [encshare2, h]
    rfl
  · simp (disch := decide) only [Tbuff.regs, Tbuff.set_self, Tbuff.set_of_ne]
  · intro i hi
    rw [Tbuff.set_of_ne (by omega), Tbuff.set_of_ne (by omega), Tbuff.set_of_ne (by omega),
      Tbuff.set_of_ne (by omega)]

/-- A word that can be taken for a leaf: its right child is not above the leaves. -/
def PassesLeaf (word : UInt32) : Prop :=
  ¬ word <<< 1 + 1 < 65536

instance (word : UInt32) : Decidable (PassesLeaf word) :=
  inferInstanceAs (Decidable (¬ _))

section Overrun

variable {tbuff : Tbuff} {regs : ShareRegs} {tbuffp j : Nat}

/-- The index `t2 - 1 + base` behind the last leaf. -/
theorem overrun_index {t2 : UInt32} (base : UInt32) (ht2 : t2.toNat + j = 2 ^ 32) (hj : 0 < j)
    (hend : j < base.toNat) : (t2 - 1 + base).toNat = base.toNat - (j + 1) := by
  have hbase := base.toNat_lt
  rw [UInt32.toNat_add, UInt32.toNat_sub]
  simp only [UInt32.toNat_one]
  omega

/-- A word behind the last leaf is made of what is in front of the stacks. -/
theorem encshare2_word_overrun (hlow : 309 ≤ tbuffp) (hhigh : tbuffp < tbuffSize)
    (h : Overrun tbuff regs j) (hj : 0 < j) (hend : j < 256)
    (hleaf : PassesLeaf (tbuff.word (288 - j))) :
    ∃ tbuff' regs', encshare2Word tbuffp tbuff regs = some (tbuff', regs') ∧
      Overrun tbuff' regs' (j + 1) ∧ ∀ i < 304, tbuff'.word i = tbuff.word i := by
  obtain ⟨ht2, ht5⟩ := h
  have hdescend : encshare2Descend tbuffSize (regs.t2.toNat + 272) tbuff regs =
      some (tbuff, regs) := by
    rw [PassesLeaf, ← ht5] at hleaf
    exact if_neg hleaf
  have h256 := overrun_index 256 ht2 hj hend
  have h272 := overrun_index 272 ht2 hj (hend.trans (by decide))
  have h288 := overrun_index 288 ht2 hj (hend.trans (by decide))
  simp only [UInt32.reduceToNat] at h256 h272 h288
  have hl256 : (regs.t2 - 1 + 256).toNat < tbuffSize := by simp only [tbuffSize]; omega
  have hl272 : (regs.t2 - 1 + 272).toNat < tbuffSize := by simp only [tbuffSize]; omega
  have hl288 : (regs.t2 - 1 + 288).toNat < tbuffSize := by simp only [tbuffSize]; omega
  simp only [encshare2Word, hdescend, Tbuff.store_of_lt hhigh, Tbuff.load_of_lt hl256,
    Tbuff.load_of_lt hl272, Tbuff.load_of_lt hl288, Option.bind_eq_bind, Option.bind_some]
  refine ⟨_, _, rfl, ⟨?_, by rw [h288]⟩, fun i hi => Tbuff.set_of_ne (by omega) _ _⟩
  show (regs.t2 - 1).toNat + (j + 1) = 2 ^ 32
  rw [UInt32.toNat_sub]
  simp only [UInt32.toNat_one]
  omega

/-- A node above the leaves has `encshare2` write behind `tbuff`. -/
theorem encshare2_word_of_node (h : Overrun tbuff regs j) (hj : j ≤ 256)
    (hnode : ¬ PassesLeaf (tbuff.word (288 - j))) : encshare2Word tbuffp tbuff regs = none := by
  obtain ⟨ht2, ht5⟩ := h
  have hz : regs.t5 < 65536 := by
    rw [PassesLeaf, ← ht5, not_not] at hnode
    exact hnode
  have hout : ¬ regs.t2.toNat + 272 + 1 - 17 < tbuffSize := by
    simp only [tbuffSize]
    omega
  have hpush : encshare2Push (regs.t2.toNat + 272) tbuff regs = none := by
    have hstore : ∀ value, tbuff.store (regs.t2.toNat + 272 + 1 - 17) value = none :=
      fun value => if_neg hout
    simp only [encshare2Push, hstore, Option.bind_eq_bind, Option.bind_none]
  have hdescend : encshare2Descend tbuffSize (regs.t2.toNat + 272) tbuff regs = none := by
    rw [tbuffSize, encshare2Descend, if_pos hz, hpush]
    rfl
  rw [encshare2Word, hdescend]
  rfl

/-- As many words behind the last leaf as the table has, `encshare2` reads in front of `tbuff`. -/
theorem encshare2_word_of_end (h : Overrun tbuff regs 256) :
    encshare2Word tbuffp tbuff regs = none := by
  by_cases hleaf : PassesLeaf (tbuff.word (288 - 256))
  · obtain ⟨ht2, ht5⟩ := h
    have hdescend : encshare2Descend tbuffSize (regs.t2.toNat + 272) tbuff regs =
        some (tbuff, regs) := by
      rw [PassesLeaf, ← ht5] at hleaf
      exact if_neg hleaf
    have hindex : (regs.t2 - 1 + 256).toNat = 2 ^ 32 - 1 := by
      rw [UInt32.toNat_add, UInt32.toNat_sub]
      simp only [UInt32.toNat_one, UInt32.reduceToNat]
      omega
    have hload : ∀ tbuff : Tbuff, tbuff.load (regs.t2 - 1 + 256).toNat = none :=
      fun tbuff => if_neg (by rw [hindex]; decide)
    rw [encshare2Word, hdescend]
    cases hstore : tbuff.store tbuffp (regs.t3 ^^^ regs.t1) with
    | none => simp only [hstore, Option.bind_eq_bind, Option.bind_some, Option.bind_none]
    | some next =>
        simp only [hstore, hload, Option.bind_eq_bind, Option.bind_some, Option.bind_none]
  · exact encshare2_word_of_node h le_rfl hleaf

/-- Words are made as long as they can be taken for leaves. -/
theorem encshare2_loop_overrun {len : Nat} (hlow : 309 ≤ tbuffp)
    (hhigh : tbuffp + len ≤ tbuffSize) (h : Overrun tbuff regs j) (hj : 0 < j)
    (hend : j + len ≤ 256) (hleaves : ∀ i < len, PassesLeaf (tbuff.word (288 - (j + i)))) :
    ∃ tbuff' regs', encshare2Loop len tbuffp tbuff regs = some (tbuff', regs') ∧
      Overrun tbuff' regs' (j + len) ∧ ∀ i < 304, tbuff'.word i = tbuff.word i := by
  induction len generalizing tbuff regs tbuffp j with
  | zero => exact ⟨tbuff, regs, rfl, h, fun _ _ => rfl⟩
  | succ len ih =>
      obtain ⟨next, nextRegs, hword, hnext, hkept⟩ :=
        encshare2_word_overrun hlow (by omega) h hj (by omega) (hleaves 0 (Nat.succ_pos len))
      have hrest : ∀ i < len, PassesLeaf (next.word (288 - (j + 1 + i))) := by
        intro i hi
        rw [hkept _ (by omega), show j + 1 + i = j + (i + 1) by omega]
        exact hleaves (i + 1) (by omega)
      obtain ⟨last, lastRegs, hloop, hlast, hlastKept⟩ :=
        @ih next nextRegs (tbuffp + 1) (j + 1) (by omega) (by omega) hnext (Nat.succ_pos j)
          (by omega) hrest
      refine ⟨last, lastRegs, by simp [encshare2Loop, hword, hloop], ?_, fun i hi =>
        (hlastKept i hi).trans (hkept i hi)⟩
      rwa [show j + (len + 1) = j + 1 + len by omega]

/-- One word that cannot be made ends the loop. -/
theorem encshare2_loop_none {len : Nat} (hlow : 309 ≤ tbuffp)
    (hhigh : tbuffp + len ≤ tbuffSize) (h : Overrun tbuff regs j) (hj : 0 < j)
    (hend : j ≤ 256) (hnone : (∃ i < len, ¬ PassesLeaf (tbuff.word (288 - (j + i)))) ∨
      256 < j + len) : encshare2Loop len tbuffp tbuff regs = none := by
  induction len generalizing tbuff regs tbuffp j with
  | zero =>
      obtain ⟨i, hi, -⟩ | hlong := hnone
      · exact absurd hi (Nat.not_lt_zero i)
      · omega
  | succ len ih =>
      by_cases hfirst : j < 256 ∧ PassesLeaf (tbuff.word (288 - j))
      · obtain ⟨next, nextRegs, hword, hnext, hkept⟩ :=
          encshare2_word_overrun hlow (by omega) h hj hfirst.1 hfirst.2
        have hrest : (∃ i < len, ¬ PassesLeaf (next.word (288 - (j + 1 + i)))) ∨
            256 < j + 1 + len := by
          refine hnone.imp ?_ (by omega)
          rintro ⟨i, hi, hnode⟩
          cases i with
          | zero => exact absurd hfirst.2 hnode
          | succ i =>
              refine ⟨i, by omega, ?_⟩
              rwa [hkept _ (by omega), show j + 1 + i = j + (i + 1) by omega]
        have hloop := @ih next nextRegs (tbuffp + 1) (j + 1) (by omega) (by omega) hnext
          (Nat.succ_pos j) (by omega) hrest
        simp [encshare2Loop, hword, hloop]
      · have hword : encshare2Word tbuffp tbuff regs = none := by
          by_cases hlast : j = 256
          · subst hlast
            exact encshare2_word_of_end h
          · exact encshare2_word_of_node h hend fun hleaf => hfirst ⟨by omega, hleaf⟩
        simp [encshare2Loop, hword]

/-- How often `encshare2` makes 16 words of what is in front of the stacks. -/
def overrunBlocks (word : Nat → UInt32) : Nat :=
  Nat.findGreatest (fun blocks => ∀ i < 16 * blocks, PassesLeaf (word (287 - i))) 15

end Overrun

/-- How often `encshare2` makes 16 words, exactly. -/
inductive BlocksLeft : Tbuff → Nat → Prop where
  | done {tbuff : Tbuff} (hrun : encshare2 tbuff 309 16 = none) : BlocksLeft tbuff 0
  | made {tbuff next : Tbuff} {blocks : Nat} (hrun : encshare2 tbuff 309 16 = some next)
      (hrest : BlocksLeft next blocks) : BlocksLeft tbuff (blocks + 1)

/-- All the words of the blocks are leaves, and the next block has a node unless it is the last. -/
theorem overrun_blocks_spec (word : Nat → UInt32) :
    overrunBlocks word ≤ 15 ∧ (∀ i < 16 * overrunBlocks word, PassesLeaf (word (287 - i))) ∧
      (overrunBlocks word < 15 →
        ∃ i < 16, ¬ PassesLeaf (word (287 - (16 * overrunBlocks word + i)))) := by
  have hpass : ∀ i < 16 * overrunBlocks word, PassesLeaf (word (287 - i)) :=
    @Nat.findGreatest_spec 0 (fun blocks => ∀ i < 16 * blocks, PassesLeaf (word (287 - i))) _ 15
      (Nat.zero_le 15) fun i hi => absurd hi (by omega)
  refine ⟨Nat.findGreatest_le 15, hpass, fun hlast => ?_⟩
  have hnext : ¬ ∀ i < 16 * (overrunBlocks word + 1), PassesLeaf (word (287 - i)) :=
    Nat.findGreatest_is_greatest (Nat.lt_succ_self _) hlast
  push Not at hnext
  obtain ⟨i, hi, hnode⟩ := hnext
  have hfrom : 16 * overrunBlocks word ≤ i := by
    by_contra hbefore
    exact hnode (hpass i (by omega))
  refine ⟨i - 16 * overrunBlocks word, by omega, ?_⟩
  rwa [Nat.add_sub_cancel' hfrom]

/-- Behind the last leaf `encshare2` goes on until a word is a node above the leaves, or until it
has come to the front of `tbuff`. -/
theorem blocks_left_overrun {tbuff : Tbuff} {word : Nat → UInt32} (h : tbuff.Left 0)
    (hword : ∀ i < 288, tbuff.word i = word i) : BlocksLeft tbuff (overrunBlocks word) := by
  have hspec := overrun_blocks_spec word
  generalize overrunBlocks word = total at hspec
  obtain ⟨hle, hpass, hstop⟩ := hspec
  -- induction on the blocks that are still made, `done` blocks behind the last leaf
  have hrest : ∀ blocks (tbuff : Tbuff) done, done + blocks = total →
      Overrun tbuff tbuff.regs (16 * done + 1) → (∀ i < 288, tbuff.word i = word i) →
      BlocksLeft tbuff blocks := by
    intro blocks
    induction blocks with
    | zero =>
        rintro tbuff done rfl hover hword
        have hnone : (∃ i < 16, ¬ PassesLeaf (tbuff.word (288 - (16 * done + 1 + i)))) ∨
            256 < 16 * done + 1 + 16 := by
          by_cases hlast : done < 15
          · obtain ⟨i, hi, hnode⟩ := hstop hlast
            refine .inl ⟨i, hi, ?_⟩
            rwa [hword _ (by omega),
              show 288 - (16 * done + 1 + i) = 287 - (16 * (done + 0) + i) by omega]
          · exact .inr (by omega)
        have hloop := encshare2_loop_none le_rfl (by decide) hover (Nat.succ_pos _) (by omega) hnone
        exact .done (by rw [encshare2, hloop]; rfl)
    | succ blocks ih =>
        rintro tbuff done hdone hover hword
        have hleaves : ∀ i < 16, PassesLeaf (tbuff.word (288 - (16 * done + 1 + i))) := by
          intro i hi
          rw [hword _ (by omega),
            show 288 - (16 * done + 1 + i) = 287 - (16 * done + i) by omega]
          exact hpass _ (by omega)
        obtain ⟨last, regs, hloop, hlast, hkept⟩ :=
          encshare2_loop_overrun le_rfl (by decide) hover (Nat.succ_pos _) (by omega) hleaves
        obtain ⟨next, hrun, hregs, hwords⟩ := encshare2_of_loop hloop
        refine .made hrun (ih next (done + 1) (by omega) ?_ fun i hi => ?_)
        · rw [hregs, Overrun, hwords _ (.inl (by omega))]
          exact hlast
        · rw [hwords i (.inl (by omega)), hkept i (by omega), hword i hi]
  exact hrest _ tbuff 0 (Nat.zero_add _) h hword

/-- The number of bytes of key stream that are left in a state of the loop of `encshare1`. -/
def BytesLeft (state : Tbuff × Nat) (m : Nat) : Prop :=
  ∃ blocks, BlocksLeft state.1 blocks ∧ state.2 ≤ 63 ∧ m = 63 - state.2 + 63 * blocks

/-- A byte of key stream is made if one is left. -/
theorem encshare1_next_spec (state : Tbuff × Nat) (m : Nat) (h : BytesLeft state (m + 1)) :
    ∃ key after, encshare1Next state = some (key, after) ∧ BytesLeft after m := by
  obtain ⟨tbuff, off⟩ := state
  obtain ⟨blocks, hleft, hoff, hm⟩ := h
  dsimp only at hleft hoff hm
  by_cases hend : off = 63
  -- 63 bytes of the 64 are used, then 16 words more are made
  · obtain ⟨blocks, rfl⟩ : ∃ rest, blocks = rest + 1 := ⟨blocks - 1, by omega⟩
    cases hleft with
    | @made _ next _ hnext hrest =>
        exact ⟨streamByte next 0, (next, 1), by simp [encshare1Next, hend, hnext],
          blocks, hrest, by simp, by dsimp only; omega⟩
  · exact ⟨streamByte tbuff off, (tbuff, off + 1), by simp [encshare1Next, hend],
      blocks, hleft, by dsimp only; omega, by dsimp only; omega⟩

/-- Where no byte is left, the next one is undefined. -/
theorem encshare1_next_none (state : Tbuff × Nat) (h : BytesLeft state 0) :
    encshare1Next state = none := by
  obtain ⟨tbuff, off⟩ := state
  obtain ⟨blocks, hleft, hoff, hm⟩ := h
  dsimp only at hleft hoff hm
  obtain rfl : blocks = 0 := by omega
  obtain rfl : off = 63 := by omega
  cases hleft with
  | done hnone => simp [encshare1Next, hnone]

/-- `encshare1` is defined on 63 bytes for each 16 words that `encshare2` makes, and no more. -/
theorem encshare1_is_some_iff {tbuff : Tbuff} {blocks : Nat} (h : BlocksLeft tbuff (blocks + 1))
    (data : Bytes) : (encshare1 tbuff data).isSome ↔ data.length ≤ 63 * (blocks + 1) := by
  cases h with
  | @made _ first _ hfirst hrest =>
      have hbytes : BytesLeft (first, 0) (63 * (blocks + 1)) :=
        ⟨blocks, hrest, by simp, by simp only; omega⟩
      rw [← try_run_is_some_iff encshare1_next_spec encshare1_next_none hbytes data]
      simp [encshare1, hfirst]

/-- `encshare1` undoes itself. -/
theorem encshare1_encshare1 {tbuff : Tbuff} {data cipher : Bytes}
    (h : encshare1 tbuff data = some cipher) : encshare1 tbuff cipher = some data := by
  simp only [encshare1, Option.bind_eq_bind, Option.bind_eq_some_iff, Option.map_eq_some_iff] at h
  obtain ⟨first, hfirst, ⟨cipher, last⟩, hrun, rfl⟩ := h
  simp [encshare1, hfirst, try_run_xor_xor hrun]

/-- `encshare1` keeps the length of the data. -/
theorem encshare1_length {tbuff : Tbuff} {data cipher : Bytes}
    (h : encshare1 tbuff data = some cipher) : cipher.length = data.length := by
  simp only [encshare1, Option.bind_eq_bind, Option.bind_eq_some_iff, Option.map_eq_some_iff] at h
  obtain ⟨first, -, ⟨cipher, last⟩, hrun, rfl⟩ := h
  exact try_run_length hrun

/-- A round of `encshare3` that takes no bit of `n2` pushes its node and goes to the left. -/
theorem encshare3_round_spec {data : Tbuff} (regs : KeyRegs) {k : Nat} (hk : k < 16)
    (hcount : (data.word 304).toNat = k) (bit : UInt32) :
    ∃ data' t1 t2, encshare3Round 0 (data, regs) bit =
        some (data', ⟨t1, t2, regs.t4 <<< 1⟩) ∧
      (data'.word 304).toNat = k + 1 ∧ data'.word (288 + k) = regs.t4 ∧
      ∀ i, 288 ≤ i → i < 304 → i ≠ 288 + k → data'.word i = data.word i := by
  have h256 : (data.word 304 + 256).toNat = k + 256 := by
    rw [UInt32.toNat_add, hcount]
    simp only [UInt32.reduceToNat]
    omega
  have h272 : (data.word 304 + 272).toNat = k + 272 := by
    rw [UInt32.toNat_add, hcount]
    simp only [UInt32.reduceToNat]
    omega
  have h288 : (data.word 304 + 288).toNat = 288 + k := by
    rw [UInt32.toNat_add, hcount]
    simp only [UInt32.reduceToNat]
    omega
  have h1 : k + 256 < tbuffSize := by simp only [tbuffSize]; omega
  have h2 : k + 272 < tbuffSize := by simp only [tbuffSize]; omega
  have h3 : 288 + k < tbuffSize := by simp only [tbuffSize]; omega
  have hbit : ¬ (0 &&& bit) ≠ 0 := by simp
  simp only [encshare3Round, if_neg hbit, h256, Tbuff.store_of_lt h1, Option.bind_eq_bind,
    Option.bind_some, Tbuff.set_of_ne (show 304 ≠ k + 256 by omega), h272, Tbuff.store_of_lt h2,
    Tbuff.set_of_ne (show 304 ≠ k + 272 by omega), h288, Tbuff.store_of_lt h3,
    Tbuff.set_of_ne (show 304 ≠ 288 + k by omega)]
  refine ⟨_, _, _, rfl, ?_, ?_, ?_⟩
  · rw [Tbuff.set_self (by decide), UInt32.toNat_add, hcount]
    simp only [UInt32.toNat_one]
    omega
  · rw [Tbuff.set_of_ne (by omega), Tbuff.set_self h3]
  · intro i hlow hhigh hne
    rw [Tbuff.set_of_ne (by omega), Tbuff.set_of_ne hne, Tbuff.set_of_ne (by omega),
      Tbuff.set_of_ne (by omega)]

/-- The rounds of `encshare3` that take no bit of `n2` go down to the first leaf. -/
theorem encshare3_rounds_spec {bits : List UInt32} {data : Tbuff} {regs : KeyRegs} {k : Nat}
    (hbits : bits.length + k = 16) (hcount : (data.word 304).toNat = k)
    (hnode : regs.t4.toNat = 2 ^ k) (h : Walk 16 (2 ^ k) (stackOf data k) (2 ^ 16)) :
    ∃ data' regs', bits.foldlM (encshare3Round 0) (data, regs) = some (data', regs') ∧
      (data'.word 304).toNat = 16 ∧ Walk 16 regs'.t4.toNat (stackOf data' 16) (2 ^ 16) := by
  induction bits generalizing data regs k with
  | nil =>
      obtain rfl : k = 16 := by simpa using hbits
      exact ⟨data, regs, rfl, hcount, by rwa [hnode]⟩
  | cons bit bits ih =>
      have hk : k < 16 := by
        simp only [List.length_cons] at hbits
        omega
      have hpow : 2 ^ k < 2 ^ 16 := Nat.pow_lt_pow_right (by decide) hk
      obtain ⟨data', t1, t2, hround, hcount', htop, hrest⟩ :=
        encshare3_round_spec regs hk hcount bit
      have hnode' : (regs.t4 <<< 1).toNat = 2 ^ (k + 1) := by
        rw [node_shift (by omega), hnode, pow_succ]
        omega
      have hwalk := h.left hpow
      have hstack : stackOf data' (k + 1) = 2 ^ k :: stackOf data k := by
        rw [stackOf, htop, hnode,
          stack_of_congr fun i hlow hhigh => hrest i hlow (by omega) (by omega)]
      rw [← hstack, ← Nat.pow_succ'] at hwalk
      obtain ⟨last, lastRegs, hrun, hlast⟩ :=
        @ih data' ⟨t1, t2, regs.t4 <<< 1⟩ (k + 1) (by simp only [List.length_cons] at hbits; omega)
          hcount' hnode' hwalk
      exact ⟨last, lastRegs, by simp [List.foldlM_cons, hround, hrun], hlast⟩

/-- With `n2 = 0`, `encshare3` starts a key stream at the first leaf. -/
theorem encshare3_spec (data : Tbuff) (n1 : UInt32) :
    ∃ data', encshare3 data n1 0 = some data' ∧ data'.Left (2 ^ 16) := by
  obtain ⟨last, regs, hrun, hcount, hwalk⟩ :=
    @encshare3_rounds_spec encshare3Bits (data.set 304 0) ⟨0, n1, 1⟩ 0 (by simp [encshare3Bits])
      (by rw [Tbuff.set_self (by decide)]; rfl) rfl (walk_root 16)
  have hkey : encshare3 data n1 0 =
      some ((((last.set 305 regs.t2).set 306 regs.t1).set 307 regs.t4).set 308 n1) := by
    rw [encshare3, hrun]
    rfl
  have hwords : WordsLeft last ⟨regs.t2, last.word 304, regs.t1, regs.t4⟩ (2 ^ 16) := by
    show Walk 16 regs.t4.toNat (stackOf last (last.word 304).toNat) (2 ^ 16 - 1 + 1)
    rw [hcount]
    exact hwalk
  refine ⟨_, hkey, left_of_words_left hwords ?_ ?_⟩
  · simp (disch := decide) only [Tbuff.regs, Tbuff.set_self, Tbuff.set_of_ne]
  · intro i hi
    rw [Tbuff.set_of_ne (by omega), Tbuff.set_of_ne (by omega), Tbuff.set_of_ne (by omega),
      Tbuff.set_of_ne (by omega)]

/-- Every key that is not empty starts a key stream. -/
theorem encshare4_spec {src : Bytes} (hsrc : src ≠ []) (dest : Tbuff) :
    ∃ tbuff, encshare4 src dest = some tbuff ∧ tbuff.Left (2 ^ 16) := by
  rw [encshare4, if_neg (by simpa using hsrc)]
  exact encshare3_spec _ 0

end OpenSpy.ServerBrowsing
