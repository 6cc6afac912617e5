import OpenSpy.ServerBrowsing.EnctypeShared

/-!
# The cipher of encryption type 2

`gutil.cpp` has the cipher of `enctype_shared.cpp` once more, with a record in place of the words of
`tbuff`. Where `encshare2` goes below its stacks behind the last leaf of the tree, `crypt_encrypt`
starts again from the bottom of them.

So `crypt_docrypt` is defined for data of any length, and on the bytes of the 65536 leaves both are
the same cipher: `crypt_docrypt_eq_encshare1`.
-/

namespace OpenSpy.ServerBrowsing

open LeafWalk StreamCipher

/-- `CRYPT_HEIGHT`. -/
def cryptHeight : Nat := 16

/-- `NWORDS`. -/
def nwords : Nat := 16

/-- `x`, `y` and `z`. -/
structure CryptNode where
  x : UInt32
  y : UInt32
  z : UInt32

/-- `crypt_key`. Its three stacks are one, of nodes, and `keyptr` counts from `keydata`. -/
structure CryptEngine where
  F : Vector UInt32 256
  stack : Vector CryptNode cryptHeight
  index : Nat
  node : CryptNode
  keydata : List UInt32
  keyptr : Option Nat

/-- `ROT8`. -/
def rot8 (x : UInt32) : UInt32 :=
  (x <<< 8) ||| (x >>> 24)

/-- `ROT24`. -/
def rot24 (x : UInt32) : UInt32 :=
  (x <<< 24) ||| (x >>> 8)

/-- `F[i]` at an index inside the table. -/
def tableWord (F : Vector UInt32 256) (i : Nat) : UInt32 :=
  F[i]?.getD 0

/-- `x ^= F[x & 0xFF]`. -/
def mixWord (F : Vector UInt32 256) (x : UInt32) : UInt32 :=
  x ^^^ tableWord F (x &&& 0xff).toNat

namespace CryptNode

/-- The macro `d`. -/
def down (node : CryptNode) : CryptNode :=
  let x := node.x + node.z
  let y := node.y + x
  ⟨x + y, y, node.z⟩

/-- The macro `f`. -/
def left (F : Vector UInt32 256) (node : CryptNode) : CryptNode :=
  let y := rot24 node.y
  let x := mixWord F node.x
  let y := mixWord F y
  let y := rot24 y
  let x := rot8 x
  let x := mixWord F x
  let y := mixWord F y
  let x := rot8 x
  ⟨x, y, node.z + node.z⟩

/-- The macro `g`. -/
def right (F : Vector UInt32 256) (node : CryptNode) : CryptNode :=
  let x := ~~~node.x
  let x := rot24 x
  let x := mixWord F x
  let y := mixWord F node.y
  let x := rot24 x
  let y := rot8 y
  let x := mixWord F x
  let y := mixWord F y
  let y := rot8 y
  ⟨x, y, node.z + (node.z + 1)⟩

/-- The macro `h`. -/
def leaf (node : CryptNode) : UInt32 :=
  node.x ^^^ node.y

end CryptNode

namespace CryptEngine

/-- The node goes on the stacks and to the left. -/
def push (engine : CryptEngine) : Option CryptEngine :=
  if engine.index < cryptHeight then
    some { engine with
      stack := engine.stack.setIfInBounds engine.index engine.node
      index := engine.index + 1
      node := engine.node.left engine.F }
  else none

/-- The body of the loop of `crypt_seek`. -/
def seekRound (leafNum : UInt32) (engine : CryptEngine) (i : UInt32) : Option CryptEngine :=
  let engine := { engine with node := engine.node.down }
  if i &&& leafNum ≠ 0 then some { engine with node := engine.node.right engine.F }
  else engine.push

/-- `crypt_seek`. -/
def cryptSeek (engine : CryptEngine) (treeNum leafNum : UInt32) : Option CryptEngine :=
  ((List.range 16).map fun k => 32768 >>> UInt32.ofNat k).foldlM (seekRound leafNum)
    { engine with index := 0, node := ⟨treeNum, 0, 1⟩ }

/-- The inner loop of `crypt_encrypt`. Each round pushes a node, so a loop that never ended would
leave the stacks before its fuel is gone. -/
def descend : Nat → CryptEngine → Option CryptEngine
  | 0, _ => none
  | fuel + 1, engine =>
      if engine.node.z < 65536 then do
        let engine ← { engine with node := engine.node.down }.push
        descend fuel engine
      else some engine

/-- The body of the loop of `crypt_encrypt`. The index does not go below zero. -/
def encryptWord (engine : CryptEngine) : Option (UInt32 × CryptEngine) := do
  let engine ← engine.descend (cryptHeight + 1)
  let index := engine.index - 1
  let node ← engine.stack[index]?
  some (engine.node.leaf, { engine with index := index, node := node.right engine.F })

/-- `crypt_encrypt`: the words that it writes. -/
def cryptEncrypt : Nat → CryptEngine → Option (List UInt32 × CryptEngine)
  | 0, engine => some ([], engine)
  | nodes + 1, engine => do
      let (word, engine) ← engine.encryptWord
      let (words, engine) ← cryptEncrypt nodes engine
      some (word :: words, engine)

/-- The next words of the key stream, with the pointer at the first byte. -/
def refill (engine : CryptEngine) : Option CryptEngine :=
  (cryptEncrypt nwords engine).map fun (keydata, engine) =>
    { engine with keydata := keydata, keyptr := some 0 }

/-- The byte at the pointer, which goes on, on a little-endian host. -/
def keyByte (engine : CryptEngine) (off : Nat) : UInt8 × CryptEngine :=
  ((engine.keydata.getD (off / 4) 0 >>> (8 * UInt32.ofNat (off % 4))).toUInt8,
    { engine with keyptr := some (off + 1) })

/-- A round of `crypt_docrypt`: the next byte of the key stream. Of each 16 words the last byte is
not used. -/
def docryptNext (engine : CryptEngine) : Option (UInt8 × CryptEngine) :=
  match engine.keyptr with
  | none => engine.refill.map fun engine => engine.keyByte 0
  | some off =>
      if off ≥ 4 * nwords - 1 then engine.refill.map fun engine => engine.keyByte 0
      else some (engine.keyByte off)

/-- `crypt_docrypt`. -/
def cryptDocrypt (engine : CryptEngine) (data : Bytes) : Option (Bytes × CryptEngine) :=
  tryRun (tryXorStep docryptNext) engine data

end CryptEngine

/-- The body of the innermost loop of `init_crypt_key`. -/
def cryptKeySwap (key : Bytes) (state : Vector UInt32 256 × UInt32) (i : Nat) :
    Vector UInt32 256 × UInt32 :=
  let (F, index) := state
  let index := (index + ((key.getD (i % key.length) 0).toUInt32 + tableWord F i)) &&& 255
  let tmp := tableWord F i
  ((F.setIfInBounds i (tableWord F index.toNat)).setIfInBounds index.toNat tmp, index)

/-- The body of the loop of `init_crypt_key` over `j`, with both passes. -/
def cryptKeyRound (key : Bytes) (F : Vector UInt32 256) (j : Nat) : Vector UInt32 256 :=
  let F := (List.range 256).foldl
    (fun F i => F.setIfInBounds i (tableWord F i * 256 + UInt32.ofNat i)) F
  ((List.range 256 ++ List.range 256).foldl (cryptKeySwap key) (F, UInt32.ofNat j)).1

/-- The table of `init_crypt_key`. -/
def cryptTable (key : Bytes) : Vector UInt32 256 :=
  let F := (List.range 4).foldl (cryptKeyRound key) (.replicate 256 0)
  (List.range 256).foldl (fun F i => F.setIfInBounds i (tableWord F i ^^^ UInt32.ofNat i)) F

/-- `init_crypt_key`. There is no remainder by a `bytes_in_key` of 0. -/
def initCryptKey (key : Bytes) (L : CryptEngine) : Option CryptEngine :=
  if key.length = 0 then none
  else { L with F := cryptTable key, keyptr := none }.cryptSeek 0 0

theorem rot8_eq (x : UInt32) : rot8 x = rol8 x :=
  UInt32.or_comm _ _

theorem rot24_eq (x : UInt32) : rot24 x = ror8 x :=
  rfl

theorem double_eq (z : UInt32) : z + z = z <<< 1 := by
  refine UInt32.toNat_inj.mp ?_
  rw [UInt32.toNat_add, UInt32.toNat_shiftLeft]
  simp only [UInt32.toNat_one, Nat.reduceMod, Nat.shiftLeft_eq, pow_one]
  omega

theorem times_table_size_eq (word : UInt32) : word * (256 : UInt32) = word <<< (8 : UInt32) := by
  refine UInt32.toNat_inj.mp ?_
  rw [UInt32.toNat_mul, UInt32.toNat_shiftLeft]
  simp only [UInt32.reduceToNat, Nat.reduceMod, Nat.shiftLeft_eq, Nat.reducePow]

/-- A byte is an index inside the table. -/
theorem byte_index_lt (x : UInt32) : (x &&& 0xff).toNat < 256 := by
  rw [UInt32.toNat_and]
  exact lt_of_le_of_lt Nat.and_le_right (by decide)

@[simp] theorem table_word_set_self {F : Vector UInt32 256} {i : Nat} (h : i < 256)
    (value : UInt32) : tableWord (F.setIfInBounds i value) i = value := by
  rw [tableWord, Vector.getElem?_setIfInBounds_self_of_lt h, Option.getD_some]

theorem table_word_set_of_ne {F : Vector UInt32 256} {i j : Nat} (h : j ≠ i) (value : UInt32) :
    tableWord (F.setIfInBounds i value) j = tableWord F j := by
  rw [tableWord, Vector.getElem?_setIfInBounds_ne h.symm, tableWord]

/-- The words of a table are the first words of `tbuff`. -/
def SameTable (F : Vector UInt32 256) (tbuff : Tbuff) : Prop :=
  ∀ i < 256, tbuff.word i = tableWord F i

namespace SameTable

variable {F : Vector UInt32 256} {tbuff : Tbuff}

theorem mix (h : SameTable F tbuff) (x : UInt32) : tbuff.mix x = mixWord F x := by
  rw [Tbuff.mix, mixWord, h _ (byte_index_lt x)]

theorem set (h : SameTable F tbuff) {i : Nat} (hi : i < 256) (value : UInt32) :
    SameTable (F.setIfInBounds i value) (tbuff.set i value) := by
  intro j hj
  by_cases heq : j = i
  · rw [heq, table_word_set_self hi, Tbuff.set_self (by simp only [tbuffSize]; omega)]
  · rw [table_word_set_of_ne heq, Tbuff.set_of_ne heq, h j hj]

/-- A word behind the table does not matter. -/
theorem set_behind (h : SameTable F tbuff) {i : Nat} (hi : 256 ≤ i) (value : UInt32) :
    SameTable F (tbuff.set i value) := by
  intro j hj
  rw [Tbuff.set_of_ne (by omega), h j hj]

/-- Loops over the table whose bodies do the same to its words. -/
theorem foldl (h : SameTable F tbuff) {f : Vector UInt32 256 → Nat → UInt32}
    {g : Tbuff → Nat → UInt32}
    (hbody : ∀ F tbuff, ∀ i < 256, SameTable F tbuff → f F i = g tbuff i) :
    SameTable ((List.range 256).foldl (fun F i => F.setIfInBounds i (f F i)) F)
      ((List.range 256).foldl (fun tbuff i => tbuff.set i (g tbuff i)) tbuff) := by
  refine List.foldl_rel (r := SameTable) h fun i hi F tbuff hsame => ?_
  have hi := List.mem_range.mp hi
  rw [hbody F tbuff i hi hsame]
  exact hsame.set hi _

/-- The innermost loops do the same. -/
theorem swap {index : UInt32} {pos : UInt8} (h : SameTable F tbuff)
    (hindex : index.toNat = pos.toNat) (key : Bytes) {i : Nat} (hi : i < 256) :
    SameTable (cryptKeySwap key (F, index) i).1 (encshare4Swap key (tbuff, pos) i).1 ∧
      (cryptKeySwap key (F, index) i).2.toNat = (encshare4Swap key (tbuff, pos) i).2.toNat := by
  have hpos : (cryptKeySwap key (F, index) i).2.toNat =
      (encshare4Swap key (tbuff, pos) i).2.toNat := by
    show ((index + ((key.getD (i % key.length) 0).toUInt32 + tableWord F i)) &&& 255).toNat =
      (pos + ((tbuff.word i).toUInt8 + key.getD (i % key.length) 0)).toNat
    rw [h i hi, UInt32.toNat_and, UInt8.toNat_add, UInt8.toNat_add, UInt32.toNat_add,
      UInt32.toNat_add, hindex]
    show _ &&& (2 ^ 8 - 1) = _
    rw [Nat.and_two_pow_sub_one_eq_mod]
    simp only [UInt8.toNat_toUInt32, UInt32.toNat_toUInt8]
    omega
  refine ⟨?_, hpos⟩
  have hlt : (cryptKeySwap key (F, index) i).2.toNat < 256 := by
    rw [hpos]
    exact UInt8.toNat_lt _
  show SameTable ((F.setIfInBounds i (tableWord F (cryptKeySwap key (F, index) i).2.toNat))
      |>.setIfInBounds (cryptKeySwap key (F, index) i).2.toNat (tableWord F i))
    ((tbuff.set i (tbuff.word (encshare4Swap key (tbuff, pos) i).2.toNat)).set
      (encshare4Swap key (tbuff, pos) i).2.toNat (tbuff.word i))
  rw [← hpos, h i hi, h _ hlt]
  exact (h.set hi _).set hlt _

/-- A round makes the same of the same table. -/
theorem round (h : SameTable F tbuff) (key : Bytes) {j : Nat} (hj : j < 4) :
    SameTable (cryptKeyRound key F j) (encshare4Round key tbuff j) := by
  have hshift := h.foldl (f := fun F i => tableWord F i * 256 + UInt32.ofNat i)
    (g := fun tbuff i => (tbuff.word i <<< 8) + UInt32.ofNat i) fun F tbuff i hi hsame => by
      rw [hsame i hi, times_table_size_eq]
  -- both passes go over the same indices, from the same table and position
  have hpasses : ∀ (indices : List Nat), (∀ i ∈ indices, i < 256) →
      ∀ (F : Vector UInt32 256) (tbuff : Tbuff) (index : UInt32) (pos : UInt8), SameTable F tbuff →
      index.toNat = pos.toNat →
      SameTable (indices.foldl (cryptKeySwap key) (F, index)).1
        (indices.foldl (encshare4Swap key) (tbuff, pos)).1 := by
    intro indices
    induction indices with
    | nil => exact fun _ F tbuff index pos hsame _ => hsame
    | cons i rest ih =>
        intro hindices F tbuff index pos hsame hpos
        obtain ⟨hnext, hnextPos⟩ := hsame.swap hpos key (hindices i List.mem_cons_self)
        exact ih (fun i hi => hindices i (List.mem_cons_of_mem _ hi)) _ _ _ _ hnext hnextPos
  have hindices : ∀ i ∈ List.range 256 ++ List.range 256, i < 256 := by
    intro i hi
    obtain hi | hi := List.mem_append.mp hi
    · exact List.mem_range.mp hi
    · exact List.mem_range.mp hi
  have hstart : (UInt32.ofNat j).toNat = (UInt8.ofNat j).toNat := by
    rw [UInt32.toNat_ofNat', UInt8.toNat_ofNat']
    omega
  exact hpasses _ hindices _ _ _ _ hshift hstart

/-- The table of a key is what `encshare4` makes of it. -/
theorem crypt_table {key : Bytes} (hkey : key ≠ []) : ∃ dest, SameTable (cryptTable key) dest ∧
    encshare4 key Tbuff.zero = encshare3 dest 0 0 := by
  have hzero : SameTable (.replicate 256 0)
      ((List.range 256).foldl (fun dest i => dest.set i 0) Tbuff.zero) := by
    have hclear : ∀ dest : Tbuff, (∀ i < 256, dest.word i = 0) → ∀ i < 256,
        ((List.range 256).foldl (fun dest i => dest.set i 0) dest).word i = 0 := by
      intro dest hdest
      refine List.foldlRecOn (motive := fun dest : Tbuff => ∀ i < 256, dest.word i = 0) _ _ hdest
        fun dest hcleared first hfirst i hi => ?_
      by_cases heq : i = first
      · rw [heq, Tbuff.set_self (by simp only [tbuffSize]; omega)]
      · rw [Tbuff.set_of_ne heq, hcleared i hi]
    intro i hi
    rw [hclear Tbuff.zero (fun i hi => ?_) i hi, tableWord, Vector.getElem?_replicate, if_pos hi]
    · rfl
    · rw [Tbuff.word, Tbuff.zero, Vector.getElem?_replicate,
        if_pos (by simp only [tbuffSize]; omega)]
      rfl
  have hrounds : SameTable ((List.range 4).foldl (cryptKeyRound key) (.replicate 256 0))
      ((List.range 4).foldl (encshare4Round key)
        ((List.range 256).foldl (fun dest i => dest.set i 0) Tbuff.zero)) :=
    List.foldl_rel (r := SameTable) hzero
      fun j hj F tbuff hsame => hsame.round key (List.mem_range.mp hj)
  exact ⟨_, hrounds.foldl (f := fun F i => tableWord F i ^^^ UInt32.ofNat i)
    (g := fun tbuff i => tbuff.word i ^^^ UInt32.ofNat i)
    fun F tbuff i hi hsame => by rw [hsame i hi], if_neg (by simpa using hkey)⟩

end SameTable

namespace CryptEngine

variable {engine : CryptEngine} {tbuff : Tbuff} {regs : ShareRegs} {n : Nat}

/-- The first `n` nodes of the stacks are above the leaves, each as deep as its place at least. -/
def Stacked (engine : CryptEngine) (n : Nat) : Prop :=
  ∀ i < n, ∃ node, engine.stack[i]? = some node ∧ 2 ^ i ≤ node.z.toNat ∧ node.z.toNat < 2 ^ 16

/-- The record has the table and the first `n` nodes of the stacks that `tbuff` has. -/
structure Stores (engine : CryptEngine) (tbuff : Tbuff) (n : Nat) : Prop where
  table : SameTable engine.F tbuff
  stack : ∀ i < n, engine.stack[i]? =
    some ⟨tbuff.word (256 + i), tbuff.word (272 + i), tbuff.word (288 + i)⟩

/-- It has the index and the node of the registers, too. -/
structure Mirrors (engine : CryptEngine) (tbuff : Tbuff) (regs : ShareRegs) (n : Nat) : Prop where
  stores : Stores engine tbuff n
  index : regs.t2.toNat = engine.index
  node : engine.node = ⟨regs.t1, regs.t3, regs.t5⟩

/-- The words behind the stacks do not matter. -/
theorem Stores.same_words {other : Tbuff} (h : Stores engine tbuff n) (hn : n ≤ 16)
    (hsame : ∀ i < 304, other.word i = tbuff.word i) : Stores engine other n := by
  constructor
  case table => exact fun i hi => (hsame i (by omega)).trans (h.table i hi)
  case stack =>
    intro i hi
    rw [hsame _ (by omega), hsame _ (by omega), hsame _ (by omega)]
    exact h.stack i hi

theorem Mirrors.same_words {other : Tbuff} (h : Mirrors engine tbuff regs n) (hn : n ≤ 16)
    (hsame : ∀ i < 304, other.word i = tbuff.word i) : Mirrors engine other regs n :=
  ⟨h.stores.same_words hn hsame, h.index, h.node⟩

/-- Where there is room, a node is pushed. -/
theorem push_eq (h : engine.index < cryptHeight) : engine.push = some { engine with
    stack := engine.stack.setIfInBounds engine.index engine.node
    index := engine.index + 1
    node := engine.node.left engine.F } :=
  if_pos h

/-- The stacks behind a push. -/
theorem stack_push {i : Nat} (h : engine.index < cryptHeight) (node : CryptNode) :
    (engine.stack.setIfInBounds engine.index node)[i]? =
      if i = engine.index then some node else engine.stack[i]? := by
  split
  case isTrue heq => rw [heq, Vector.getElem?_setIfInBounds_self_of_lt h]
  case isFalse hne => rw [Vector.getElem?_setIfInBounds_ne (Ne.symm hne)]

/-- A push keeps the stacks above the leaves. -/
theorem Stacked.push (h : engine.Stacked n) (hindex : engine.index < cryptHeight)
    (hn : engine.index ≤ n) (node next : CryptNode) (hlow : 2 ^ engine.index ≤ node.z.toNat)
    (hhigh : node.z.toNat < 2 ^ 16) :
    ({ engine with
      stack := engine.stack.setIfInBounds engine.index node
      index := engine.index + 1
      node := next } : CryptEngine).Stacked (max n (engine.index + 1)) := by
  intro i hi
  show ∃ node', (engine.stack.setIfInBounds engine.index node)[i]? = some node' ∧ _
  rw [stack_push hindex]
  split
  case isTrue heq => exact ⟨node, rfl, heq ▸ hlow, hhigh⟩
  case isFalse hne => exact h i (by omega)

/-- A push of the record and one of `encshare2` do the same. -/
theorem Mirrors.push (h : Mirrors engine tbuff regs n) (hindex : engine.index < cryptHeight)
    (hn : engine.index ≤ n) (hheight : n ≤ 16) :
    ∃ tbuff' regs', encshare2Push (engine.index + 272) tbuff regs = some (tbuff', regs') ∧
      Mirrors { engine with
        stack := engine.stack.setIfInBounds engine.index engine.node.down
        index := engine.index + 1
        node := engine.node.down.left engine.F } tbuff' regs' (max n (engine.index + 1)) ∧
      ∀ i, 309 ≤ i → tbuff'.word i = tbuff.word i := by
  have hlt : engine.index < 16 := hindex
  have h1 : engine.index + 272 + 1 - 17 < tbuffSize := by simp only [tbuffSize]; omega
  have h2 : engine.index + 272 + 1 - 1 < tbuffSize := by simp only [tbuffSize]; omega
  have h3 : engine.index + 272 + 1 + 15 < tbuffSize := by simp only [tbuffSize]; omega
  simp only [encshare2Push, Tbuff.store_of_lt h1, Tbuff.store_of_lt h2, Tbuff.store_of_lt h3,
    Option.bind_eq_bind, Option.bind_some]
  refine ⟨_, _, rfl, ?_, fun i hi => by simp (disch := omega) only [Tbuff.set_of_ne]⟩
  have htable := ((h.stores.table.set_behind (show 256 ≤ engine.index + 272 + 1 - 17 by omega)
      (regs.t1 + regs.t5 + (regs.t3 + (regs.t1 + regs.t5)))).set_behind
    (show 256 ≤ engine.index + 272 + 1 - 1 by omega) (regs.t3 + (regs.t1 + regs.t5))).set_behind
    (show 256 ≤ engine.index + 272 + 1 + 15 by omega) regs.t5
  refine ⟨⟨htable, ?stack⟩, ?index, ?node⟩
  case stack =>
    intro i hi
    show (engine.stack.setIfInBounds engine.index engine.node.down)[i]? = _
    rw [stack_push hindex, h.node]
    split
    case isTrue heq =>
      subst heq
      have hfirst : 256 + engine.index = engine.index + 272 + 1 - 17 := by omega
      have hsecond : 272 + engine.index = engine.index + 272 + 1 - 1 := by omega
      have hthird : 288 + engine.index = engine.index + 272 + 1 + 15 := by omega
      rw [Tbuff.set_of_ne (by omega), Tbuff.set_of_ne (by omega), hfirst, Tbuff.set_self h1,
        Tbuff.set_of_ne (by omega), hsecond, Tbuff.set_self h2, hthird, Tbuff.set_self h3]
      rfl
    case isFalse hne =>
      rw [h.stores.stack i (by omega)]
      simp (disch := omega) only [Tbuff.set_of_ne]
  case index =>
    show (regs.t2 + 1).toNat = engine.index + 1
    rw [UInt32.toNat_add, h.index]
    simp only [UInt32.toNat_one]
    omega
  case node =>
    rw [h.node]
    simp only [CryptNode.left, CryptNode.down, rot8_eq, rot24_eq, double_eq, htable.mix]

/-- Both loops come down to the same leaf. -/
theorem descend_spec (fuel : Nat) {more : Nat} (hfuel : 17 ≤ fuel + engine.index)
    (hmore : 17 ≤ more + engine.index) (hstacked : engine.Stacked 16)
    (hindex : engine.index ≤ 16) (hnode : 2 ^ engine.index ≤ engine.node.z.toNat) :
    ∃ leaf, descend fuel engine = some leaf ∧ leaf.Stacked 16 ∧ leaf.index ≤ 16 ∧
      ∀ tbuff regs, Mirrors engine tbuff regs 16 → ∃ tbuff' regs',
        encshare2Descend more (engine.index + 272) tbuff regs = some (tbuff', regs') ∧
          Mirrors leaf tbuff' regs' 16 ∧ ∀ i, 309 ≤ i → tbuff'.word i = tbuff.word i := by
  induction fuel generalizing engine more with
  | zero => omega
  | succ fuel ih =>
      obtain ⟨more, rfl⟩ : ∃ m, more = m + 1 := Nat.exists_eq_succ_of_ne_zero (by omega)
      by_cases hz : engine.node.z < 65536
      · have hhigh : engine.node.z.toNat < 2 ^ 16 := UInt32.lt_iff_toNat_lt.mp hz
        have hlt : engine.index < cryptHeight :=
          (Nat.pow_lt_pow_iff_right (by decide)).mp (lt_of_le_of_lt hnode hhigh)
        have hpushed := hstacked.push hlt hindex engine.node.down
          (engine.node.down.left engine.F) hnode hhigh
        rw [max_eq_left (show engine.index + 1 ≤ 16 from hlt)] at hpushed
        have hdeeper : 2 ^ (engine.index + 1) ≤ (engine.node.down.left engine.F).z.toNat := by
          show 2 ^ (engine.index + 1) ≤ (engine.node.z + engine.node.z).toNat
          rw [UInt32.toNat_add, pow_succ]
          omega
        obtain ⟨leaf, hdescend, hstack, hleaf, hmirror⟩ :=
          @ih { engine with
            stack := engine.stack.setIfInBounds engine.index engine.node.down
            index := engine.index + 1
            node := engine.node.down.left engine.F } more (by show 17 ≤ fuel + _; dsimp only; omega)
            (by dsimp only; omega) hpushed hlt hdeeper
        refine ⟨leaf, ?_, hstack, hleaf, fun tbuff regs h => ?_⟩
        · rw [descend, if_pos hz, @push_eq { engine with node := engine.node.down } hlt]
          exact hdescend
        · obtain ⟨tbuff', regs', hpush, hnext, hkept⟩ := h.push hlt hindex le_rfl
          rw [max_eq_left (show engine.index + 1 ≤ 16 from hlt)] at hnext
          obtain ⟨last, lastRegs, hrun, hlast, hlastKept⟩ := hmirror tbuff' regs' hnext
          refine ⟨last, lastRegs, ?_, hlast, fun i hi => (hlastKept i hi).trans (hkept i hi)⟩
          have hz' : regs.t5 < 65536 := by
            rw [h.node] at hz
            exact hz
          rw [encshare2Descend, if_pos hz', hpush]
          rw [show engine.index + 272 + 1 = engine.index + 1 + 272 by omega]
          exact hrun
      · refine ⟨engine, by rw [descend, if_neg hz], hstacked, hindex, fun tbuff regs h => ?_⟩
        have hz' : ¬ regs.t5 < 65536 := by
          rw [h.node] at hz
          exact hz
        exact ⟨tbuff, regs, by rw [encshare2Descend, if_neg hz'], h, fun _ _ => rfl⟩

/-- The stacks and the node are as deep as the index says, at least. -/
def Deep (engine : CryptEngine) : Prop :=
  engine.Stacked 16 ∧ engine.index ≤ 16 ∧ 2 ^ engine.index ≤ engine.node.z.toNat

/-- A word is always made, and `encshare2` makes the same. Only behind the last leaf the states
come apart. -/
theorem encrypt_word_spec (h : engine.Deep) :
    ∃ word next, engine.encryptWord = some (word, next) ∧ next.Deep ∧
      ∀ tbuff regs p, Mirrors engine tbuff regs 16 → 309 ≤ p → p < tbuffSize →
        ∃ tbuff' regs', encshare2Word p tbuff regs = some (tbuff', regs') ∧
          tbuff'.word p = word ∧ (∀ i, 309 ≤ i → i ≠ p → tbuff'.word i = tbuff.word i) ∧
          Stores next tbuff' 16 ∧ (regs'.t2.toNat ≤ 16 → Mirrors next tbuff' regs' 16) := by
  obtain ⟨hstacked, hindex, hnode⟩ := h
  obtain ⟨leaf, hdescend, hleafStacked, hleafIndex, hmirror⟩ :=
    @descend_spec engine (cryptHeight + 1) tbuffSize (by simp only [cryptHeight]; omega)
      (by simp only [tbuffSize]; omega) hstacked hindex hnode
  obtain ⟨node, hpop, hlow, hhigh⟩ := hleafStacked (leaf.index - 1) (by omega)
  refine ⟨leaf.node.leaf, { leaf with index := leaf.index - 1, node := node.right leaf.F }, ?_,
    ⟨hleafStacked, ?_, ?_⟩, ?_⟩
  · simp [encryptWord, hdescend, hpop]
  · exact (Nat.sub_le _ _).trans hleafIndex
  · show 2 ^ (leaf.index - 1) ≤ (node.z + (node.z + 1)).toNat
    rw [UInt32.toNat_add, UInt32.toNat_add]
    simp only [UInt32.toNat_one]
    omega
  · intro tbuff regs p h hp hlast
    obtain ⟨down, downRegs, hdown, hleaf, hkept⟩ := hmirror tbuff regs h
    have ht2 : downRegs.t2.toNat ≤ 16 := by rw [hleaf.index]; exact hleafIndex
    have h256 := popped_index 256 ht2 (by decide) (by decide)
    have h272 := popped_index 272 ht2 (by decide) (by decide)
    have h288 := popped_index 288 ht2 (by decide) (by decide)
    simp only [UInt32.reduceToNat] at h256 h272 h288
    have hl256 : (downRegs.t2 - 1 + 256).toNat < tbuffSize := by simp only [tbuffSize]; omega
    have hl272 : (downRegs.t2 - 1 + 272).toNat < tbuffSize := by simp only [tbuffSize]; omega
    have hl288 : (downRegs.t2 - 1 + 288).toNat < tbuffSize := by simp only [tbuffSize]; omega
    simp only [encshare2Word, h.index, hdown, Tbuff.store_of_lt hlast, Tbuff.load_of_lt hl256,
      Tbuff.load_of_lt hl272, Tbuff.load_of_lt hl288, Option.bind_eq_bind, Option.bind_some]
    -- The word that was made is behind the stacks.
    have hmade : Mirrors leaf (down.set p (downRegs.t3 ^^^ downRegs.t1)) downRegs 16 :=
      hleaf.same_words le_rfl fun i hi => Tbuff.set_of_ne (by omega) _ _
    refine ⟨_, _, rfl, ?_, fun i hi hne => by rw [Tbuff.set_of_ne hne, hkept i hi],
      ⟨hmade.stores.table, hmade.stores.stack⟩, ?_⟩
    · rw [Tbuff.set_self hlast, hleaf.node]
      exact UInt32.xor_comm _ _
    · intro hpopped
      dsimp only at hpopped
      have htop : (downRegs.t2 - 1).toNat = leaf.index - 1 ∧ 1 ≤ leaf.index := by
        rw [UInt32.toNat_sub, UInt32.toNat_one] at hpopped ⊢
        rw [← hleaf.index]
        omega
      have hw256 : (downRegs.t2 - 1 + 256).toNat = 256 + (leaf.index - 1) := by
        rw [hleaf.index] at h256
        omega
      have hw272 : (downRegs.t2 - 1 + 272).toNat = 272 + (leaf.index - 1) := by
        rw [hleaf.index] at h272
        omega
      have hw288 : (downRegs.t2 - 1 + 288).toNat = 288 + (leaf.index - 1) := by
        rw [hleaf.index] at h288
        omega
      have hnode := hpop.symm.trans (hmade.stores.stack (leaf.index - 1) (by omega))
      refine ⟨⟨hmade.stores.table, hmade.stores.stack⟩, htop.1, ?_⟩
      rw [Option.some.inj hnode, hw256, hw272, hw288]
      simp only [CryptNode.right, rot8_eq, rot24_eq, hmade.stores.table.mix, ← double_eq,
        UInt32.add_assoc]

/-- So many words are made, and `encshare2` makes the same if so many leaves are left. -/
theorem crypt_encrypt_spec (nodes : Nat) (h : engine.Deep) :
    ∃ words next, cryptEncrypt nodes engine = some (words, next) ∧ next.Deep ∧
      words.length = nodes ∧
      ∀ tbuff regs p n, Mirrors engine tbuff regs 16 → WordsLeft tbuff regs (n + nodes) →
        309 ≤ p → p + nodes ≤ tbuffSize →
        ∃ tbuff' regs', encshare2Loop nodes p tbuff regs = some (tbuff', regs') ∧
          (∀ i < nodes, tbuff'.word (p + i) = words.getD i 0) ∧
          (∀ i, 309 ≤ i → i < p → tbuff'.word i = tbuff.word i) ∧ WordsLeft tbuff' regs' n ∧
          Stores next tbuff' 16 ∧ (0 < n → Mirrors next tbuff' regs' 16) := by
  induction nodes generalizing engine with
  | zero =>
      exact ⟨[], engine, rfl, h, rfl, fun tbuff regs p n hmirror hleft _ _ =>
        ⟨tbuff, regs, rfl, fun i hi => absurd hi (Nat.not_lt_zero i), fun _ _ _ => rfl, hleft,
          hmirror.stores, fun _ => hmirror⟩⟩
  | succ nodes ih =>
      obtain ⟨word, next, hword, hdeep, hsame⟩ := encrypt_word_spec h
      obtain ⟨words, last, hwords, hlast, hlength, hrest⟩ := ih hdeep
      refine ⟨word :: words, last, by simp [cryptEncrypt, hword, hwords], hlast,
        by simp [hlength], fun tbuff regs p n hmirror hleft hp hend => ?_⟩
      obtain ⟨tbuff', regs', hmade, hfirst, hkept, hstores, hnext⟩ :=
        hsame tbuff regs p hmirror hp (by omega)
      obtain ⟨other, otherRegs, hother, hotherLeft⟩ :=
        encshare2_word_spec (n := n + nodes) hp (show p < tbuffSize by omega) hleft
      rw [hmade] at hother
      obtain ⟨rfl, rfl⟩ : tbuff' = other ∧ regs' = otherRegs := by simpa using hother
      cases hmore : n + nodes with
      | zero =>
          -- The last leaf: both loops end with this word.
          obtain ⟨rfl, rfl⟩ : n = 0 ∧ nodes = 0 := by omega
          obtain ⟨rfl, rfl⟩ : words = [] ∧ next = last := by simpa [cryptEncrypt] using hwords
          refine ⟨tbuff', regs', by simp [encshare2Loop, hmade], fun i hi => ?_,
            fun i hi hlt => hkept i hi (by omega), hotherLeft, hstores,
            fun hpos => absurd hpos (Nat.lt_irrefl 0)⟩
          obtain rfl : i = 0 := by omega
          exact hfirst
      | succ m =>
          have ht2 : regs'.t2.toNat ≤ 16 := by
            rw [hmore] at hotherLeft
            simpa using Walk.stack_le hotherLeft
          obtain ⟨done, doneRegs, hloop, hdone, hdoneKept, hdoneLeft, hdoneMirrors⟩ :=
            hrest tbuff' regs' (p + 1) n (hnext ht2) hotherLeft (by omega) (by omega)
          refine ⟨done, doneRegs, by simp [encshare2Loop, hmade, hloop], fun i hi => ?_,
            fun i hi hlt => (hdoneKept i hi (by omega)).trans (hkept i hi (by omega)), hdoneLeft,
            hdoneMirrors⟩
          cases i with
          | zero => exact (hdoneKept p hp (Nat.lt_succ_self p)).trans hfirst
          | succ i =>
              rw [show p + (i + 1) = p + 1 + i by omega, hdone i (by omega), List.getD_cons_succ]

/-- Sixteen words are always made, and `encshare2` makes the same if so many leaves are left. -/
theorem refill_spec (h : engine.Deep) :
    ∃ next, engine.refill = some next ∧ next.Deep ∧ next.keyptr = some 0 ∧
      ∀ tbuff n, Mirrors engine tbuff tbuff.regs 16 → tbuff.Left (n + 16) →
        ∃ tbuff', encshare2 tbuff 309 16 = some tbuff' ∧
          (∀ i < 16, tbuff'.word (309 + i) = next.keydata.getD i 0) ∧ tbuff'.Left n ∧
          Stores next tbuff' 16 ∧ (0 < n → Mirrors next tbuff' tbuff'.regs 16) := by
  obtain ⟨words, next, hwords, hdeep, -, hsame⟩ := crypt_encrypt_spec nwords h
  refine ⟨{ next with keydata := words, keyptr := some 0 }, by simp [refill, hwords], hdeep, rfl,
    fun tbuff n hmirror hleft => ?_⟩
  obtain ⟨last, regs, hloop, hmade, -, hlastLeft, hstores, hlast⟩ :=
    hsame tbuff tbuff.regs 309 n hmirror hleft le_rfl (by decide)
  obtain ⟨kept, hrun, hregs, hother⟩ := encshare2_of_loop hloop
  have hkept : Stores next kept 16 :=
    hstores.same_words le_rfl fun i hi => hother i (.inl hi)
  refine ⟨kept, hrun, fun i hi => ?_,
    left_of_words_left hlastLeft hregs fun i hi => hother i (.inl hi),
    ⟨hkept.table, hkept.stack⟩, fun hpos => ?_⟩
  · rw [hother _ (.inr (by omega))]
    exact hmade i hi
  · rw [hregs]
    exact ⟨⟨hkept.table, hkept.stack⟩, (hlast hpos).index, (hlast hpos).node⟩

/-- Both streams stand at the same byte of the same words, with `m` bytes left in that of
`encshare1`. -/
def Agree (m : Nat) (engine : CryptEngine) (state : Tbuff × Nat) : Prop :=
  engine.Deep ∧ engine.keyptr = some state.2 ∧ state.2 ≤ 63 ∧
    (∀ i < 16, state.1.word (309 + i) = engine.keydata.getD i 0) ∧
    ∃ n, state.1.Left (16 * n) ∧ (0 < n → Mirrors engine state.1 state.1.regs 16) ∧
      m = 63 - state.2 + 63 * n

theorem key_byte_eq {off : Nat} (hoff : off ≤ 63)
    (h : ∀ i < 16, tbuff.word (309 + i) = engine.keydata.getD i 0) :
    streamByte tbuff off = (engine.keyByte off).1 := by
  show (tbuff.word (309 + off / 4) >>> _).toUInt8 = _
  rw [h (off / 4) (by omega)]
  rfl

/-- As long as bytes are left, the next one is the same. -/
theorem docrypt_next_agree (m : Nat) (engine : CryptEngine) (state : Tbuff × Nat)
    (h : Agree (m + 1) engine state) : ∃ key next after, engine.docryptNext = some (key, next) ∧
      encshare1Next state = some (key, after) ∧ Agree m next after := by
  obtain ⟨tbuff, off⟩ := state
  obtain ⟨hdeep, hptr, hoff, hwords, n, hleft, hmirror, hm⟩ := h
  dsimp only at hptr hoff hwords hleft hmirror hm
  by_cases hend : off = 63
  -- 63 bytes of the 64 are used, then 16 words more are made
  · obtain ⟨n, rfl⟩ : ∃ rest, n = rest + 1 := ⟨n - 1, by omega⟩
    obtain ⟨next, hrefill, hnextDeep, hnextPtr, hsame⟩ := refill_spec hdeep
    obtain ⟨tbuff', hblock, hmade, hleft', -, hmirror'⟩ :=
      hsame tbuff (16 * n) (hmirror (Nat.succ_pos n)) hleft
    refine ⟨(next.keyByte 0).1, (next.keyByte 0).2, (tbuff', 1), ?_, ?_, hnextDeep, rfl,
      by show 1 ≤ 63; decide, hmade, n, hleft', fun hpos => ?_, by dsimp only; omega⟩
    · rw [docryptNext, hptr]
      show (if off ≥ 63 then _ else _) = _
      rw [if_pos (by omega), hrefill]
      rfl
    · rw [← key_byte_eq (by decide) hmade]
      simp [encshare1Next, hend, hblock]
    · obtain ⟨⟨htable, hstack⟩, hindex, hnode⟩ := hmirror' (by omega)
      exact ⟨⟨htable, hstack⟩, hindex, hnode⟩
  · refine ⟨(engine.keyByte off).1, (engine.keyByte off).2, (tbuff, off + 1), ?_, ?_, hdeep, rfl,
      by dsimp only; omega, hwords, n, hleft, fun hpos => ?_, by dsimp only; omega⟩
    · rw [docryptNext, hptr]
      show (if off ≥ 63 then _ else _) = _
      rw [if_neg (by omega)]
    · rw [← key_byte_eq hoff hwords]
      simp [encshare1Next, hend]
    · obtain ⟨⟨htable, hstack⟩, hindex, hnode⟩ := hmirror hpos
      exact ⟨⟨htable, hstack⟩, hindex, hnode⟩

/-- The next byte is always made. -/
theorem docrypt_next_is_some (engine : CryptEngine) (h : engine.Deep) :
    ∃ key next, engine.docryptNext = some (key, next) ∧ next.Deep := by
  obtain ⟨filled, hrefill, hfilled, -, -⟩ := refill_spec h
  unfold docryptNext
  split
  · exact ⟨(filled.keyByte 0).1, (filled.keyByte 0).2, by rw [hrefill]; rfl, hfilled⟩
  · split
    · exact ⟨(filled.keyByte 0).1, (filled.keyByte 0).2, by rw [hrefill]; rfl, hfilled⟩
    · exact ⟨_, _, rfl, h⟩

/-- What an engine makes of data hangs on its next byte. -/
theorem docrypt_same_next {other : CryptEngine} (h : other.docryptNext = engine.docryptNext)
    (data : Bytes) : (other.cryptDocrypt data).map Prod.fst =
      (engine.cryptDocrypt data).map Prod.fst := by
  cases data with
  | nil => rfl
  | cons byte data => simp only [cryptDocrypt, tryRun, tryXorStep, h]

/-- The words of the stacks that are used next. -/
theorem pushed_index {t2 : UInt32} {k : Nat} (ht2 : t2.toNat = k) (hk : k < 16) (base : UInt32)
    (hbase : base.toNat ≤ 288) : (t2 + base).toNat = k + base.toNat := by
  rw [UInt32.toNat_add, ht2]
  omega

/-- A round of `crypt_seek` to the first leaf and one of `encshare3` do the same. -/
theorem seek_round_spec {data : Tbuff} {keys : KeyRegs} {k : Nat} (hk : k < 16)
    (hstacked : engine.Stacked k) (hindex : engine.index = k)
    (hnode : engine.node.z.toNat = 2 ^ k)
    (hmirror : Mirrors engine data ⟨keys.t2, data.word 304, keys.t1, keys.t4⟩ k) (bit : UInt32) :
    ∃ next data' keys', seekRound 0 engine bit = some next ∧
      encshare3Round 0 (data, keys) bit = some (data', keys') ∧ next.Stacked (k + 1) ∧
      next.index = k + 1 ∧ next.node.z.toNat = 2 ^ (k + 1) ∧
      Mirrors next data' ⟨keys'.t2, data'.word 304, keys'.t1, keys'.t4⟩ (k + 1) ∧
      next.keyptr = engine.keyptr := by
  have hlt : engine.index < cryptHeight := by rw [hindex]; exact hk
  have hhigh : engine.node.z.toNat < 2 ^ 16 := by
    rw [hnode]
    exact Nat.pow_lt_pow_right (by decide) hk
  have hcount : (data.word 304).toNat = k := hmirror.index.trans hindex
  have hbit : ¬ (bit &&& 0) ≠ 0 := by simp
  have hbit' : ¬ (0 &&& bit) ≠ 0 := by simp
  have h256 : (data.word 304 + 256).toNat = k + 256 := pushed_index hcount hk 256 (by decide)
  have h272 : (data.word 304 + 272).toNat = k + 272 := pushed_index hcount hk 272 (by decide)
  have h288 : (data.word 304 + 288).toNat = k + 288 := pushed_index hcount hk 288 (by decide)
  have h1 : k + 256 < tbuffSize := by simp only [tbuffSize]; omega
  have h2 : k + 272 < tbuffSize := by simp only [tbuffSize]; omega
  have h3 : k + 288 < tbuffSize := by simp only [tbuffSize]; omega
  rw [seekRound]
  dsimp only
  rw [if_neg hbit, @push_eq { engine with node := engine.node.down } hlt]
  simp only [encshare3Round, if_neg hbit', h256, Tbuff.store_of_lt h1, Option.bind_eq_bind,
    Option.bind_some, Tbuff.set_of_ne (show 304 ≠ k + 256 by omega), h272, Tbuff.store_of_lt h2,
    Tbuff.set_of_ne (show 304 ≠ k + 272 by omega), h288, Tbuff.store_of_lt h3,
    Tbuff.set_of_ne (show 304 ≠ k + 288 by omega)]
  refine ⟨_, _, _, rfl, rfl, ?_, ?_, ?_, ?_, rfl⟩
  · have hpushed := hstacked.push hlt (le_of_eq hindex) engine.node.down
      (engine.node.down.left engine.F) (by rw [hindex]; exact hnode.ge) hhigh
    rw [max_eq_right (show k ≤ engine.index + 1 by omega), hindex] at hpushed
    rw [hindex]
    exact hpushed
  · show engine.index + 1 = k + 1
    rw [hindex]
  · show (engine.node.z + engine.node.z).toNat = 2 ^ (k + 1)
    rw [UInt32.toNat_add, hnode, pow_succ]
    omega
  · have htable := (((hmirror.stores.table.set_behind (show 256 ≤ k + 256 by omega)
      (keys.t2 + keys.t4 + (keys.t1 + (keys.t2 + keys.t4)))).set_behind
        (show 256 ≤ k + 272 by omega) (keys.t1 + (keys.t2 + keys.t4))).set_behind
        (show 256 ≤ k + 288 by omega) keys.t4).set_behind (show 256 ≤ 304 by decide)
        (data.word 304 + 1)
    refine ⟨⟨htable, ?stack⟩, ?index, ?node⟩
    case stack =>
      intro i hi
      show (engine.stack.setIfInBounds engine.index engine.node.down)[i]? = _
      rw [stack_push hlt, hmirror.node]
      split
      case isTrue heq =>
        obtain rfl : i = k := heq.trans hindex
        rw [Tbuff.set_of_ne (by omega), Tbuff.set_of_ne (by omega), Tbuff.set_of_ne (by omega),
          show 256 + i = i + 256 by omega, Tbuff.set_self h1, Tbuff.set_of_ne (by omega),
          Tbuff.set_of_ne (by omega), show 272 + i = i + 272 by omega, Tbuff.set_self h2,
          Tbuff.set_of_ne (by omega), show 288 + i = i + 288 by omega, Tbuff.set_self h3]
        rfl
      case isFalse hne =>
        rw [hmirror.stores.stack i (by omega)]
        simp (disch := omega) only [Tbuff.set_of_ne]
    case index =>
      rw [Tbuff.set_self (by decide), UInt32.toNat_add, hcount]
      simp only [UInt32.toNat_one]
      show (k + 1) % 2 ^ 32 = engine.index + 1
      omega
    case node =>
      rw [hmirror.node]
      simp only [CryptNode.left, CryptNode.down, rot8_eq, rot24_eq, double_eq, ← htable.mix]

/-- The rounds of `crypt_seek` and those of `encshare3` go down to the first leaf. -/
theorem seek_rounds_spec {bits : List UInt32} {data : Tbuff} {keys : KeyRegs} {k : Nat}
    (hbits : bits.length + k = 16) (hstacked : engine.Stacked k) (hindex : engine.index = k)
    (hnode : engine.node.z.toNat = 2 ^ k)
    (hmirror : Mirrors engine data ⟨keys.t2, data.word 304, keys.t1, keys.t4⟩ k) :
    ∃ last data' keys', bits.foldlM (seekRound 0) engine = some last ∧
      bits.foldlM (encshare3Round 0) (data, keys) = some (data', keys') ∧ last.Deep ∧
      Mirrors last data' ⟨keys'.t2, data'.word 304, keys'.t1, keys'.t4⟩ 16 ∧
      last.keyptr = engine.keyptr := by
  induction bits generalizing engine data keys k with
  | nil =>
      obtain rfl : k = 16 := by simpa using hbits
      exact ⟨engine, data, keys, rfl, rfl, ⟨hstacked, hindex.le, by rw [hindex, hnode]⟩, hmirror,
        rfl⟩
  | cons bit bits ih =>
      have hk : k < 16 := by
        simp only [List.length_cons] at hbits
        omega
      obtain ⟨next, data', keys', hseek, hround, hnext, hnextIndex, hnextNode, hnextMirror, hptr⟩ :=
        seek_round_spec hk hstacked hindex hnode hmirror bit
      obtain ⟨last, lastData, lastKeys, hrest, hrounds, hdeep, hlast, hlastPtr⟩ :=
        ih (by simp only [List.length_cons] at hbits; omega) hnext hnextIndex hnextNode hnextMirror
      exact ⟨last, lastData, lastKeys, by simp [List.foldlM_cons, hseek, hrest],
        by simp [List.foldlM_cons, hround, hrounds], hdeep, hlast, hlastPtr.trans hptr⟩

end CryptEngine

/-- A key starts both streams at the first leaf of the same tree. -/
theorem init_crypt_key_spec {key : Bytes} (hkey : key ≠ []) (L : CryptEngine) :
    ∃ engine tbuff, initCryptKey key L = some engine ∧ encshare4 key Tbuff.zero = some tbuff ∧
      engine.Deep ∧ engine.keyptr = none ∧ engine.Mirrors tbuff tbuff.regs 16 ∧
      tbuff.Left (2 ^ 16) := by
  obtain ⟨dest, htable, hstart⟩ := SameTable.crypt_table hkey
  generalize hF : cryptTable key = F at htable
  obtain ⟨engine, data, keys, hseek, hrounds, hdeep, hmirror, hptr⟩ :=
    @CryptEngine.seek_rounds_spec
      { L with F := F, keyptr := none, index := 0, node := ⟨0, 0, 1⟩ }
      encshare3Bits (dest.set 304 0) ⟨0, 0, 1⟩ 0 (by simp [encshare3Bits])
      (fun i hi => absurd hi (Nat.not_lt_zero i)) rfl rfl
      ⟨⟨htable.set_behind (by decide) 0, fun i hi => absurd hi (Nat.not_lt_zero i)⟩,
        by rw [Tbuff.set_self (by decide)]; rfl, rfl⟩
  have hmade : encshare4 key Tbuff.zero =
      some ((((data.set 305 keys.t2).set 306 keys.t1).set 307 keys.t4).set 308 0) := by
    rw [hstart, encshare3, hrounds]
    rfl
  have hregs : ((((data.set 305 keys.t2).set 306 keys.t1).set 307 keys.t4).set 308 0).regs =
      ⟨keys.t2, data.word 304, keys.t1, keys.t4⟩ := by
    simp (disch := decide) only [Tbuff.regs, Tbuff.set_self, Tbuff.set_of_ne]
  have hother : ∀ i < 304,
      ((((data.set 305 keys.t2).set 306 keys.t1).set 307 keys.t4).set 308 0).word i =
        data.word i := by
    intro i hi
    rw [Tbuff.set_of_ne (by omega), Tbuff.set_of_ne (by omega), Tbuff.set_of_ne (by omega),
      Tbuff.set_of_ne (by omega)]
  obtain ⟨tbuff, htbuff, hleft⟩ := encshare4_spec hkey Tbuff.zero
  obtain rfl : _ = tbuff := Option.some.inj (hmade.symm.trans htbuff)
  refine ⟨engine, _, ?_, hmade, hdeep, hptr, ?_, hleft⟩
  · rw [initCryptKey, if_neg (by simpa using hkey), hF]
    exact hseek
  · rw [hregs]
    exact hmirror.same_words le_rfl hother

/-- Tables with the same words are the same. -/
theorem SameTable.eq {F G : Vector UInt32 256} {tbuff : Tbuff} (hF : SameTable F tbuff)
    (hG : SameTable G tbuff) : F = G := by
  refine Vector.ext fun i hi => ?_
  have hword : tableWord F i = tableWord G i := (hF i hi).symm.trans (hG i hi)
  simpa [tableWord, hi] using hword

namespace CryptEngine

variable {engine other : CryptEngine}

/-- The words that the key stream has made do not matter for those that it makes. -/
theorem push_keydata (keydata : List UInt32) :
    { engine with keydata := keydata }.push =
      engine.push.map fun engine => { engine with keydata := keydata } := by
  unfold push
  split <;> rfl

theorem descend_keydata (fuel : Nat) (keydata : List UInt32) :
    { engine with keydata := keydata }.descend fuel =
      (engine.descend fuel).map fun engine => { engine with keydata := keydata } := by
  induction fuel generalizing engine with
  | zero => rfl
  | succ fuel ih =>
      unfold descend
      dsimp only
      split
      · have hpush := @push_keydata { engine with node := engine.node.down } keydata
        dsimp only at hpush
        rw [hpush]
        cases { engine with node := engine.node.down }.push with
        | none => rfl
        | some next => exact @ih next
      · rfl

theorem encrypt_word_keydata (keydata : List UInt32) :
    { engine with keydata := keydata }.encryptWord =
      engine.encryptWord.map fun word => (word.1, { word.2 with keydata := keydata }) := by
  unfold encryptWord
  rw [descend_keydata]
  cases engine.descend (cryptHeight + 1) with
  | none => rfl
  | some bottom =>
      dsimp only [Option.map_some, Option.bind_eq_bind, Option.bind_some]
      cases bottom.stack[bottom.index - 1]? with
      | none => rfl
      | some node => rfl

theorem crypt_encrypt_keydata (nodes : Nat) (keydata : List UInt32) :
    cryptEncrypt nodes { engine with keydata := keydata } =
      (cryptEncrypt nodes engine).map fun words =>
        (words.1, { words.2 with keydata := keydata }) := by
  induction nodes generalizing engine with
  | zero => rfl
  | succ nodes ih =>
      unfold cryptEncrypt
      rw [encrypt_word_keydata]
      cases engine.encryptWord with
      | none => rfl
      | some word =>
          dsimp only [Option.map_some, Option.bind_eq_bind, Option.bind_some]
          rw [@ih word.2]
          cases cryptEncrypt nodes word.2 with
          | none => rfl
          | some words => rfl

/-- Engines that have made nothing yet encrypt alike, whatever was in their memory. -/
theorem docrypt_keydata (hptr : engine.keyptr = none) (keydata : List UInt32) (data : Bytes) :
    ({ engine with keydata := keydata }.cryptDocrypt data).map Prod.fst =
      (engine.cryptDocrypt data).map Prod.fst := by
  have hrefill : { engine with keydata := keydata }.refill = engine.refill := by
    unfold refill
    rw [crypt_encrypt_keydata, Option.map_map]
    rfl
  have hnext : { engine with keydata := keydata }.docryptNext = engine.docryptNext := by
    unfold docryptNext
    rw [hrefill]
    dsimp only
    rw [hptr]
  exact docrypt_same_next hnext data

/-- Nothing but the words that were made tells engines apart that have the same as `tbuff`. -/
theorem Mirrors.eq {tbuff : Tbuff} {regs : ShareRegs} (h : engine.Mirrors tbuff regs 16)
    (hother : other.Mirrors tbuff regs 16) (hptr : engine.keyptr = other.keyptr) :
    other = { engine with keydata := other.keydata } := by
  have htable : other.F = engine.F := SameTable.eq hother.stores.table h.stores.table
  have hstack : other.stack = engine.stack := by
    refine Vector.ext fun i hi => ?_
    have hsame := (hother.stores.stack i hi).trans (h.stores.stack i hi).symm
    simpa [show i < cryptHeight from hi] using hsame
  have hindex : other.index = engine.index := hother.index.symm.trans h.index
  have hnode : other.node = engine.node := hother.node.trans h.node.symm
  cases other
  exact (CryptEngine.mk.injEq ..).mpr ⟨htable, hstack, hindex, hnode, rfl, hptr.symm⟩

end CryptEngine

/-- What the engine of a key makes of data, which is defined for data of any length, does not depend
on what was in the memory of the engine. -/
theorem init_crypt_key_memory {key : Bytes} (hkey : key ≠ []) (L L' : CryptEngine) :
    ∃ engine other, initCryptKey key L = some engine ∧ initCryptKey key L' = some other ∧
      engine.Deep ∧ ∀ data, (other.cryptDocrypt data).map Prod.fst =
        (engine.cryptDocrypt data).map Prod.fst := by
  obtain ⟨engine, tbuff, hinit, htbuff, hdeep, hptr, hmirror, -⟩ := init_crypt_key_spec hkey L
  obtain ⟨other, tbuff', hinit', htbuff', -, hptr', hmirror', -⟩ := init_crypt_key_spec hkey L'
  obtain rfl : tbuff = tbuff' := Option.some.inj (htbuff.symm.trans htbuff')
  refine ⟨engine, other, hinit, hinit', hdeep, fun data => ?_⟩
  rw [hmirror.eq hmirror' (hptr.trans hptr'.symm)]
  exact CryptEngine.docrypt_keydata hptr _ data

/-- With a key that is not empty, `crypt_docrypt` is defined for data of any length, and on 258048
bytes `encshare1` makes the same of the data with the same key. -/
theorem crypt_docrypt_eq_encshare1 {key : Bytes} (hkey : key ≠ []) (L : CryptEngine) :
    ∃ engine tbuff, initCryptKey key L = some engine ∧ encshare4 key Tbuff.zero = some tbuff ∧
      ∀ data, (engine.cryptDocrypt data).isSome ∧
        (data.length ≤ 258048 →
          encshare1 tbuff data = (engine.cryptDocrypt data).map Prod.fst) := by
  obtain ⟨engine, tbuff, hinit, htbuff, hdeep, hptr, hmirror, hleft⟩ := init_crypt_key_spec hkey L
  refine ⟨engine, tbuff, hinit, htbuff, fun data => ⟨?_, fun hlen => ?_⟩⟩
  · exact try_run_is_some CryptEngine.docrypt_next_is_some hdeep data
  · obtain ⟨filled, hrefill, hfilled, hfilledPtr, hsame⟩ := CryptEngine.refill_spec hdeep
    rw [show 2 ^ 16 = 16 * 4095 + 16 by norm_num] at hleft
    obtain ⟨first, hblock, hwords, hfirstLeft, -, hfirst⟩ := hsame tbuff (16 * 4095) hmirror hleft
    have hagree : CryptEngine.Agree 258048 filled (first, 0) :=
      ⟨hfilled, hfilledPtr, Nat.zero_le _, hwords, 4095, hfirstLeft,
        fun _ => hfirst (by norm_num), by norm_num⟩
    -- The first byte has the key stream made, as `encshare1` does before it looks at the data.
    have hstart : engine.docryptNext = filled.docryptNext := by
      rw [CryptEngine.docryptNext, hptr, CryptEngine.docryptNext, hfilledPtr, hrefill]
      rfl
    have hrun := try_run_eq CryptEngine.docrypt_next_agree hagree hlen
    rw [CryptEngine.docrypt_same_next hstart, encshare1, hblock]
    exact hrun.symm

/-- An engine whose memory holds zeros. -/
def zeroEngine : CryptEngine :=
  ⟨.replicate _ 0, .replicate _ ⟨0, 0, 0⟩, 0, ⟨0, 0, 0⟩, [], none⟩

theorem crypt_docrypt_of_short_key :
    ∃ engine tbuff, initCryptKey [1] zeroEngine = some engine ∧
      encshare4 [1] Tbuff.zero = some tbuff ∧ ∀ data, (engine.cryptDocrypt data).isSome ∧
        (data.length ≤ 258048 →
          encshare1 tbuff data = (engine.cryptDocrypt data).map Prod.fst) :=
  crypt_docrypt_eq_encshare1 (by decide) zeroEngine

end OpenSpy.ServerBrowsing
