import Mathlib.Logic.Function.Iterate
import OpenSpy.ServerBrowsing.CryptEngine

/-!
# The tree under the shared key stream

Every node of the tree is made from the node above it and the table alone, so the words of
`encshare2` and of `crypt_encrypt` are those of a walk through a fixed tree. What the walk leaves on
the stacks behind the last leaf are the nodes that were pushed last, one for each place
(`TreeLeft`). They are the words that `encshare2` then takes for nodes, so that the table of a key
says how long its key stream lasts: `encshare4_blocks`.
-/

namespace OpenSpy.ServerBrowsing

open LeafWalk

namespace CryptNode

variable (F : Vector UInt32 256)

/-- The node at the top of the tree. -/
def root : CryptNode :=
  ⟨0, 0, 1⟩

/-- The node to the left below a node. -/
def goLeft (node : CryptNode) : CryptNode :=
  node.down.left F

/-- The node to the right below a node. -/
def goRight (node : CryptNode) : CryptNode :=
  node.down.right F

/-- What is pushed last on place `k` of the stacks: the node that is `15 - k` steps to the right and
`k` steps to the left below the root. -/
def lastPushed (k : Nat) : CryptNode :=
  ((goLeft F)^[k] ((goRight F)^[15 - k] root)).down

end CryptNode

open CryptNode

/-- The words of `tbuff` in front of its third stack, behind the last leaf: the table, and what is
left on the first two stacks. -/
def overrunWord (F : Vector UInt32 256) (i : Nat) : UInt32 :=
  if i < 256 then tableWord F i
  else if i < 272 then (lastPushed F (i - 256)).x
  else (lastPushed F (i - 272)).y

/-- A node by its number. -/
def treeNode (F : Vector UInt32 256) (z : Nat) : CryptNode :=
  if z ≤ 1 then root
  else if z % 2 = 0 then goLeft F (treeNode F (z / 2))
  else goRight F (treeNode F (z / 2))

section Tree

variable {F : Vector UInt32 256} {z k depth : Nat}

@[simp] theorem tree_node_one : treeNode F 1 = root := by
  rw [treeNode, if_pos le_rfl]

theorem tree_node_left (h : 0 < z) : treeNode F (2 * z) = goLeft F (treeNode F z) := by
  rw [treeNode, if_neg (by omega), if_pos (by omega), Nat.mul_div_cancel_left z (by decide)]

theorem tree_node_right (h : 0 < z) : treeNode F (2 * z + 1) = goRight F (treeNode F z) := by
  rw [treeNode, if_neg (by omega), if_neg (by omega), show (2 * z + 1) / 2 = z by omega]

/-- The third word of a node is its number. -/
theorem tree_node_z (h : 0 < z) : (treeNode F z).z = UInt32.ofNat z := by
  induction z using treeNode.induct with
  | case1 z hone =>
      obtain rfl : z = 1 := by omega
      rw [tree_node_one]
      rfl
  | case2 z hlarge heven ih =>
      have ih := ih (by omega)
      rw [show z = 2 * (z / 2) by omega, tree_node_left (by omega)]
      show (treeNode F (z / 2)).z + (treeNode F (z / 2)).z = _
      rw [ih, ← UInt32.ofNat_add, two_mul]
  | case3 z hlarge hodd ih =>
      have ih := ih (by omega)
      rw [show z = 2 * (z / 2) + 1 by omega, tree_node_right (by omega)]
      show (treeNode F (z / 2)).z + ((treeNode F (z / 2)).z + 1) = _
      rw [ih, show (1 : UInt32) = UInt32.ofNat 1 from rfl, ← UInt32.ofNat_add, ← UInt32.ofNat_add,
        two_mul, add_assoc]

theorem tree_node_z_toNat (h : 0 < z) (hz : z < 2 ^ 32) : (treeNode F z).z.toNat = z := by
  rw [tree_node_z h, UInt32.toNat_ofNat', Nat.mod_eq_of_lt hz]

/-- The number of a node that is so many steps to the right and then to the left. -/
theorem tree_node_path (h : k ≤ depth) :
    treeNode F (2 ^ (depth + 1) - 2 ^ k) =
      (goLeft F)^[k] ((goRight F)^[depth - k] root) := by
  induction k generalizing depth with
  | zero =>
      induction depth with
      | zero => simp
      | succ depth ih =>
          have hpos := Nat.two_pow_pos (depth + 1)
          have hnumber : 2 ^ (depth + 1 + 1) - 2 ^ 0 = 2 * (2 ^ (depth + 1) - 2 ^ 0) + 1 := by
            rw [pow_succ]
            omega
          have hlarge : 0 < 2 ^ (depth + 1) - 2 ^ 0 := by
            rw [pow_succ]
            have := Nat.two_pow_pos depth
            omega
          rw [hnumber, tree_node_right hlarge, ih (Nat.zero_le _), Function.iterate_zero_apply,
            Function.iterate_zero_apply, Nat.sub_zero, Nat.sub_zero, Function.iterate_succ_apply']
  | succ k ih =>
      obtain ⟨above, rfl⟩ : ∃ above, depth = above + 1 := ⟨depth - 1, by omega⟩
      have hlt : 2 ^ k < 2 ^ (above + 1) := Nat.pow_lt_pow_right (by decide) (by omega)
      rw [pow_succ 2 (above + 1), pow_succ 2 k, ← Nat.sub_mul, Nat.mul_comm,
        tree_node_left (by omega), ih (by omega), Function.iterate_succ_apply',
        Nat.succ_sub_succ]

theorem tree_node_last (h : k < 16) : (treeNode F (2 ^ 16 - 2 ^ k)).down = lastPushed F k := by
  have hpath := @tree_node_path F k 15 (by omega)
  rw [lastPushed, ← hpath]

end Tree

namespace CryptEngine

variable {F : Vector UInt32 256} {engine next : CryptEngine} {z n : Nat}

/-- The stacks hold the nodes with these numbers, the last one first. -/
def HasNodes (engine : CryptEngine) : List Nat → Prop
  | [] => True
  | z :: rest => engine.stack[rest.length]? = some (treeNode engine.F z).down ∧ engine.HasNodes rest

/-- Each place of the stacks from which nothing is pushed any more, with `n` leaves left, holds what
was pushed last on it. -/
def Settled (engine : CryptEngine) (n : Nat) : Prop :=
  ∀ k < cryptHeight, n < 2 ^ (k + 1) → engine.stack[k]? = some (lastPushed engine.F k)

/-- The engine stands at a node of the tree of its table, with `n` leaves left. -/
structure OnTree (engine : CryptEngine) (z n : Nat) : Prop where
  node : engine.node = treeNode engine.F z
  index : engine.index = (lefts z).length
  stack : engine.HasNodes (lefts z)
  walk : Walk cryptHeight z (lefts z) n
  settled : engine.Settled n

/-- With `n` leaves left, the engine stands at a node of the tree; with none, every place of the
stacks holds what was pushed last on it. -/
def TreeLeft (engine : CryptEngine) : Nat → Prop
  | 0 => engine.Settled 0
  | n + 1 => ∃ z, engine.OnTree z (n + 1)

/-- A node of a walk has a number above 0. -/
theorem OnTree.pos (h : engine.OnTree z n) : 0 < z := by
  obtain ⟨level, -, hon, -⟩ := h.walk.level
  exact hon.pos

theorem OnTree.treeLeft (h : engine.OnTree z n) : engine.TreeLeft n := by
  have hpos := h.walk.pos
  cases n with
  | zero => exact absurd hpos (Nat.lt_irrefl 0)
  | succ n => exact ⟨z, h⟩

/-- The third word of the node is its number. -/
theorem OnTree.node_z (h : engine.OnTree z n) : engine.node.z.toNat = z := by
  have hlt := h.walk.node_lt
  rw [h.node, tree_node_z_toNat h.pos (hlt.trans (by decide))]

/-- Nodes further down on the stacks do not matter. -/
theorem HasNodes.of_stack {other : CryptEngine} {nodes : List Nat} (h : engine.HasNodes nodes)
    (htable : other.F = engine.F)
    (hsame : ∀ i < nodes.length, other.stack[i]? = engine.stack[i]?) : other.HasNodes nodes := by
  induction nodes with
  | nil => trivial
  | cons z rest ih =>
      refine ⟨?_, ih h.2 fun i hi => hsame i (Nat.lt_succ_of_lt hi)⟩
      rw [hsame _ (Nat.lt_succ_self _), htable]
      exact h.1

/-- A push goes to the left below the node. -/
theorem OnTree.push (h : engine.OnTree z n) (hz : z < 2 ^ cryptHeight)
    (hpush : { engine with node := engine.node.down }.push = some next) :
    next.F = engine.F ∧ next.OnTree (2 * z) n := by
  have hindex : engine.index < cryptHeight := by
    rw [h.index]
    exact h.walk.stack_lt hz
  rw [@push_eq { engine with node := engine.node.down } hindex] at hpush
  obtain rfl := Option.some.inj hpush
  have hstack : ∀ i, (engine.stack.setIfInBounds engine.index engine.node.down)[i]? =
      if i = engine.index then some engine.node.down else engine.stack[i]? :=
    fun i => stack_push hindex engine.node.down
  refine ⟨rfl, ?_⟩
  constructor
  case node =>
    show engine.node.down.left engine.F = treeNode engine.F (2 * z)
    rw [tree_node_left h.pos, h.node]
    rfl
  case index =>
    show engine.index + 1 = _
    rw [lefts_left h.pos, List.length_cons, h.index]
  case stack =>
    rw [lefts_left h.pos]
    refine ⟨?_, h.stack.of_stack rfl fun i hi => ?_⟩
    · show (engine.stack.setIfInBounds engine.index engine.node.down)[(lefts z).length]? = _
      rw [hstack, if_pos h.index.symm, h.node]
    · show (engine.stack.setIfInBounds engine.index engine.node.down)[i]? = _
      rw [hstack, if_neg (by rw [h.index]; omega)]
  case walk =>
    rw [lefts_left h.pos]
    exact h.walk.left hz
  case settled =>
    intro k hk hn
    show (engine.stack.setIfInBounds engine.index engine.node.down)[k]? = _
    rw [hstack, if_neg, h.settled k hk hn]
    -- the place that is pushed on is not settled yet
    rintro rfl
    have hle := h.walk.two_pow_le hz
    rw [← h.index] at hle
    omega

/-- The inner loop stays on the tree and ends at a leaf. -/
theorem OnTree.descend {fuel : Nat} (h : engine.OnTree z n)
    (hdescend : engine.descend fuel = some next) :
    next.F = engine.F ∧ ∃ leaf, 2 ^ cryptHeight ≤ leaf ∧ next.OnTree leaf n := by
  induction fuel generalizing engine z with
  | zero => cases hdescend
  | succ fuel ih =>
      rw [CryptEngine.descend] at hdescend
      split at hdescend
      · next hz =>
          obtain ⟨pushed, hpush, hrest⟩ := Option.bind_eq_some_iff.mp hdescend
          have hz : z < 2 ^ cryptHeight := by
            have hlt := UInt32.lt_iff_toNat_lt.mp hz
            rwa [h.node_z] at hlt
          obtain ⟨htable, hpushed⟩ := h.push hz hpush
          obtain ⟨hlast, hleaf⟩ := ih hpushed hrest
          exact ⟨hlast.trans htable, hleaf⟩
      · next hz =>
          obtain rfl := Option.some.inj hdescend
          refine ⟨rfl, z, ?_, h⟩
          have hle := UInt32.not_lt.mp hz
          rw [UInt32.le_iff_toNat_le, h.node_z] at hle
          exact hle

/-- A word takes the walk past a leaf. -/
theorem TreeLeft.encrypt_word {word : UInt32} (h : engine.TreeLeft (n + 1))
    (hword : engine.encryptWord = some (word, next)) : next.F = engine.F ∧ next.TreeLeft n := by
  obtain ⟨z, h⟩ := h
  simp only [encryptWord, Option.bind_eq_bind, Option.bind_eq_some_iff, Option.some.injEq,
    Prod.mk.injEq] at hword
  obtain ⟨leaf, hdescend, node, hnode, -, rfl⟩ := hword
  obtain ⟨htable, number, hleaf, hon⟩ := h.descend hdescend
  refine ⟨htable, ?_⟩
  -- where a place becomes settled with this leaf, the node on it is on the top of the stack
  have hsettled : ∀ k < cryptHeight, n < 2 ^ (k + 1) →
      leaf.stack[k]? = some (lastPushed leaf.F k) := by
    intro k hk hn
    by_cases heq : n + 1 = 2 ^ (k + 1)
    · have hwalk := hon.walk
      rw [heq] at hwalk
      have hnodes := hon.stack
      rw [hwalk.at_last hleaf hk] at hnodes
      have htop := hnodes.1
      rwa [lefts_last_length hk, show 2 ^ cryptHeight = 2 ^ 16 from rfl, tree_node_last hk] at htop
    · exact hon.settled k hk (by omega)
  cases n with
  | zero => exact hsettled
  | succ n =>
      cases hlefts : lefts number with
      | nil =>
          have hwalk := hon.walk
          rw [hlefts] at hwalk
          have hlast := hwalk.last hleaf
          omega
      | cons x rest =>
          have hwalk := hon.walk
          rw [hlefts] at hwalk
          have hnext := hwalk.next hleaf
          obtain ⟨hx, hrest⟩ : leaf.stack[rest.length]? = some (treeNode leaf.F x).down ∧
              leaf.HasNodes rest := by
            have hnodes := hon.stack
            rwa [hlefts] at hnodes
          have hindex : leaf.index - 1 = rest.length := by
            rw [hon.index, hlefts, List.length_cons, Nat.add_sub_cancel]
          rw [hindex, hx] at hnode
          obtain rfl := Option.some.inj hnode
          have hstack := hnext.stack_eq
          refine ⟨2 * x + 1, (tree_node_right hwalk.top_pos).symm, ?_, ?_, ?_, hsettled⟩
          · rw [← hstack]
            exact hindex
          · rw [← hstack]
            exact hrest.of_stack rfl fun _ _ => rfl
          · rw [← hstack]
            exact hnext

/-- So many words take the walk past as many leaves. -/
theorem TreeLeft.crypt_encrypt {nodes : Nat} {words : List UInt32} (h : engine.TreeLeft (n + nodes))
    (hwords : cryptEncrypt nodes engine = some (words, next)) :
    next.F = engine.F ∧ next.TreeLeft n := by
  induction nodes generalizing engine words with
  | zero =>
      obtain ⟨-, rfl⟩ : [] = words ∧ engine = next := by simpa [cryptEncrypt] using hwords
      exact ⟨rfl, h⟩
  | succ nodes ih =>
      simp only [cryptEncrypt, Option.bind_eq_bind, Option.bind_eq_some_iff, Option.some.injEq,
        Prod.exists, Prod.mk.injEq] at hwords
      obtain ⟨word, after, hword, rest, last, hrest, -, rfl⟩ := hwords
      obtain ⟨hfirst, hafter⟩ := TreeLeft.encrypt_word h hword
      obtain ⟨hlast, hleft⟩ := ih hafter hrest
      exact ⟨hlast.trans hfirst, hleft⟩

/-- Sixteen words take the walk past as many leaves. -/
theorem TreeLeft.refill (h : engine.TreeLeft (n + nwords)) (hrefill : engine.refill = some next) :
    next.F = engine.F ∧ next.TreeLeft n := by
  obtain ⟨⟨words, last⟩, hwords, rfl⟩ := Option.map_eq_some_iff.mp hrefill
  obtain ⟨htable, hleft⟩ := h.crypt_encrypt hwords
  refine ⟨htable, ?_⟩
  cases n with
  | zero => exact hleft
  | succ n =>
      obtain ⟨z, hnode, hindex, hstack, hwalk, hsettled⟩ := hleft
      exact ⟨z, hnode, hindex, hstack.of_stack rfl fun _ _ => rfl, hwalk, hsettled⟩

/-- `crypt_seek` to the first leaf goes to the left at every node. -/
theorem OnTree.seek_rounds {bits : List UInt32} (h : engine.OnTree z n)
    (hz : z * 2 ^ bits.length ≤ 2 ^ cryptHeight)
    (hseek : bits.foldlM (seekRound 0) engine = some next) :
    next.F = engine.F ∧ next.OnTree (z * 2 ^ bits.length) n := by
  induction bits generalizing engine z with
  | nil =>
      obtain rfl := Option.some.inj hseek
      exact ⟨rfl, by simpa using h⟩
  | cons bit bits ih =>
      rw [List.foldlM_cons, Option.bind_eq_bind, Option.bind_eq_some_iff] at hseek
      obtain ⟨after, hround, hrest⟩ := hseek
      have hbit : ¬ (bit &&& 0) ≠ 0 := by simp
      rw [seekRound] at hround
      dsimp only at hround
      rw [if_neg hbit] at hround
      have hnumber : z * 2 ^ (bit :: bits).length = 2 * z * 2 ^ bits.length := by
        rw [List.length_cons, pow_succ]
        ring
      rw [hnumber] at hz ⊢
      have hlow := Nat.le_mul_of_pos_right (2 * z) (Nat.two_pow_pos bits.length)
      have hpos := h.pos
      obtain ⟨hfirst, hafter⟩ := h.push (by omega) hround
      obtain ⟨hlast, hleaf⟩ := ih hafter hz hrest
      exact ⟨hlast.trans hfirst, hleaf⟩

end CryptEngine

/-- The engine of a key has all leaves of the tree of its table left. -/
theorem init_crypt_key_tree {key : Bytes} {L engine : CryptEngine}
    (hinit : initCryptKey key L = some engine) :
    engine.F = cryptTable key ∧ engine.TreeLeft (2 ^ cryptHeight) := by
  unfold initCryptKey at hinit
  split at hinit
  · cases hinit
  · generalize cryptTable key = F at hinit ⊢
    have hroot : CryptEngine.OnTree { L with F := F, keyptr := none, index := 0, node := root } 1
        (2 ^ cryptHeight) := by
      refine ⟨tree_node_one.symm, ?_, ?_, ?_, fun k hk hlt => ?_⟩
      · rw [lefts_one]
        rfl
      · rw [lefts_one]
        trivial
      · rw [lefts_one]
        exact walk_root cryptHeight
      · exact absurd hlt (Nat.not_lt.mpr (Nat.pow_le_pow_right (by decide) hk))
    have hbits : encshare3Bits.length = cryptHeight := by simp [encshare3Bits, cryptHeight]
    have hseek : encshare3Bits.foldlM (CryptEngine.seekRound 0)
        { L with F := F, keyptr := none, index := 0, node := root } = some engine := hinit
    obtain ⟨htable, hleaf⟩ := hroot.seek_rounds (by rw [hbits, one_mul]) hseek
    have htree := hleaf.treeLeft
    exact ⟨htable, htree⟩

/-- `encshare2` makes the words of all leaves that are left, and then what the table of the key
says. The induction is on the blocks of 16 leaves, with the engine beside `tbuff`. -/
theorem blocks_left_of_tree {engine : CryptEngine} {tbuff : Tbuff} (n : Nat) (hdeep : engine.Deep)
    (hstores : engine.Stores tbuff 16) (hmirror : 0 < n → engine.Mirrors tbuff tbuff.regs 16)
    (hleft : tbuff.Left (nwords * n)) (htree : engine.TreeLeft (nwords * n)) :
    BlocksLeft tbuff (overrunBlocks (overrunWord engine.F) + n) := by
  induction n generalizing engine tbuff with
  | zero =>
      have hplace : ∀ k < 16, (lastPushed engine.F k) =
          ⟨tbuff.word (256 + k), tbuff.word (272 + k), tbuff.word (288 + k)⟩ := by
        intro k hk
        have hlast : engine.stack[k]? = some (lastPushed engine.F k) :=
          htree k hk (Nat.two_pow_pos _)
        exact Option.some.inj (hlast.symm.trans (hstores.stack k hk))
      have hwords : ∀ i < 288, tbuff.word i = overrunWord engine.F i := by
        intro i hi
        unfold overrunWord
        split
        · next htable => exact hstores.table i htable
        · split
          · rw [hplace (i - 256) (by omega), show 256 + (i - 256) = i by omega]
          · rw [hplace (i - 272) (by omega), show 272 + (i - 272) = i by omega]
      rw [Nat.mul_zero] at hleft
      rw [Nat.add_zero]
      exact blocks_left_overrun hleft hwords
  | succ n ih =>
      obtain ⟨next, hrefill, hnextDeep, -, hsame⟩ := CryptEngine.refill_spec hdeep
      obtain ⟨made, hmade, -, hmadeLeft, hmadeStores, hmadeMirror⟩ :=
        hsame tbuff (nwords * n) (hmirror (Nat.succ_pos n)) hleft
      obtain ⟨htable, hnextTree⟩ := CryptEngine.TreeLeft.refill htree hrefill
      have hrest := ih hnextDeep hmadeStores
        (fun hpos => hmadeMirror (Nat.mul_pos (by decide) hpos)) hmadeLeft hnextTree
      rw [← htable, ← Nat.add_assoc]
      exact .made hmade hrest

/-- How long the key stream of a key lasts. -/
theorem encshare4_blocks {key : Bytes} (hkey : key ≠ []) :
    ∃ tbuff, encshare4 key Tbuff.zero = some tbuff ∧
      BlocksLeft tbuff (overrunBlocks (overrunWord (cryptTable key)) + 4096) := by
  obtain ⟨engine, tbuff, hinit, htbuff, hdeep, -, hmirror, hleft⟩ :=
    init_crypt_key_spec hkey zeroEngine
  obtain ⟨htable, htree⟩ := init_crypt_key_tree hinit
  rw [← htable]
  have hblocks :=
    blocks_left_of_tree 4096 hdeep hmirror.stores (fun _ => hmirror) hleft htree
  exact ⟨tbuff, htbuff, hblocks⟩

end OpenSpy.ServerBrowsing
