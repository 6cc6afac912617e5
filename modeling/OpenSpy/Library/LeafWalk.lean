import Mathlib.Tactic.Common
import Mathlib.Tactic.Ring

/-!
# Walks through the leaves of a binary tree

The nodes of the full binary tree of depth `depth` are numbered from the root, 1, so that
`2 * x` and `2 * x + 1` are the children of `x` and the leaves are the numbers from
`2 ^ depth` on. A walk from left to right keeps the nodes at which it went left on a stack,
which are those of its path, `lefts`. `Walk depth node stack n` says that it stands at `node` and
has `n` leaves still to visit.
-/

namespace LeafWalk

/-- The node is on the given level of the tree. -/
def OnLevel (node level : Nat) : Prop :=
  2 ^ level ≤ node ∧ node < 2 ^ (level + 1)

/-- The nodes above a node from which its path goes to the left, the last one first. -/
def lefts (node : Nat) : List Nat :=
  if node ≤ 1 then []
  else if node % 2 = 0 then node / 2 :: lefts (node / 2)
  else lefts (node / 2)

/-- A walk at a node, with `n` leaves to visit, those below the node among them. -/
structure Walk (depth node : Nat) (stack : List Nat) (n : Nat) : Prop where
  level : ∃ level ≤ depth, OnLevel node level ∧ node * 2 ^ (depth - level) + n = 2 ^ (depth + 1)
  stack_eq : stack = lefts node

variable {depth node level n x : Nat} {stack : List Nat}

theorem OnLevel.left (h : OnLevel node level) : OnLevel (2 * node) (level + 1) := by
  obtain ⟨hlow, hhigh⟩ := h
  constructor
  · rw [pow_succ]
    omega
  · rw [pow_succ]
    omega

theorem OnLevel.right (h : OnLevel node level) : OnLevel (2 * node + 1) (level + 1) := by
  obtain ⟨hlow, hhigh⟩ := h
  constructor
  · rw [pow_succ]
    omega
  · rw [pow_succ]
    omega

theorem OnLevel.pos (h : OnLevel node level) : 0 < node :=
  lt_of_lt_of_le (Nat.two_pow_pos level) h.1

/-- A node is a leaf exactly on the last level. -/
theorem OnLevel.leaf_iff (h : OnLevel node level) (hlevel : level ≤ depth) :
    2 ^ depth ≤ node ↔ level = depth := by
  constructor
  · intro hleaf
    by_contra hne
    have : 2 ^ (level + 1) ≤ 2 ^ depth := Nat.pow_le_pow_right (by omega) (by omega)
    exact absurd h.2 (by omega)
  · rintro rfl
    exact h.1

/-- A node above the leaves is above the last level. -/
theorem OnLevel.level_lt (h : OnLevel node level) (hlevel : level ≤ depth)
    (hnode : node < 2 ^ depth) : level < depth := by
  have hne : level ≠ depth := fun heq => absurd ((h.leaf_iff hlevel).mpr heq) (by omega)
  omega

@[simp] theorem lefts_one : lefts 1 = [] := by
  rw [lefts, if_pos le_rfl]

@[simp] theorem lefts_left (h : 0 < node) : lefts (2 * node) = node :: lefts node := by
  rw [lefts, if_neg (by omega), if_pos (by omega), Nat.mul_div_cancel_left node (by decide)]

@[simp] theorem lefts_right (h : 0 < node) : lefts (2 * node + 1) = lefts node := by
  rw [lefts, if_neg (by omega), if_neg (by omega), show (2 * node + 1) / 2 = node by omega]

/-- On its way down a path goes to the left or to the right. -/
theorem OnLevel.descend {motive : ∀ node level, OnLevel node level → Prop}
    (root : motive 1 0 ⟨le_rfl, by decide⟩)
    (left : ∀ node level (h : OnLevel node level), motive node level h →
      motive (2 * node) (level + 1) h.left)
    (right : ∀ node level (h : OnLevel node level), motive node level h →
      motive (2 * node + 1) (level + 1) h.right)
    (h : OnLevel node level) : motive node level h := by
  induction level generalizing node with
  | zero =>
      obtain rfl : node = 1 := by
        obtain ⟨hlow, hhigh⟩ := h
        rw [pow_zero] at hlow
        rw [Nat.zero_add, pow_one] at hhigh
        omega
      exact root
  | succ level ih =>
      have habove : OnLevel (node / 2) level := by
        obtain ⟨hlow, hhigh⟩ := h
        rw [pow_succ] at hlow hhigh
        constructor
        · omega
        · omega
      obtain heven | hodd := Nat.mod_two_eq_zero_or_one node
      · obtain ⟨above, rfl⟩ : ∃ above, node = 2 * above := ⟨node / 2, by omega⟩
        rw [Nat.mul_div_cancel_left above (by decide)] at habove
        exact left above level habove (ih habove)
      · obtain ⟨above, rfl⟩ : ∃ above, node = 2 * above + 1 := ⟨node / 2, by omega⟩
        rw [show (2 * above + 1) / 2 = above by omega] at habove
        exact right above level habove (ih habove)

/-- A path of so many steps to the left does not end further to the right. -/
theorem OnLevel.add_lefts_le (h : OnLevel node level) :
    node + 2 ^ (lefts node).length ≤ 2 ^ (level + 1) := by
  induction h using OnLevel.descend with
  | root => simp
  | left node level h ih =>
      rw [lefts_left h.pos, List.length_cons, pow_succ, pow_succ]
      omega
  | right node level h ih =>
      rw [lefts_right h.pos, pow_succ]
      have hpos := Nat.two_pow_pos (lefts node).length
      omega

/-- A path goes to the left no more often than it goes down. -/
theorem OnLevel.lefts_length_le (h : OnLevel node level) : (lefts node).length ≤ level := by
  have hle := h.add_lefts_le
  have hlow := h.1
  rw [pow_succ] at hle
  exact (Nat.pow_le_pow_iff_right (by decide)).mp (show 2 ^ _ ≤ 2 ^ level by omega)

/-- Behind the last step to the left, a path goes to the right. -/
theorem OnLevel.of_lefts_cons (h : OnLevel node level) {rest : List Nat}
    (hlefts : lefts node = x :: rest) :
    ∃ down, down < level ∧ OnLevel x (level - (down + 1)) ∧ rest = lefts x ∧
      node + 1 = (2 * x + 1) * 2 ^ down := by
  induction h using OnLevel.descend with
  | root => simp at hlefts
  | left node level h ih =>
      rw [lefts_left h.pos] at hlefts
      obtain ⟨rfl, rfl⟩ := List.cons.inj hlefts
      exact ⟨0, Nat.succ_pos level, h, rfl, by simp⟩
  | right node level h ih =>
      rw [lefts_right h.pos] at hlefts
      obtain ⟨down, hdown, hx, hrest, hnode⟩ := ih hlefts
      refine ⟨down + 1, by omega, ?_, hrest, ?_⟩
      · rwa [show level + 1 - (down + 1 + 1) = level - (down + 1) by omega]
      · rw [pow_succ, ← mul_assoc, ← hnode]
        ring

/-- The path to the last node of a level goes to the right only. -/
theorem OnLevel.of_lefts_nil (h : OnLevel node level) (hlefts : lefts node = []) :
    node + 1 = 2 ^ (level + 1) := by
  induction h using OnLevel.descend with
  | root => rfl
  | left node level h ih => simp [lefts_left h.pos] at hlefts
  | right node level h ih =>
      rw [lefts_right h.pos] at hlefts
      rw [pow_succ, ← ih hlefts]
      ring

/-- A path of steps to the right and then of `level` steps to the left. -/
theorem lefts_last_length (h : level < depth) :
    (lefts (2 ^ depth - 2 ^ level)).length = level := by
  induction level generalizing depth with
  | zero =>
      obtain ⟨above, rfl⟩ : ∃ above, depth = above + 1 := ⟨depth - 1, by omega⟩
      have hpos := Nat.two_pow_pos above
      have hon : OnLevel (2 ^ (above + 1) - 2 ^ 0) above := by
        constructor
        · rw [pow_succ]
          omega
        · omega
      have hle := hon.add_lefts_le
      have hone : 2 ^ (lefts (2 ^ (above + 1) - 2 ^ 0)).length ≤ 2 ^ 0 := by omega
      exact Nat.le_zero.mp ((Nat.pow_le_pow_iff_right (by decide)).mp hone)
  | succ level ih =>
      obtain ⟨above, rfl⟩ : ∃ above, depth = above + 1 := ⟨depth - 1, by omega⟩
      have hlt : 2 ^ level < 2 ^ above := Nat.pow_lt_pow_right (by decide) (by omega)
      rw [pow_succ, pow_succ, ← Nat.sub_mul, Nat.mul_comm, lefts_left (by omega),
        List.length_cons, ih (by omega)]

/-- At the root all leaves are to visit. -/
theorem walk_root (depth : Nat) : Walk depth 1 [] (2 ^ depth) where
  level := ⟨0, Nat.zero_le _, ⟨le_rfl, by decide⟩, by rw [Nat.sub_zero, pow_succ]; ring⟩
  stack_eq := lefts_one.symm

/-- A walk has a leaf to visit. -/
theorem Walk.pos (h : Walk depth node stack n) : 0 < n := by
  obtain ⟨⟨level, hlevel, hon, hn⟩, -⟩ := h
  have hlt : node * 2 ^ (depth - level) < 2 ^ (level + 1) * 2 ^ (depth - level) :=
    Nat.mul_lt_mul_of_pos_right hon.2 (Nat.two_pow_pos _)
  rw [← pow_add, show level + 1 + (depth - level) = depth + 1 by omega] at hlt
  omega

theorem Walk.node_lt (h : Walk depth node stack n) : node < 2 ^ (depth + 1) := by
  obtain ⟨⟨level, hlevel, hon, -⟩, -⟩ := h
  exact lt_of_lt_of_le hon.2 (Nat.pow_le_pow_right (by omega) (by omega))

/-- The stack of a walk has at most one node a level. -/
theorem Walk.stack_le (h : Walk depth node stack n) : stack.length ≤ depth := by
  obtain ⟨⟨level, hlevel, hon, -⟩, rfl⟩ := h
  exact hon.lefts_length_le.trans hlevel

theorem Walk.top_pos (h : Walk depth node (x :: stack) n) : 0 < x := by
  obtain ⟨⟨level, -, hon, -⟩, hstack⟩ := h
  obtain ⟨down, -, hx, -⟩ := hon.of_lefts_cons hstack.symm
  exact hx.pos

/-- Above the leaves there is room on the stack. -/
theorem Walk.stack_lt (h : Walk depth node stack n) (hnode : node < 2 ^ depth) :
    stack.length < depth := by
  obtain ⟨⟨level, hlevel, hon, -⟩, rfl⟩ := h
  exact lt_of_le_of_lt hon.lefts_length_le (hon.level_lt hlevel hnode)

/-- Going left leaves the same leaves to visit. -/
theorem Walk.left (h : Walk depth node stack n) (hnode : node < 2 ^ depth) :
    Walk depth (2 * node) (node :: stack) n := by
  obtain ⟨⟨level, hlevel, hon, hn⟩, rfl⟩ := h
  have hlt := hon.level_lt hlevel hnode
  refine ⟨⟨level + 1, hlt, hon.left, ?_⟩, (lefts_left hon.pos).symm⟩
  rw [← hn, show depth - level = depth - (level + 1) + 1 by omega, pow_succ]
  ring

/-- Behind a leaf the walk goes on to the right of the last node where it went left, with one
leaf less to visit. -/
theorem Walk.next (h : Walk depth node (x :: stack) (n + 1)) (hnode : 2 ^ depth ≤ node) :
    Walk depth (2 * x + 1) stack n := by
  obtain ⟨⟨level, hlevel, hon, hn⟩, hstack⟩ := h
  obtain rfl := (hon.leaf_iff hlevel).mp hnode
  obtain ⟨down, hdown, hx, hrest, hright⟩ := hon.of_lefts_cons hstack.symm
  refine ⟨⟨level - down, Nat.sub_le _ _, ?_, ?_⟩, ?_⟩
  · rw [show level - down = level - (down + 1) + 1 by omega]
    exact hx.right
  · rw [Nat.sub_self, pow_zero] at hn
    rw [show level - (level - down) = down by omega, ← hright]
    omega
  · rw [hrest, lefts_right hx.pos]

/-- The last leaf is the one where the stack is empty. -/
theorem Walk.last (h : Walk depth node [] n) (hnode : 2 ^ depth ≤ node) : n = 1 := by
  obtain ⟨⟨level, hlevel, hon, hn⟩, hstack⟩ := h
  obtain rfl := (hon.leaf_iff hlevel).mp hnode
  have hlast := hon.of_lefts_nil hstack.symm
  rw [Nat.sub_self, pow_zero] at hn
  omega

/-- A walk that is above the leaves with `k` nodes on its stack has at least `2 ^ (k + 1)` leaves
to visit. -/
theorem Walk.two_pow_le (h : Walk depth node stack n) (hnode : node < 2 ^ depth) :
    2 ^ (stack.length + 1) ≤ n := by
  obtain ⟨⟨level, hlevel, hon, hn⟩, rfl⟩ := h
  have hlt := hon.level_lt hlevel hnode
  have hle := Nat.mul_le_mul_right (2 ^ (depth - level)) hon.add_lefts_le
  rw [← pow_add, show level + 1 + (depth - level) = depth + 1 by omega, ← hn, add_mul,
    Nat.add_le_add_iff_left] at hle
  refine le_trans ?_ hle
  rw [pow_succ]
  refine Nat.mul_le_mul_left _ ?_
  calc 2 = 2 ^ 1 := rfl
    _ ≤ 2 ^ (depth - level) := Nat.pow_le_pow_right (by decide) (by omega)

/-- At the leaf with `2 ^ (k + 1)` leaves to visit, the node on top of the stack is the last one
that is ever on its place. -/
theorem Walk.at_last (h : Walk depth node stack (2 ^ (level + 1))) (hnode : 2 ^ depth ≤ node)
    (hlevel : level < depth) :
    stack = (2 ^ depth - 2 ^ level) :: lefts (2 ^ depth - 2 ^ level) := by
  obtain ⟨⟨last, hlast, hon, hn⟩, rfl⟩ := h
  obtain rfl := (hon.leaf_iff hlast).mp hnode
  have hpow : 2 ^ level < 2 ^ last := Nat.pow_lt_pow_right (by decide) hlevel
  rw [Nat.sub_self, pow_zero, mul_one, pow_succ, pow_succ] at hn
  rw [show node = 2 * (2 ^ last - 2 ^ level) by omega, lefts_left (by omega)]

end LeafWalk
