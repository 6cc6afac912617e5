import Mathlib.Data.List.Nodup
import Mathlib.Logic.Function.Basic
import Mathlib.Tactic.Common

/-!
# Linked nodes in memory

A node has the address of the next one, or none, and its data. A node that is freed is not there any
more, and to use it is undefined, which is `none`. `Segment heap p items q` says that the nodes of
`items`, with their data, are linked in this order from `p` on, and that `q` follows the last one.
-/

namespace LinkedNodes

/-- A node. -/
structure Cell (ν α : Type*) where
  next : Option ν
  data : α
  deriving DecidableEq, Repr

/-- The nodes that are there, by their addresses. -/
abbrev Heap (ν α : Type*) := ν → Option (Cell ν α)

variable {ν α : Type*}

namespace Heap

section

variable (heap : Heap ν α)

def getNext (node : ν) : Option (Option ν) :=
  (heap node).map Cell.next

variable [DecidableEq ν]

def setNext (node : ν) (next : Option ν) : Option (Heap ν α) :=
  (heap node).map fun cell => Function.update heap node (some { cell with next := next })

def free (node : ν) : Option (Heap ν α) :=
  (heap node).map fun _ => Function.update heap node none

end

variable {heap : Heap ν α} {node : ν} {cell : Cell ν α}

theorem get_next_eq (h : heap node = some cell) : heap.getNext node = some cell.next := by
  rw [getNext, h, Option.map_some]

variable [DecidableEq ν]

theorem set_next_eq (h : heap node = some cell) (next : Option ν) :
    heap.setNext node next =
      some (Function.update heap node (some { cell with next := next })) := by
  rw [setNext, h, Option.map_some]

theorem free_eq (h : heap node = some cell) :
    heap.free node = some (Function.update heap node none) := by
  rw [free, h, Option.map_some]

/-- To set the next node to what it is changes nothing. -/
theorem set_next_self (h : heap node = some cell) : heap.setNext node cell.next = some heap := by
  rw [set_next_eq h, ← h, Function.update_eq_self]

end Heap

/-- The nodes of a list, with their data, are linked from `p` on up to `q`. -/
def Segment (heap : Heap ν α) : Option ν → List (ν × α) → Option ν → Prop
  | p, [], q => p = q
  | p, (node, data) :: items, q =>
      p = some node ∧ ∃ next, heap node = some ⟨next, data⟩ ∧ Segment heap next items q

/-- The addresses of nodes. -/
def addresses (items : List (ν × α)) : List ν :=
  items.map Prod.fst

section Addresses

variable (items more : List (ν × α)) (item : ν × α)

@[simp] theorem addresses_nil : addresses ([] : List (ν × α)) = [] := rfl

@[simp] theorem addresses_cons : addresses (item :: items) = item.1 :: addresses items := rfl

@[simp] theorem addresses_append :
    addresses (items ++ more) = addresses items ++ addresses more :=
  List.map_append

end Addresses

namespace Segment

variable {heap heap' : Heap ν α} {p q r : Option ν} {items items' more : List (ν × α)} {node : ν}
  {data : α}

theorem cons_iff :
    Segment heap p ((node, data) :: items) q ↔
      p = some node ∧ ∃ next, heap node = some ⟨next, data⟩ ∧ Segment heap next items q :=
  Iff.rfl

/-- One segment behind the other. -/
theorem append_iff :
    Segment heap p (items ++ more) q ↔ ∃ r, Segment heap p items r ∧ Segment heap r more q := by
  induction items generalizing p with
  | nil =>
      constructor
      · intro h
        exact ⟨p, rfl, h⟩
      · rintro ⟨r, rfl, h⟩
        exact h
  | cons item items ih =>
      obtain ⟨node, data⟩ := item
      rw [List.cons_append, cons_iff]
      constructor
      · rintro ⟨rfl, next, hnode, hrest⟩
        obtain ⟨r, hitems, hmore⟩ := ih.mp hrest
        exact ⟨r, ⟨rfl, next, hnode, hitems⟩, hmore⟩
      · rintro ⟨r, ⟨rfl, next, hnode, hitems⟩, hmore⟩
        exact ⟨rfl, next, hnode, ih.mpr ⟨r, hitems, hmore⟩⟩

/-- Only the nodes of a segment matter. -/
theorem congr (h : Segment heap p items q)
    (hsame : ∀ node ∈ addresses items, heap' node = heap node) : Segment heap' p items q := by
  induction items generalizing p with
  | nil => exact h
  | cons item items ih =>
      obtain ⟨node, data⟩ := item
      obtain ⟨rfl, next, hnode, hrest⟩ := cons_iff.mp h
      refine ⟨rfl, next, ?_, ih hrest fun other hother => ?_⟩
      · rw [hsame node List.mem_cons_self, hnode]
      · exact hsame other (List.mem_cons_of_mem node hother)

/-- Where a segment to the end begins, its nodes are the only ones. -/
theorem unique (h : Segment heap p items none) (h' : Segment heap p items' none) :
    items = items' := by
  induction items generalizing p items' with
  | nil =>
      cases h
      cases items' with
      | nil => rfl
      | cons item items' => cases (cons_iff.mp h').1
  | cons item items ih =>
      obtain ⟨node, data⟩ := item
      obtain ⟨rfl, next, hnode, hrest⟩ := cons_iff.mp h
      cases items' with
      | nil => cases h'
      | cons item' items' =>
          obtain ⟨hstart, next', hnode', hrest'⟩ := cons_iff.mp h'
          obtain ⟨node', data'⟩ := item'
          cases hstart
          rw [hnode] at hnode'
          cases hnode'
          rw [ih hrest hrest']

/-- No node is twice in a segment to the end. -/
theorem nodup (h : Segment heap p items none) : (addresses items).Nodup := by
  induction items generalizing p with
  | nil => exact List.nodup_nil
  | cons item items ih =>
      obtain ⟨node, data⟩ := item
      obtain ⟨rfl, next, hnode, hrest⟩ := cons_iff.mp h
      refine List.nodup_cons.mpr ⟨fun hmem => ?_, ih hrest⟩
      -- from the second time on, the nodes would be the same as from the first time on
      obtain ⟨⟨_, other⟩, hitem, rfl⟩ := List.mem_map.mp hmem
      obtain ⟨before, after, rfl⟩ := List.append_of_mem hitem
      obtain ⟨r, -, hagain⟩ := append_iff.mp hrest
      obtain ⟨rfl, next', hnode', hafter⟩ := cons_iff.mp hagain
      rw [hnode] at hnode'
      cases hnode'
      have hlength := congrArg List.length (unique hafter hrest)
      simp at hlength
      omega

/-- A segment begins with its first node. -/
theorem start_eq (h : Segment heap p items none) : p = (addresses items).head? := by
  cases items with
  | nil => exact h
  | cons item items => exact (cons_iff.mp h).1

/-- The first node of a segment, and what is behind it. -/
theorem first_eq (h : Segment heap p ((node, data) :: more) none) :
    heap node = some ⟨(addresses more).head?, data⟩ ∧
      Segment heap (addresses more).head? more none := by
  obtain ⟨-, next, heq, hmore⟩ := cons_iff.mp h
  rw [← hmore.start_eq]
  exact ⟨heq, hmore⟩

/-- A node in the middle. -/
theorem node_eq (h : Segment heap p (items ++ (node, data) :: more) none) :
    heap node = some ⟨(addresses more).head?, data⟩ := by
  obtain ⟨r, -, hnode⟩ := append_iff.mp h
  exact hnode.first_eq.1

/-- A node is not among the others. -/
theorem node_not_mem (h : Segment heap p (items ++ (node, data) :: more) none) :
    node ∉ addresses items ∧ node ∉ addresses more := by
  have hnodup := h.nodup
  rw [addresses_append, addresses_cons, List.nodup_middle, List.nodup_cons, List.mem_append,
    not_or] at hnodup
  exact hnodup.1

/-- The nodes of a segment are there. -/
theorem ne_none (h : Segment heap p items q) (hmem : node ∈ addresses items) :
    heap node ≠ none := by
  obtain ⟨⟨_, data⟩, hitem, rfl⟩ := List.mem_map.mp hmem
  obtain ⟨before, after, rfl⟩ := List.append_of_mem hitem
  obtain ⟨r, -, hrest⟩ := append_iff.mp h
  obtain ⟨-, next, hnode, -⟩ := cons_iff.mp hrest
  rw [hnode]
  exact Option.some_ne_none _

/-- A node behind a segment ends it if it has no next node. -/
theorem append_single_iff {next : Option ν} (h : Segment heap p items (some node))
    (hnode : heap node = some ⟨next, data⟩) :
    Segment heap p (items ++ [(node, data)]) none ↔ next = none := by
  constructor
  · intro hend
    have heq := hend.node_eq
    rw [hnode] at heq
    cases heq
    rfl
  · rintro rfl
    exact append_iff.mpr ⟨some node, h, rfl, none, hnode, rfl⟩

/-- A node behind another one is not the first. -/
theorem start_ne {before after : List (ν × α)} {other : ν × α}
    (h : Segment heap p (before ++ other :: (node, data) :: after) none) : p ≠ some node := by
  have hnodup := h.nodup
  rw [h.start_eq]
  intro heq
  cases before with
  | nil =>
      have hother : other.1 = node := by simpa using heq
      simp [hother] at hnodup
  | cons first before =>
      have hfirst : first.1 = node := by simpa using heq
      simp [hfirst] at hnodup

section Links

variable [DecidableEq ν]

/-- A node that is in no segment may change. -/
theorem update (h : Segment heap p items q) (hnot : node ∉ addresses items)
    (cell : Option (Cell ν α)) : Segment (Function.update heap node cell) p items q :=
  h.congr fun _ hmem => Function.update_of_ne (ne_of_mem_of_not_mem hmem hnot) _ _

/-- The last node of a segment with another one behind it. -/
theorem relink (h : Segment heap p (items ++ [(node, data)]) q) (hnot : node ∉ addresses items) :
    Segment (Function.update heap node (some ⟨r, data⟩)) p (items ++ [(node, data)]) r := by
  obtain ⟨p', hitems, hlast⟩ := append_iff.mp h
  obtain ⟨rfl, next, hnode, -⟩ := cons_iff.mp hlast
  refine append_iff.mpr ⟨some node, hitems.update hnot _, rfl, r, ?_, rfl⟩
  exact Function.update_self node _ heap

/-- The node behind a segment is left out when its last node has what follows as the next. -/
theorem bypass {item : ν × α}
    (h : Segment heap p (items ++ (node, data) :: item :: more) none) :
    Segment (Function.update heap node (some ⟨(addresses more).head?, data⟩)) p
      (items ++ (node, data) :: more) none := by
  obtain ⟨hitems', hrest'⟩ := h.node_not_mem
  rw [← List.singleton_append, ← List.append_assoc] at h ⊢
  obtain ⟨r, hitems, hrest⟩ := append_iff.mp h
  obtain ⟨item, other⟩ := item
  obtain ⟨-, next, -, hafter⟩ := cons_iff.mp hrest
  refine append_iff.mpr ⟨(addresses more).head?, hitems.relink hitems', ?_⟩
  rw [← hafter.start_eq]
  exact hafter.update (fun hmem => hrest' (List.mem_cons_of_mem _ hmem)) _

end Links

end Segment

end LinkedNodes
