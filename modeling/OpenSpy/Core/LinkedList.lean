import OpenSpy.Library.LinkedNodes

/-!
# The linked lists of nodes

`LinkedListHead` and `LinkedListIterator` of `LinkedList.h`, with the memory that the nodes are in.
The loops have as many turns as `limit` says. `Holds` says which nodes a list has, in order, with
their data.
-/

namespace OpenSpy

open LinkedNodes

/-- `LinkedListHead`: `mp_head`, and the memory. -/
structure LinkedListHead (ν α : Type) where
  head : Option ν
  heap : Heap ν α

namespace LinkedListHead

variable {ν α σ : Type}

section Model

variable [DecidableEq ν] (limit : Nat) (list : LinkedListHead ν α)

/-- The loop of `FindPrevious`. -/
def findPreviousFrom (item : ν) : Nat → Option ν → Option (Option ν)
  | _, none => some none
  | 0, some _ => none
  | limit + 1, some p => do
      let next ← list.heap.getNext p
      if next = some item then some (some p) else findPreviousFrom item limit next

/-- `FindPrevious`. -/
def findPrevious (item : ν) : Option (Option ν) :=
  list.findPreviousFrom item limit list.head

/-- `SetNext` of a node. -/
def setNext (node : ν) (next : Option ν) : Option (LinkedListHead ν α) := do
  let heap ← list.heap.setNext node next
  some { list with heap := heap }

/-- `RemoveFromList`. -/
def removeFromList (item : ν) : Option (LinkedListHead ν α) :=
  if list.head = some item then do
    let next ← list.heap.getNext item
    some { list with head := next }
  else do
    match ← list.heap.getNext item with
    | some next =>
        let list ← list.setNext next (← list.heap.getNext next)
        match ← list.findPrevious limit item with
        | some previous => list.setNext previous (← list.heap.getNext item)
        | none => some list
    | none =>
        match ← list.findPrevious limit item with
        | some previous => list.setNext previous none
        | none => some list

/-- The loop of `AddToList`. -/
def lastFrom : Nat → ν → Option ν
  | 0, _ => none
  | limit + 1, p => do
      match ← list.heap.getNext p with
      | some next => lastFrom limit next
      | none => some p

/-- `AddToList`. -/
def addToList (item : ν) : Option (LinkedListHead ν α) :=
  match list.head with
  | none => some { list with head := some item }
  | some head => do
      let last ← list.lastFrom limit head
      list.setNext last (some item)

/-- `delete`. -/
def delete (item : ν) : Option (LinkedListHead ν α) := do
  let heap ← list.heap.free item
  some { list with heap := heap }

/-- The loop of `Iterate`. The callback has the list and the state of the caller. -/
def iterateFrom (callback : ν → LinkedListHead ν α × σ → Option (Bool × LinkedListHead ν α × σ)) :
    Nat → Option ν → LinkedListHead ν α × σ → Option (LinkedListHead ν α × σ)
  | _, none, state => some state
  | 0, some _, _ => none
  | limit + 1, some p, state => do
      let next ← state.1.heap.getNext p
      let (goesOn, state) ← callback p state
      if goesOn then iterateFrom callback limit next state else some state

/-- `Iterate`. -/
def iterate (callback : ν → LinkedListHead ν α × σ → Option (Bool × LinkedListHead ν α × σ))
    (state : LinkedListHead ν α × σ) : Option (LinkedListHead ν α × σ) :=
  iterateFrom callback limit state.1.head state

/-- A callback that removes and frees the nodes it picks, by their addresses and data. -/
def removing (pick : ν → α → Bool) (visit : ν → σ → σ) (item : ν)
    (state : LinkedListHead ν α × σ) : Option (Bool × LinkedListHead ν α × σ) := do
  let cell ← state.1.heap item
  let list ←
    if pick item cell.data then do
      let list ← state.1.removeFromList limit item
      list.delete item
    else some state.1
  some (true, list, visit item state.2)

end Model

/-- The nodes of a list, in order, with their data. -/
def Holds (list : LinkedListHead ν α) (items : List (ν × α)) : Prop :=
  Segment list.heap list.head items none

section Walks

variable {list : LinkedListHead ν α}

/-- The last node is found. -/
theorem last_from {before : List (ν × α)} {node first : ν} {data : α} {limit : Nat} {p : Option ν}
    (hlimit : before.length < limit)
    (h : Segment list.heap p (before ++ [(node, data)]) none) (hp : p = some first) :
    list.lastFrom limit first = some node := by
  subst hp
  induction before generalizing limit first with
  | nil =>
      cases limit with
      | zero => cases hlimit
      | succ limit =>
          obtain ⟨heq, next, hnode, hend⟩ := Segment.cons_iff.mp h
          cases heq
          cases hend
          rw [lastFrom, Heap.get_next_eq hnode]
          rfl
  | cons item before ih =>
      cases limit with
      | zero => cases hlimit
      | succ limit =>
          obtain ⟨item, other⟩ := item
          obtain ⟨heq, next, hitem, hrest⟩ := Segment.cons_iff.mp h
          cases heq
          rw [lastFrom, Heap.get_next_eq hitem]
          cases next with
          | none => cases before <;> cases hrest.start_eq
          | some next => exact ih (Nat.lt_of_succ_lt_succ hlimit) hrest

variable [DecidableEq ν] {before after items : List (ν × α)} {item node : ν} {data other : α}
  {limit : Nat} {p : Option ν}

/-- The node in front of an item is found. -/
theorem find_previous_from (hlimit : before.length < limit)
    (h : Segment list.heap p (before ++ (node, data) :: (item, other) :: after) none) :
    list.findPreviousFrom item limit p = some (some node) := by
  induction before generalizing limit p with
  | nil =>
      cases limit with
      | zero => cases hlimit
      | succ limit =>
          obtain ⟨rfl, next, hnode, hrest⟩ := Segment.cons_iff.mp h
          rw [findPreviousFrom, Heap.get_next_eq hnode]
          simp [(Segment.cons_iff.mp hrest).1]
  | cons first before ih =>
      cases limit with
      | zero => cases hlimit
      | succ limit =>
          obtain ⟨first, data'⟩ := first
          obtain ⟨rfl, next, hfirst, hrest⟩ := Segment.cons_iff.mp h
          rw [findPreviousFrom, Heap.get_next_eq hfirst]
          simp only [Option.bind_eq_bind, Option.bind_some, if_neg (Segment.start_ne hrest)]
          exact ih (Nat.lt_of_succ_lt_succ hlimit) hrest

end Walks

section Operations

variable [DecidableEq ν] {list : LinkedListHead ν α} {before after items : List (ν × α)}
  {item node : ν} {data other : α} {limit : Nat}

/-- `RemoveFromList` of the first node. -/
theorem remove_first (h : list.Holds ((item, data) :: after)) :
    list.removeFromList limit item = some { list with head := (addresses after).head? } := by
  have hhead : list.head = some item := (Segment.cons_iff.mp h).1
  rw [removeFromList, if_pos hhead, Heap.get_next_eq (Segment.first_eq h).1]
  rfl

/-- `RemoveFromList` of a node with another one in front. -/
theorem remove_later (hlimit : before.length < limit)
    (h : list.Holds (before ++ (node, other) :: (item, data) :: after)) :
    list.removeFromList limit item =
      some { list with
        heap := Function.update list.heap node (some ⟨(addresses after).head?, other⟩) } := by
  have hbehind : list.Holds ((before ++ [(node, other)]) ++ (item, data) :: after) := by
    rw [List.append_assoc]
    exact h
  have hitem := Segment.node_eq hbehind
  have hfound : list.findPrevious limit item = some (some node) := find_previous_from hlimit h
  have hnode := Segment.node_eq h
  rw [removeFromList, if_neg (Segment.start_ne h), Heap.get_next_eq hitem]
  cases after with
  | nil => simp [hfound, setNext, Heap.set_next_eq hnode]
  | cons next after =>
      obtain ⟨next, data'⟩ := next
      have hlast : list.Holds ((before ++ [(node, other), (item, data)]) ++
          (next, data') :: after) := by
        rw [List.append_assoc]
        exact h
      have hnext := Segment.node_eq hlast
      -- the first `SetNext` leaves the next node as it is
      have hsame : list.setNext next (addresses after).head? = some list := by
        have hself := Heap.set_next_self hnext
        simp only [setNext, hself]
        rfl
      simp only [Option.bind_eq_bind, Option.bind_some, addresses_cons, List.head?_cons,
        Heap.get_next_eq hnext, hsame, hfound, Heap.get_next_eq hitem]
      simp [setNext, Heap.set_next_eq hnode]

/-- `RemoveFromList` takes out a node of the list, and changes no node but the one in front. -/
theorem remove_from_list (hlimit : before.length ≤ limit)
    (h : list.Holds (before ++ (item, data) :: after)) :
    ∃ list', list.removeFromList limit item = some list' ∧ list'.Holds (before ++ after) ∧
      ∀ p ∉ addresses before, list'.heap p = list.heap p := by
  rcases List.eq_nil_or_concat' before with rfl | ⟨before, ⟨node, other⟩, rfl⟩
  · exact ⟨_, remove_first h, (Segment.first_eq h).2, fun _ _ => rfl⟩
  · simp only [List.length_append, List.length_singleton, List.append_assoc,
      List.singleton_append] at h hlimit ⊢
    refine ⟨_, remove_later hlimit h, Segment.bypass h, fun p hnot => ?_⟩
    refine Function.update_of_ne (fun heq => hnot ?_) _ _
    simp [heq]

/-- `AddToList` has another node follow the last one. It is the end of the list if it has no next
node itself. -/
theorem add_to_list (hlimit : items.length ≤ limit) (h : list.Holds items)
    (hnot : item ∉ addresses items) {next : Option ν} (hitem : list.heap item = some ⟨next, data⟩) :
    ∃ list', list.addToList limit item = some list' ∧
      (list'.Holds (items ++ [(item, data)]) ↔ next = none) ∧
      ∀ p ∉ addresses items, list'.heap p = list.heap p := by
  rcases List.eq_nil_or_concat' items with rfl | ⟨before, ⟨last, other⟩, rfl⟩
  · have hhead : list.head = none := h
    refine ⟨{ list with head := some item }, by rw [addToList, hhead], ?_, fun _ _ => rfl⟩
    exact Segment.append_single_iff rfl hitem
  · have hlast := (Segment.node_not_mem h).1
    have hne : item ≠ last := by
      rintro rfl
      exact hnot (by simp)
    rw [List.length_append, List.length_singleton] at hlimit
    obtain ⟨head, hhead⟩ : ∃ head, list.head = some head := by
      have hstart := Segment.start_eq h
      cases before <;> exact ⟨_, hstart⟩
    have hfound : list.lastFrom limit head = some last := last_from hlimit h hhead
    refine ⟨{ list with heap := Function.update list.heap last (some ⟨some item, other⟩) },
      ?_, ?_, fun p hp => ?_⟩
    · simp [addToList, hhead, hfound, setNext, Heap.set_next_eq (Segment.node_eq h)]
    · exact Segment.append_single_iff (Segment.relink h hlast)
        ((Function.update_of_ne hne _ _).trans hitem)
    · refine Function.update_of_ne (fun heq => hp ?_) _ _
      simp [heq]

theorem delete_eq {cell : Cell ν α} (h : list.heap item = some cell) :
    list.delete item = some { list with heap := Function.update list.heap item none } := by
  rw [delete, Heap.free_eq h]
  rfl

end Operations

section Iterate

variable {limit : Nat} (pick : ν → α → Bool) (visit : ν → σ → σ)

/-- The nodes that are not picked. -/
def unpicked (items : List (ν × α)) : List (ν × α) :=
  items.filter fun item => !pick item.1 item.2

theorem unpicked_cons (item : ν × α) (rest : List (ν × α)) :
    unpicked pick (item :: rest) = unpicked pick [item] ++ unpicked pick rest :=
  List.filter_append [item] rest

theorem mem_of_unpicked {items : List (ν × α)} {p : ν}
    (h : p ∈ addresses (unpicked pick items)) : p ∈ addresses items :=
  List.map_subset _ (List.filter_subset_self items) h

variable [DecidableEq ν]

/-- One call of the callback: a node that is picked is not in the list any more and is freed, and
no node is touched but this one and those in front. -/
theorem removing_step {list : LinkedListHead ν α} {kept rest : List (ν × α)} {item : ν} {data : α}
    (hlimit : kept.length ≤ limit) (h : list.Holds (kept ++ (item, data) :: rest)) (s : σ) :
    ∃ list', removing limit pick visit item (list, s) = some (true, list', visit item s) ∧
      list'.Holds (kept ++ unpicked pick [(item, data)] ++ rest) ∧
      (pick item data = true → list'.heap item = none) ∧
      ∀ p ∉ addresses kept, p ≠ item → list'.heap p = list.heap p := by
  have hitem := Segment.node_eq h
  cases hpick : pick item data with
  | false =>
      refine ⟨list, by simp [removing, hitem, hpick], ?_, by simp, fun _ _ _ => rfl⟩
      simpa [unpicked, hpick] using h
  | true =>
      obtain ⟨removed, hremove, hholds, hsame⟩ := remove_from_list hlimit h
      obtain ⟨hkept, hrest⟩ := Segment.node_not_mem h
      have hthere := (hsame item hkept).trans hitem
      refine ⟨{ removed with heap := Function.update removed.heap item none }, ?_, ?_, ?_, ?_⟩
      · simp [removing, hitem, hpick, hremove, delete_eq hthere]
      · have hnone : unpicked pick [(item, data)] = [] := by simp [unpicked, hpick]
        rw [hnone, List.append_nil]
        refine Segment.update hholds ?_ none
        rw [addresses_append, List.mem_append]
        exact fun hmem => hmem.elim hkept hrest
      · exact fun _ => Function.update_self ..
      · exact fun p hp hne => (Function.update_of_ne hne _ _).trans (hsame p hp)

/-- All calls. -/
theorem iterate_from_removing {turns : Nat} {list : LinkedListHead ν α}
    {kept rest : List (ν × α)} (hturns : rest.length ≤ turns)
    (hlimit : kept.length + rest.length ≤ limit) (h : list.Holds (kept ++ rest)) (s : σ) :
    ∃ list', iterateFrom (removing limit pick visit) turns (addresses rest).head? (list, s) =
        some (list', (addresses rest).foldl (fun s item => visit item s) s) ∧
      list'.Holds (kept ++ unpicked pick rest) ∧
      (∀ item ∈ rest, pick item.1 item.2 = true → list'.heap item.1 = none) ∧
      ∀ p ∉ addresses (kept ++ rest), list'.heap p = list.heap p := by
  induction rest generalizing turns list kept s with
  | nil =>
      refine ⟨list, by cases turns <;> rfl, h, by simp, fun _ _ => rfl⟩
  | cons item rest ih =>
      cases turns with
      | zero => cases hturns
      | succ turns =>
          obtain ⟨item, data⟩ := item
          rw [List.length_cons] at hlimit
          obtain ⟨list₁, hcall, hholds, hfreed, hsame⟩ :=
            removing_step pick visit (by omega : kept.length ≤ limit) h s
          have hkept : (kept ++ unpicked pick [(item, data)]).length ≤ kept.length + 1 := by
            rw [List.length_append]
            exact Nat.add_le_add_left (List.length_filter_le _ _) _
          obtain ⟨list₂, hrun, hend, hgone, hother⟩ := ih (Nat.le_of_succ_le_succ hturns)
            (by omega) hholds (visit item s)
          refine ⟨list₂, ?_, ?_, ?_, ?_⟩
          · rw [addresses_cons, List.head?_cons, iterateFrom, Heap.get_next_eq (Segment.node_eq h)]
            simp only [Option.bind_eq_bind, Option.bind_some, hcall, if_true]
            exact hrun
          · rw [unpicked_cons, ← List.append_assoc]
            exact hend
          · intro other hother' hpick
            rcases List.mem_cons.mp hother' with rfl | hmem
            · rw [hother item ?_]
              · exact hfreed hpick
              · have hnone : unpicked pick [(item, data)] = [] := by simp [unpicked, hpick]
                rw [hnone, List.append_nil, addresses_append, List.mem_append, not_or]
                exact Segment.node_not_mem h
            · exact hgone other hmem hpick
          · intro p hp
            simp only [addresses_append, addresses_cons, List.mem_append, List.mem_cons, not_or]
              at hp
            rw [hother p ?_, hsame p hp.1 hp.2.1]
            simp only [addresses_append, List.mem_append, not_or]
            refine ⟨⟨hp.1, fun hmem => hp.2.1 ?_⟩, hp.2.2⟩
            simpa using mem_of_unpicked pick hmem

/-- `Iterate` over the whole list. -/
theorem iterate_removing {list : LinkedListHead ν α} {items : List (ν × α)}
    (hlimit : items.length ≤ limit) (h : list.Holds items) (s : σ) :
    ∃ list', iterate limit (removing limit pick visit) (list, s) =
        some (list', (addresses items).foldl (fun s item => visit item s) s) ∧
      list'.Holds (unpicked pick items) ∧
      (∀ item ∈ items, pick item.1 item.2 = true → list'.heap item.1 = none) ∧
      ∀ p ∉ addresses items, list'.heap p = list.heap p := by
  have hheld : list.Holds ([] ++ items) := h
  rw [iterate, Segment.start_eq h]
  exact iterate_from_removing pick visit hlimit (by simpa using hlimit) hheld s

/-- A list keeps its order. `RemoveFromList` takes out just its node, a node that `AddToList` adds
is the last one if it has no next node, and `Iterate` comes by every node once, in order, when the
nodes that are picked are removed and freed under way. No freed node is used. -/
theorem lists_keep_order {list : LinkedListHead ν α} {items : List (ν × α)}
    (h : list.Holds items) (hlimit : items.length ≤ limit) :
    (∀ before item data after, items = before ++ (item, data) :: after →
      ∃ list', list.removeFromList limit item = some list' ∧ list'.Holds (before ++ after)) ∧
    (∀ item data next, item ∉ addresses items → list.heap item = some ⟨next, data⟩ →
      ∃ list', list.addToList limit item = some list' ∧
        (list'.Holds (items ++ [(item, data)]) ↔ next = none)) ∧
    ∀ (σ : Type) (pick : ν → α → Bool) (visit : ν → σ → σ) (s : σ),
      ∃ list', iterate limit (removing limit pick visit) (list, s) =
          some (list', (addresses items).foldl (fun s item => visit item s) s) ∧
        list'.Holds (unpicked pick items) ∧
        ∀ item ∈ items, pick item.1 item.2 = true → list'.heap item.1 = none := by
  refine ⟨?_, ?_, ?_⟩
  · rintro before item data after rfl
    rw [List.length_append] at hlimit
    obtain ⟨list', hremove, hholds, -⟩ := remove_from_list (by omega : before.length ≤ limit) h
    exact ⟨list', hremove, hholds⟩
  · intro item data next hnot hitem
    obtain ⟨list', hadd, hholds, -⟩ := add_to_list hlimit h hnot hitem
    exact ⟨list', hadd, hholds⟩
  · intro σ pick visit s
    obtain ⟨list', hrun, hholds, hfreed, -⟩ := iterate_removing pick visit hlimit h s
    exact ⟨list', hrun, hholds, hfreed⟩

end Iterate

/-- Two nodes, 0 and 1. -/
def twoNodes : LinkedListHead Nat Unit where
  head := some 0
  heap node := if node = 0 then some ⟨some 1, ()⟩ else if node = 1 then some ⟨none, ()⟩ else none

theorem two_nodes_holds : twoNodes.Holds [(0, ()), (1, ())] :=
  ⟨rfl, some 1, rfl, rfl, none, rfl, rfl⟩

/-- The first of two nodes is taken out. -/
theorem lists_keep_order_two :
    ∃ list', twoNodes.removeFromList 2 0 = some list' ∧ list'.Holds [(1, ())] :=
  (lists_keep_order two_nodes_holds (by decide)).1 [] 0 () [(1, ())] rfl

/-- A node that was taken out still has its next node, so that the list goes round in a circle when
it is added again. -/
theorem added_again_in_circle :
    ∃ removed list', twoNodes.removeFromList 2 0 = some removed ∧ removed.Holds [(1, ())] ∧
      removed.addToList 2 0 = some list' ∧ ¬ list'.Holds [(1, ()), (0, ())] ∧
      list'.heap.getNext 1 = some (some 0) ∧ list'.heap.getNext 0 = some (some 1) := by
  refine ⟨_, _, rfl, ⟨rfl, none, rfl, rfl⟩, rfl, ?_, rfl, rfl⟩
  rintro ⟨-, next, -, -, last, hlast, hend⟩
  cases hend
  cases hlast

end LinkedListHead

end OpenSpy
