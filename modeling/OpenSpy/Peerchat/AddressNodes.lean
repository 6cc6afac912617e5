import OpenSpy.Core.LinkedList
import OpenSpy.Peerchat.FlagUpdates

/-!
# The nodes of the address list

A peer keeps the users whose addresses it may see in a `LinkedListHead`, whose nodes it allocates
and frees. `run_lists` says that any run of the operations on it has the effect on the nodes that
the functions of `Client` have on the plain list, and `is_user_address_visible` that a question gets
the answer of the plain list. `PurgeUserAddressVisibility`, for the destructor, takes the callback
for one user with the user id 0, and so leaves the nodes of all other users (`purge_lists`).
-/

namespace OpenSpy.Peerchat

open LinkedNodes LinkedListHead

variable {ν : Type}

/-- `mp_user_address_visibility_list`. -/
abbrev AddressList (ν : Type) := LinkedListHead ν UserAddressVisibilityInfo

/-- The list has nodes with this data, in order. -/
def Lists (list : AddressList ν) (visibility : List UserAddressVisibilityInfo) : Prop :=
  ∃ items, list.Holds items ∧ items.map Prod.snd = visibility

section Find

/-- `LLIterator_IsUserAddressVisible`, with the `found` of its state. -/
def isUserAddressVisibleCallback (userId : Int) (node : ν) (state : AddressList ν × Bool) :
    Option (Bool × AddressList ν × Bool) := do
  let cell ← state.1.heap node
  some (if cell.data.userId = userId then (false, state.1, true) else (true, state))

/-- `Peer::IsUserAddressVisible`. -/
def isUserAddressVisible (limit : Nat) (peer : ChatPeer) (list : AddressList ν) (userId : Int) :
    Option Bool :=
  if peer.hasPrivilege globalOwner then some true
  else do
    let (_, found) ← iterate limit (isUserAddressVisibleCallback userId) (list, false)
    some found

variable {limit : Nat} {list : AddressList ν} {visibility : List UserAddressVisibilityInfo}

/-- The nodes are read up to the first one of the user. -/
theorem find_from {turns : Nat} {p : Option ν} {items : List (ν × UserAddressVisibilityInfo)}
    (hturns : items.length ≤ turns) (h : Segment list.heap p items none) (userId : Int) :
    iterateFrom (isUserAddressVisibleCallback userId) turns p (list, false) =
      some (list, (items.map Prod.snd).any (·.userId == userId)) := by
  induction items generalizing turns p with
  | nil =>
      cases h
      cases turns <;> rfl
  | cons item items ih =>
      cases turns with
      | zero => cases hturns
      | succ turns =>
          obtain ⟨node, info⟩ := item
          obtain ⟨rfl, next, hnode, hrest⟩ := Segment.cons_iff.mp h
          rw [iterateFrom, Heap.get_next_eq hnode]
          by_cases huser : info.userId = userId
          · simp [isUserAddressVisibleCallback, hnode, huser]
          · have hcall : isUserAddressVisibleCallback userId node (list, false) =
                some (true, list, false) := by
              simp [isUserAddressVisibleCallback, hnode, huser]
            simp only [Option.bind_eq_bind, Option.bind_some, hcall, if_true]
            rw [ih (Nat.le_of_succ_le_succ hturns) hrest]
            simp [huser]

/-- The answer is that of the plain list. -/
theorem is_user_address_visible (peer : ChatPeer) (h : Lists list visibility)
    (hlimit : visibility.length ≤ limit) (userId : Int) :
    isUserAddressVisible limit peer list userId =
      some ((Viewer.mk peer visibility).isUserAddressVisible userId) := by
  obtain ⟨items, hholds, rfl⟩ := h
  rw [List.length_map] at hlimit
  rw [isUserAddressVisible, Viewer.isUserAddressVisible]
  split
  · next hglobal => rw [hglobal, Bool.true_or]
  · next hglobal =>
      rw [iterate, find_from hlimit hholds, Bool.eq_false_iff.mpr hglobal, Bool.false_or]
      rfl

end Find

section Operations

variable [DecidableEq ν] (limit : Nat) (list : AddressList ν)

/-- `Iterate` with one of the callbacks `LLIterator_RemoveUserAddressVisibility_...`, which remove
and free a node by its data. -/
def removeWhere (pick : UserAddressVisibilityInfo → Bool) : Option (AddressList ν) := do
  let (list, ()) ← iterate limit (removing limit (fun _ => pick) fun _ s => s) (list, ())
  some list

/-- `Peer::RemoveUserAddressVisibility_ByChannel`. -/
def removeUserAddressVisibilityByChannel (channelId : BitVec 32) : Option (AddressList ν) :=
  removeWhere limit list fun info => info.channelId = channelId

/-- `Peer::RemoveUserAddressVisibility_ByChannelUser`. -/
def removeUserAddressVisibilityByChannelUser (userId : Int) (channelId : BitVec 32) :
    Option (AddressList ν) :=
  removeWhere limit list fun info => info.channelId = channelId ∧ info.userId = userId

/-- `Peer::RemoveUserAddressVisibility_ByUser`. -/
def removeUserAddressVisibilityByUser (userId : Int) : Option (AddressList ν) :=
  removeWhere limit list fun info => info.userId = userId

/-- `Peer::PurgeUserAddressVisibility`, which takes the same callback, with the user id that its
state has from the constructor. -/
def purgeUserAddressVisibility : Option (AddressList ν) :=
  removeUserAddressVisibilityByUser limit list 0

/-- `Peer::AddUserToAddressVisbilityList`, where `new` returns the node. -/
def addUserToAddressVisibilityList (node : ν) (userId : Int) (channelId : BitVec 32) :
    Option (AddressList ν) :=
  { list with
    heap := Function.update list.heap node (some ⟨none, ⟨userId, channelId⟩⟩) }.addToList limit node

end Operations

/-- An operation on the list. -/
inductive AddressOp (ν : Type) where
  | add (node : ν) (userId : Int) (channelId : BitVec 32)
  | removeByChannel (channelId : BitVec 32)
  | removeByChannelUser (userId : Int) (channelId : BitVec 32)

namespace AddressOp

/-- A node that is added is new. -/
def IsNew (list : AddressList ν) : AddressOp ν → Prop
  | add node _ _ => list.heap node = none
  | _ => True

/-- What it does with the nodes. -/
def perform [DecidableEq ν] (limit : Nat) (list : AddressList ν) :
    AddressOp ν → Option (AddressList ν)
  | add node userId channelId => addUserToAddressVisibilityList limit list node userId channelId
  | removeByChannel channelId => removeUserAddressVisibilityByChannel limit list channelId
  | removeByChannelUser userId channelId =>
      removeUserAddressVisibilityByChannelUser limit list userId channelId

/-- What it does with the plain list. -/
def client : AddressOp ν → Client → Client
  | add _ userId channelId => Client.addVisible userId channelId
  | removeByChannel channelId => Client.removeByChannel channelId
  | removeByChannelUser userId channelId => Client.removeByChannelUser userId channelId

theorem length_client_le (op : AddressOp ν) (client : Client) :
    (op.client client).visibility.length ≤ client.visibility.length + 1 := by
  cases op with
  | add => simp [AddressOp.client, Client.addVisible]
  | removeByChannel => exact Nat.le_succ_of_le (List.length_filter_le _ _)
  | removeByChannelUser => exact Nat.le_succ_of_le (List.length_filter_le _ _)

end AddressOp

section Refinement

variable [DecidableEq ν] {limit : Nat} {list : AddressList ν}
  {visibility : List UserAddressVisibilityInfo}

theorem remove_where_lists (h : Lists list visibility) (hlimit : visibility.length ≤ limit)
    (pick : UserAddressVisibilityInfo → Bool) :
    ∃ list', removeWhere limit list pick = some list' ∧
      Lists list' (visibility.filter fun info => !pick info) := by
  obtain ⟨items, hholds, rfl⟩ := h
  rw [List.length_map] at hlimit
  obtain ⟨list', hrun, hend, -, -⟩ :=
    iterate_removing (fun _ => pick) (fun _ s => s) hlimit hholds ()
  refine ⟨list', ?_, unpicked (fun _ => pick) items, hend, ?_⟩
  · rw [removeWhere, hrun]
    rfl
  · rw [unpicked, List.filter_map]
    rfl

/-- A new node is the last one. -/
theorem add_lists (h : Lists list visibility) (hlimit : visibility.length ≤ limit) {node : ν}
    (hnew : list.heap node = none) (userId : Int) (channelId : BitVec 32) :
    ∃ list', addUserToAddressVisibilityList limit list node userId channelId = some list' ∧
      Lists list' (visibility ++ [⟨userId, channelId⟩]) := by
  obtain ⟨items, hholds, rfl⟩ := h
  rw [List.length_map] at hlimit
  have hnot : node ∉ addresses items := fun hmem => Segment.ne_none hholds hmem hnew
  have hkept : { list with
      heap := Function.update list.heap node (some ⟨none, ⟨userId, channelId⟩⟩) }.Holds items :=
    Segment.update hholds hnot _
  obtain ⟨list', hadd, hend, -⟩ := add_to_list hlimit hkept hnot (Function.update_self ..)
  exact ⟨list', hadd, _, hend.mpr rfl, List.map_append⟩

/-- A run of operations. -/
inductive AddressRun (limit : Nat) : AddressList ν → List (AddressOp ν) → AddressList ν → Prop
  | done (list : AddressList ν) : AddressRun limit list [] list
  | step {list next last : AddressList ν} {op : AddressOp ν} {ops : List (AddressOp ν)} :
      op.IsNew list → op.perform limit list = some next → AddressRun limit next ops last →
      AddressRun limit list (op :: ops) last

/-- An operation is defined, and does with the nodes what it does with the plain list. -/
theorem step_lists {op : AddressOp ν} {client : Client} (h : Lists list client.visibility)
    (hlimit : client.visibility.length ≤ limit) (hnew : op.IsNew list) :
    ∃ next, op.perform limit list = some next ∧ Lists next (op.client client).visibility := by
  cases op with
  | add node userId channelId => exact add_lists h hlimit hnew userId channelId
  | removeByChannel channelId =>
      obtain ⟨next, hstep, hnext⟩ := remove_where_lists h hlimit
        fun info => info.channelId = channelId
      refine ⟨next, hstep, ?_⟩
      simpa [AddressOp.client, Client.removeByChannel] using hnext
  | removeByChannelUser userId channelId =>
      obtain ⟨next, hstep, hnext⟩ := remove_where_lists h hlimit
        fun info => info.channelId = channelId ∧ info.userId = userId
      refine ⟨next, hstep, ?_⟩
      simpa [AddressOp.client, Client.removeByChannelUser] using hnext

/-- So does a run. -/
theorem run_lists {last : AddressList ν} {ops : List (AddressOp ν)} {client : Client}
    (hrun : AddressRun limit list ops last) (h : Lists list client.visibility)
    (hlimit : client.visibility.length + ops.length ≤ limit) :
    Lists last (ops.foldl (fun client op => op.client client) client).visibility := by
  induction hrun generalizing client with
  | done => exact h
  | step hnew hstep hrest ih =>
      rename_i op ops
      rw [List.length_cons] at hlimit
      have hbefore : client.visibility.length ≤ limit := by omega
      obtain ⟨next, hperform, hnext⟩ := step_lists h hbefore hnew
      rw [hstep] at hperform
      cases hperform
      have hlength := op.length_client_le client
      have hrest : (op.client client).visibility.length + ops.length ≤ limit := by omega
      exact ih hnext hrest

/-- What the destructor calls frees the nodes of the user id 0 only. -/
theorem purge_lists (h : Lists list visibility) (hlimit : visibility.length ≤ limit) :
    ∃ list', purgeUserAddressVisibility limit list = some list' ∧
      Lists list' (visibility.filter (·.userId ≠ 0)) := by
  obtain ⟨list', hpurge, hrest⟩ := remove_where_lists h hlimit fun info => info.userId = 0
  refine ⟨list', hpurge, ?_⟩
  simpa using hrest

end Refinement

end OpenSpy.Peerchat
