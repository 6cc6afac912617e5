import OpenSpy.Library.MachineInt
import OpenSpy.Library.Runs

/-!
# The order of persist replies

A peer numbers its `getpd` requests and its `setpd` requests. `SendOrWaitBuffer` sends the reply
whose number is next and with it the replies that have waited for it; any other reply waits. The
loop that sends them runs at most `top_index` times, the greatest number so far, which is enough
because the reply that is sent has a number below those that wait. It counts in an `int`, so it
does not run any more once that number has reached `2 ^ 31`
(`persist_replies_in_order_iff`).
-/

namespace OpenSpy.GS

open MachineInt Runs

variable {α : Type}

/-- `WaitBufferCtx`, with the buffers that have been passed to `SendPacket`. The keys of
`buffer_map` are the numbers as `int`s, which is one to one. -/
structure WaitBufferCtx (α : Type) where
  waitIndex : UInt32
  topIndex : UInt32
  bufferMap : UInt32 → Option α
  sent : List α

namespace WaitBufferCtx

/-- A context as the constructor of `Peer` leaves it. -/
def init : WaitBufferCtx α :=
  ⟨0, 0, fun _ => none, []⟩

/-- `top_index` is the greatest number so far. -/
def raiseTop (ctx : WaitBufferCtx α) (index : UInt32) : WaitBufferCtx α :=
  if index > ctx.topIndex then { ctx with topIndex := index } else ctx

/-- `buffer_map` with another buffer, or none, for a number. -/
def setBuffer (ctx : WaitBufferCtx α) (index : UInt32) (buffer : Option α) : WaitBufferCtx α :=
  { ctx with bufferMap := fun other => if other = index then buffer else ctx.bufferMap other }

/-- A buffer is sent: its entry is erased and `wait_index` is incremented. -/
def sendNext (ctx : WaitBufferCtx α) (buffer : α) : WaitBufferCtx α :=
  { ctx.setBuffer ctx.waitIndex none with
    waitIndex := ctx.waitIndex + 1
    sent := ctx.sent ++ [buffer] }

/-- The loop of `SendOrWaitBuffer` with its counter. -/
def flush : Nat → WaitBufferCtx α → WaitBufferCtx α
  | 0, ctx => ctx
  | topIndex + 1, ctx =>
      match ctx.bufferMap ctx.waitIndex with
      | some buffer => flush topIndex (ctx.sendNext buffer)
      | none => ctx

/-- The number of turns of the loop at most: `top_index` as an `int`, if it is positive. -/
def loopCount (ctx : WaitBufferCtx α) : Nat :=
  if ctx.topIndex.toNat < 2 ^ 31 then ctx.topIndex.toNat else 0

/-- `Peer::SendOrWaitBuffer`. -/
def sendOrWaitBuffer (ctx : WaitBufferCtx α) (index : UInt32) (buffer : α) : WaitBufferCtx α :=
  let ctx := ctx.raiseTop index
  let ctx :=
    if index = ctx.waitIndex then ctx.sendNext buffer else ctx.setBuffer index (some buffer)
  flush ctx.loopCount ctx

end WaitBufferCtx

/-- The requests whose replies wait for each other. -/
inductive Persist where
  | getpd
  | setpd
  deriving DecidableEq

/-- `m_getpd_wait_ctx` and `m_setpd_wait_ctx` of a peer. -/
structure PersistPeer (α : Type) where
  getpdWaitCtx : WaitBufferCtx α
  setpdWaitCtx : WaitBufferCtx α

namespace PersistPeer

/-- A new peer. -/
def init : PersistPeer α :=
  ⟨.init, .init⟩

def waitCtx (peer : PersistPeer α) : Persist → WaitBufferCtx α
  | .getpd => peer.getpdWaitCtx
  | .setpd => peer.setpdWaitCtx

/-- `getPersistDataCallback` or `setPersistDataCallback` for the request with a number, from
the point where the reply is made. -/
def complete (reply : Persist → Nat → α) (peer : PersistPeer α) : Persist × Nat → PersistPeer α
  | (.getpd, i) =>
      { peer with
        getpdWaitCtx := peer.getpdWaitCtx.sendOrWaitBuffer (.ofNat i) (reply .getpd i) }
  | (.setpd, i) =>
      { peer with
        setpdWaitCtx := peer.setpdWaitCtx.sendOrWaitBuffer (.ofNat i) (reply .setpd i) }

end PersistPeer

/-- The numbers of the requests of a kind among completions. -/
def completionsOf (kind : Persist) (completions : List (Persist × Nat)) : List Nat :=
  completions.filterMap fun completion => if completion.1 = kind then some completion.2 else none

/-- The context of a kind of a peer whose backend calls complete in this order. -/
def ctxAfter (reply : Persist → Nat → α) (completions : List (Persist × Nat)) (kind : Persist) :
    WaitBufferCtx α :=
  (after (PersistPeer.complete reply) .init completions).waitCtx kind

/-- At any time the replies that have been sent are those of the first requests, in order, up
to the first one whose call has not completed. In the end they are the replies of all requests,
and none waits. -/
def RepliesInOrder (reply : Persist → Nat → α) (kind : Persist) (n : Nat)
    (completions : List (Persist × Nat)) : Prop :=
  (∀ done, done <+: completions → ∃ next,
    (ctxAfter reply done kind).sent = (List.range next).map (reply kind) ∧
      (∀ i < next, i ∈ completionsOf kind done) ∧ next ∉ completionsOf kind done) ∧
  (ctxAfter reply completions kind).sent = (List.range n).map (reply kind) ∧
  ∀ index, (ctxAfter reply completions kind).bufferMap index = none

section Numbers

theorem of_nat_succ (i : Nat) : UInt32.ofNat i + 1 = UInt32.ofNat (i + 1) := by
  simp

theorem of_nat_inj {i j : Nat} (hi : i ≤ 2 ^ 31) (hj : j ≤ 2 ^ 31) :
    UInt32.ofNat i = UInt32.ofNat j ↔ i = j := by
  rw [← UInt32.toNat_inj, UInt32.toNat_ofNat', UInt32.toNat_ofNat']
  omega

end Numbers

namespace WaitBufferCtx

variable {reply : Nat → α} {done : List Nat} {ctx : WaitBufferCtx α} {next i : Nat}

/-- The request with a number is completed. -/
def complete (reply : Nat → α) (ctx : WaitBufferCtx α) (i : Nat) : WaitBufferCtx α :=
  ctx.sendOrWaitBuffer (.ofNat i) (reply i)

theorem raise_top_wait (index : UInt32) : (ctx.raiseTop index).waitIndex = ctx.waitIndex := by
  rw [raiseTop]
  split <;> rfl

/-- The loop behind the reply that is next. -/
theorem complete_next (hindex : .ofNat i = ctx.waitIndex) :
    complete reply ctx i =
      flush ((ctx.raiseTop (.ofNat i)).sendNext (reply i)).loopCount
        ((ctx.raiseTop (.ofNat i)).sendNext (reply i)) := by
  rw [complete, sendOrWaitBuffer, raise_top_wait, if_pos hindex]

/-- The loop behind a reply that waits. -/
theorem complete_other (hindex : .ofNat i ≠ ctx.waitIndex) :
    complete reply ctx i =
      flush ((ctx.raiseTop (.ofNat i)).setBuffer (.ofNat i) (some (reply i))).loopCount
        ((ctx.raiseTop (.ofNat i)).setBuffer (.ofNat i) (some (reply i))) := by
  rw [complete, sendOrWaitBuffer, raise_top_wait, if_neg hindex]

/-- The replies up to the next one have been sent, those of completed requests from it on wait. -/
structure Delivered (reply : Nat → α) (done : List Nat) (ctx : WaitBufferCtx α) (next : Nat) :
    Prop where
  inOrder : ctx.sent = (List.range next).map reply
  below : ∀ i < next, i ∈ done
  index : ctx.waitIndex = .ofNat next
  top : ∀ i ∈ done, i ≤ ctx.topIndex.toNat
  topLt : ctx.topIndex.toNat < 2 ^ 31
  waiting : ∀ index buffer, ctx.bufferMap index = some buffer ↔
    ∃ i ∈ done, next ≤ i ∧ index = .ofNat i ∧ buffer = reply i

namespace Delivered

theorem init : Delivered reply [] .init 0 where
  inOrder := rfl
  below i hi := absurd hi (Nat.not_lt_zero i)
  index := rfl
  top := by simp
  topLt := Nat.two_pow_pos 31
  waiting := by simp [WaitBufferCtx.init]

theorem next_le (h : Delivered reply done ctx next) : next ≤ 2 ^ 31 := by
  by_contra hlt
  have hmem := h.top _ (h.below (2 ^ 31) (by omega))
  have htop := h.topLt
  omega

/-- The next reply waits if its request is completed. -/
theorem find (h : Delivered reply done ctx next) :
    ctx.bufferMap ctx.waitIndex = if next ∈ done then some (reply next) else none := by
  rw [h.index]
  split
  · rename_i hmem
    exact (h.waiting _ _).mpr ⟨next, hmem, le_rfl, rfl, rfl⟩
  · rename_i hmem
    refine Option.eq_none_iff_forall_ne_some.mpr fun buffer hfound => hmem ?_
    obtain ⟨i, hi, hle, hkey, -⟩ := (h.waiting _ _).mp hfound
    have hlt := (h.top i hi).trans_lt h.topLt
    rwa [(of_nat_inj h.next_le hlt.le).mp hkey]

/-- The reply that is next is sent, whether it has waited or comes now. -/
theorem advance {more : List Nat} (h : Delivered reply done ctx next)
    (hmore : ∀ i, i ∈ more ↔ i ∈ done ∨ i = next) (htop : next ≤ ctx.topIndex.toNat) :
    Delivered reply more (ctx.sendNext (reply next)) (next + 1) where
  inOrder := by
    show ctx.sent ++ [reply next] = _
    rw [h.inOrder, List.range_succ, List.map_append, List.map_singleton]
  below i hi := by
    rcases Nat.lt_succ_iff_lt_or_eq.mp hi with hlt | rfl
    · exact (hmore i).mpr (.inl (h.below i hlt))
    · exact (hmore i).mpr (.inr rfl)
  index := by
    show ctx.waitIndex + 1 = _
    rw [h.index, of_nat_succ]
  top i hi := by
    rcases (hmore i).mp hi with hold | rfl
    · exact h.top i hold
    · exact htop
  topLt := h.topLt
  waiting index buffer := by
    show (if index = ctx.waitIndex then none else ctx.bufferMap index) = some buffer ↔ _
    rw [h.index]
    constructor
    · intro hfound
      split at hfound
      · cases hfound
      · rename_i hne
        obtain ⟨i, hi, hle, rfl, rfl⟩ := (h.waiting _ _).mp hfound
        have hlt : next + 1 ≤ i := Nat.lt_of_le_of_ne hle fun heq => hne (by rw [heq])
        exact ⟨i, (hmore i).mpr (.inl hi), hlt, rfl, rfl⟩
    · rintro ⟨i, hi, hle, rfl, rfl⟩
      have hold := ((hmore i).mp hi).resolve_right (by omega)
      have hlt := (h.top i hold).trans_lt h.topLt
      have hne : UInt32.ofNat i ≠ .ofNat next := by
        rw [Ne, of_nat_inj hlt.le h.next_le]
        omega
      rw [if_neg hne]
      exact (h.waiting _ _).mpr ⟨i, hold, by omega, rfl, rfl⟩

/-- The loop sends the replies that have waited, and does not end before one is missing if it
runs often enough to get beyond the greatest number. -/
theorem flush {bound : Nat} (h : Delivered reply done ctx next)
    (hbound : next ∉ done ∨ ctx.topIndex.toNat < next + bound) :
    ∃ later, Delivered reply done (WaitBufferCtx.flush bound ctx) later ∧ later ∉ done := by
  induction bound generalizing ctx next with
  | zero =>
      refine ⟨next, h, ?_⟩
      rcases hbound with hmissing | htop
      · exact hmissing
      · intro hmem
        exact absurd (h.top next hmem) (by omega)
  | succ bound ih =>
      have hfind := h.find
      rw [WaitBufferCtx.flush]
      by_cases hmem : next ∈ done
      · rw [if_pos hmem] at hfind
        have hmore : ∀ i, i ∈ done ↔ i ∈ done ∨ i = next := by
          intro i
          constructor
          · exact .inl
          · rintro (hi | rfl)
            · exact hi
            · exact hmem
        have htop := hbound.resolve_left (not_not_intro hmem)
        rw [hfind]
        have hless : (ctx.sendNext (reply next)).topIndex.toNat < next + 1 + bound := by
          simp only [sendNext, setBuffer]
          omega
        exact ih (h.advance hmore (h.top next hmem)) (.inr hless)
      · rw [if_neg hmem] at hfind
        rw [hfind]
        exact ⟨next, h, hmem⟩

/-- The loop of `SendOrWaitBuffer` runs often enough once a reply has been sent. -/
theorem flush_loop (h : Delivered reply done ctx next) (hsent : next ∉ done ∨ 0 < next) :
    ∃ later, Delivered reply done (WaitBufferCtx.flush ctx.loopCount ctx) later ∧
      later ∉ done := by
  apply h.flush
  rw [loopCount, if_pos h.topLt]
  exact hsent.imp_right (by omega)

/-- The greatest number so far may be raised. -/
theorem raise_top (h : Delivered reply done ctx next) (hlt : i < 2 ^ 31) :
    Delivered reply done (ctx.raiseTop (.ofNat i)) next ∧
      i ≤ (ctx.raiseTop (.ofNat i)).topIndex.toNat := by
  have hnat : (UInt32.ofNat i).toNat = i := by
    rw [UInt32.toNat_ofNat']
    omega
  rw [raiseTop]
  split
  · rename_i hgt
    have hle := UInt32.lt_iff_toNat_lt.mp hgt
    exact ⟨{ h with
      top := fun j hj => (h.top j hj).trans hle.le
      topLt := hnat.trans_lt hlt }, hnat.ge⟩
  · rename_i hle
    rw [gt_iff_lt, UInt32.lt_iff_toNat_lt] at hle
    exact ⟨h, by omega⟩

/-- A reply that is not next waits. -/
theorem wait (h : Delivered reply done ctx next) (hfresh : i ∉ done)
    (htop : i ≤ ctx.topIndex.toNat) :
    Delivered reply (done ++ [i]) (ctx.setBuffer (.ofNat i) (some (reply i))) next where
  inOrder := h.inOrder
  below j hj := List.mem_append_left _ (h.below j hj)
  index := h.index
  top j hj := by
    rcases List.mem_append.mp hj with hold | hnew
    · exact h.top j hold
    · rwa [List.mem_singleton.mp hnew]
  topLt := h.topLt
  waiting index buffer := by
    have hle : next ≤ i := by
      by_contra hlt
      exact hfresh (h.below i (by omega))
    show (if index = .ofNat i then some (reply i) else ctx.bufferMap index) = some buffer ↔ _
    split
    · rename_i hindex
      subst hindex
      constructor
      · intro hsome
        exact ⟨i, by simp, hle, rfl, (Option.some.inj hsome).symm⟩
      · rintro ⟨j, hj, -, hkey, rfl⟩
        have hjle : j ≤ ctx.topIndex.toNat := by
          rcases List.mem_append.mp hj with hold | hnew
          · exact h.top j hold
          · rwa [List.mem_singleton.mp hnew]
        have htopLt := h.topLt
        rw [(of_nat_inj (by omega) (by omega)).mp hkey]
    · rename_i hne
      rw [h.waiting]
      constructor
      · rintro ⟨j, hj, hrest⟩
        exact ⟨j, List.mem_append_left _ hj, hrest⟩
      · rintro ⟨j, hj, hjle, rfl, hbuffer⟩
        rcases List.mem_append.mp hj with hold | hnew
        · exact ⟨j, hold, hjle, rfl, hbuffer⟩
        · rw [List.mem_singleton.mp hnew] at hne
          exact absurd rfl hne

/-- A request is completed. -/
theorem complete (h : Delivered reply done ctx next) (hmissing : next ∉ done)
    (hfresh : i ∉ done) (hlt : i < 2 ^ 31) :
    ∃ later, Delivered reply (done ++ [i]) (WaitBufferCtx.complete reply ctx i) later ∧
      later ∉ done ++ [i] := by
  obtain ⟨hraised, htop⟩ := h.raise_top hlt
  have hnext : UInt32.ofNat i = ctx.waitIndex ↔ i = next := by
    rw [h.index, of_nat_inj hlt.le h.next_le]
  by_cases hindex : UInt32.ofNat i = ctx.waitIndex
  · obtain rfl := hnext.mp hindex
    have hmore : ∀ j, j ∈ done ++ [i] ↔ j ∈ done ∨ j = i := by simp
    rw [complete_next hindex]
    exact (hraised.advance hmore htop).flush_loop (.inr (Nat.succ_pos i))
  · have hother : next ∉ done ++ [i] := by
      simp [hmissing, Ne.symm (mt hnext.mpr hindex)]
    rw [complete_other hindex]
    exact (hraised.wait hfresh htop).flush_loop (.inl hother)

end Delivered

/-- What has been sent and what waits after completions of different requests. -/
theorem after_delivered (reply : Nat → α) {order : List Nat} (hnodup : order.Nodup)
    (hlt : ∀ i ∈ order, i < 2 ^ 31) :
    ∃ next, Delivered reply order (after (complete reply) .init order) next ∧ next ∉ order := by
  induction order using List.reverseRecOn with
  | nil => exact ⟨0, .init, List.not_mem_nil⟩
  | append_singleton order i ih =>
      obtain ⟨hbefore, -, hfresh⟩ := List.nodup_append.mp hnodup
      obtain ⟨next, h, hmissing⟩ :=
        ih hbefore fun j hj => hlt j (List.mem_append_left _ hj)
      rw [after_concat]
      exact h.complete hmissing (fun hi => hfresh i hi i (by simp) rfl) (hlt i (by simp))

/-- If the next reply does not wait, the loop does nothing, whatever its counter is. -/
theorem flush_missing (bound : Nat) (h : ctx.bufferMap ctx.waitIndex = none) :
    flush bound ctx = ctx := by
  cases bound with
  | zero => rfl
  | succ bound => rw [flush, h]

/-- The context after the completion of the first requests in order. -/
structure Passed (ctx : WaitBufferCtx α) (next : Nat) : Prop where
  index : ctx.waitIndex = .ofNat next
  top : ∀ i < next, (UInt32.ofNat i).toNat ≤ ctx.topIndex.toNat
  empty : ∀ index, ctx.bufferMap index = none

/-- The greatest number so far is not below one that comes. -/
theorem le_raise_top (ctx : WaitBufferCtx α) (index : UInt32) :
    index.toNat ≤ (ctx.raiseTop index).topIndex.toNat ∧
      ctx.topIndex.toNat ≤ (ctx.raiseTop index).topIndex.toNat := by
  rw [raiseTop]
  split
  · rename_i hgt
    exact ⟨le_rfl, (UInt32.lt_iff_toNat_lt.mp hgt).le⟩
  · rename_i hle
    rw [gt_iff_lt, UInt32.lt_iff_toNat_lt] at hle
    exact ⟨by omega, le_rfl⟩

theorem raise_top_map (index : UInt32) : (ctx.raiseTop index).bufferMap = ctx.bufferMap := by
  rw [raiseTop]
  split <;> rfl

/-- The next request is completed. -/
theorem Passed.complete (h : Passed ctx next) :
    Passed (WaitBufferCtx.complete reply ctx next) (next + 1) := by
  obtain ⟨hnext, htop⟩ := le_raise_top ctx (.ofNat next)
  have hempty : ∀ index, ((ctx.raiseTop (.ofNat next)).sendNext (reply next)).bufferMap index =
      none := by
    intro index
    simp only [sendNext, setBuffer, raise_top_map]
    split
    · rfl
    · exact h.empty index
  rw [complete_next h.index.symm, flush_missing _ (hempty _)]
  exact {
    index := by
      show (ctx.raiseTop (.ofNat next)).waitIndex + 1 = _
      rw [raise_top_wait, h.index, of_nat_succ]
    top := by
      intro i hi
      rcases Nat.lt_succ_iff_lt_or_eq.mp hi with hlt | rfl
      · exact (h.top i hlt).trans htop
      · exact hnext
    empty := hempty }

/-- Requests that complete in order. -/
theorem after_range (reply : Nat → α) (n : Nat) :
    Passed (after (complete reply) .init (List.range n)) n := by
  induction n with
  | zero => exact ⟨rfl, by simp, fun _ => rfl⟩
  | succ n ih =>
      rw [List.range_succ, after_concat]
      exact ih.complete

/-- Once a number is out of the range of `int`, a reply that waits is not sent with the one
before it. -/
theorem Passed.left_waiting (reply : Nat → α) (h : Passed ctx next) (hnext : 2 ^ 31 ≤ next + 1) :
    ∃ index, (WaitBufferCtx.complete reply (WaitBufferCtx.complete reply ctx (next + 1))
      next).bufferMap index ≠ none := by
  have hne : UInt32.ofNat (next + 1) ≠ UInt32.ofNat next := by
    rw [Ne, ← UInt32.toNat_inj, UInt32.toNat_ofNat', UInt32.toNat_ofNat']
    omega
  obtain ⟨hlater, htop⟩ := le_raise_top ctx (.ofNat (next + 1))
  -- the later reply is parked
  have hparked : WaitBufferCtx.complete reply ctx (next + 1) =
      (ctx.raiseTop (.ofNat (next + 1))).setBuffer (.ofNat (next + 1))
        (some (reply (next + 1))) := by
    rw [complete_other (by rw [h.index]; exact hne), flush_missing]
    simp only [setBuffer, raise_top_wait, raise_top_map, h.index]
    rw [if_neg hne.symm]
    exact h.empty _
  generalize hctx : WaitBufferCtx.complete reply ctx (next + 1) = parked at hparked
  have hindex : UInt32.ofNat next = parked.waitIndex := by
    rw [hparked, setBuffer, raise_top_wait, h.index]
  have htopParked : parked.topIndex = (ctx.raiseTop (.ofNat (next + 1))).topIndex := by
    rw [hparked, setBuffer]
  obtain ⟨hnow, htopNow⟩ := le_raise_top parked (.ofNat next)
  have hbig : 2 ^ 31 ≤ (parked.raiseTop (.ofNat next)).topIndex.toNat := by
    have hseen : (UInt32.ofNat (2 ^ 31)).toNat = 2 ^ 31 := by rw [UInt32.toNat_ofNat']; omega
    rw [htopParked] at htopNow
    rcases Nat.lt_or_ge (2 ^ 31) next with hlt | hge
    · have hold := h.top (2 ^ 31) hlt
      omega
    · rcases (by omega : 2 ^ 31 = next ∨ 2 ^ 31 = next + 1) with heq | heq
      · rw [← heq] at hnow ⊢
        exact hseen.ge.trans hnow
      · rw [← heq] at hlater htopNow
        omega
  have hcount : ((parked.raiseTop (.ofNat next)).sendNext (reply next)).loopCount = 0 :=
    if_neg (Nat.not_lt.mpr hbig)
  refine ⟨.ofNat (next + 1), ?_⟩
  rw [complete_next hindex, hcount, flush]
  simp only [sendNext, setBuffer, raise_top_map, raise_top_wait]
  rw [← hindex, if_neg hne, hparked]
  simp [setBuffer]

end WaitBufferCtx

variable {reply : Persist → Nat → α} {kind : Persist}

theorem wait_ctx_complete (peer : PersistPeer α) (i : Nat) :
    (peer.complete reply (kind, i)).waitCtx kind =
      (peer.waitCtx kind).complete (reply kind) i := by
  cases kind <;> rfl

theorem wait_ctx_complete_other (peer : PersistPeer α) {other : Persist} (h : other ≠ kind)
    (i : Nat) : (peer.complete reply (other, i)).waitCtx kind = peer.waitCtx kind := by
  cases kind with
  | getpd =>
      cases other with
      | getpd => exact absurd rfl h
      | setpd => rfl
  | setpd =>
      cases other with
      | getpd => rfl
      | setpd => exact absurd rfl h

/-- The requests of a kind are answered as if there were no others. -/
theorem ctx_after_eq (completions : List (Persist × Nat)) :
    ctxAfter reply completions kind =
      after (WaitBufferCtx.complete (reply kind)) .init (completionsOf kind completions) := by
  induction completions using List.reverseRecOn with
  | nil => cases kind <;> rfl
  | append_singleton completions next ih =>
      obtain ⟨other, i⟩ := next
      have hsplit : completionsOf kind (completions ++ [(other, i)]) =
          completionsOf kind completions ++ completionsOf kind [(other, i)] :=
        List.filterMap_append
      rw [hsplit, after_append, ← ih, ctxAfter, after_concat]
      by_cases hkind : other = kind
      · subst hkind
        have hone : completionsOf other [(other, i)] = [i] := by simp [completionsOf]
        rw [wait_ctx_complete, hone]
        rfl
      · have hnone : completionsOf kind [(other, i)] = [] := by simp [completionsOf, hkind]
        rw [wait_ctx_complete_other _ hkind, hnone]
        rfl

/-- Completions of one kind only. -/
theorem completions_of_map (kind : Persist) (order : List Nat) :
    completionsOf kind (order.map (kind, ·)) = order := by
  induction order with
  | nil => rfl
  | cons i order ih =>
      have hfirst : completionsOf kind ((kind, i) :: order.map (kind, ·)) =
          i :: completionsOf kind (order.map (kind, ·)) := by
        simp [completionsOf]
      rw [List.map_cons, hfirst, ih]

/-- Replies leave in order as long as the numbers of the requests are in the range of `int`. -/
theorem replies_in_order_of_le {n : Nat} (hn : n ≤ 2 ^ 31) {completions : List (Persist × Nat)}
    (hperm : (completionsOf kind completions).Perm (List.range n)) :
    RepliesInOrder reply kind n completions := by
  have hnodup := hperm.nodup_iff.mpr List.nodup_range
  have hlt : ∀ i ∈ completionsOf kind completions, i < n := fun i hi =>
    List.mem_range.mp (hperm.mem_iff.mp hi)
  refine ⟨?_, ?_⟩
  · intro done hdone
    have hsub : (completionsOf kind done).Sublist (completionsOf kind completions) :=
      hdone.sublist.filterMap _
    obtain ⟨next, h, hmissing⟩ := WaitBufferCtx.after_delivered (reply kind) (hnodup.sublist hsub)
      (fun i hi => (hlt i (hsub.subset hi)).trans_le hn)
    rw [ctx_after_eq]
    exact ⟨next, h.inOrder, h.below, hmissing⟩
  · obtain ⟨next, h, hmissing⟩ := WaitBufferCtx.after_delivered (reply kind) hnodup
      (fun i hi => (hlt i hi).trans_le hn)
    -- the first request that is not completed is behind the last
    have hnext : next = n := by
      have hle : n ≤ next := by
        by_contra hlow
        exact hmissing (hperm.mem_iff.mpr (List.mem_range.mpr (by omega)))
      have hge : next ≤ n := by
        by_contra hhigh
        exact absurd (hlt n (h.below n (by omega))) (Nat.lt_irrefl n)
      omega
    rw [ctx_after_eq, ← hnext]
    refine ⟨h.inOrder, fun index => ?_⟩
    refine Option.eq_none_iff_forall_ne_some.mpr fun buffer hfound => ?_
    obtain ⟨i, hi, hle, -⟩ := (h.waiting _ _).mp hfound
    have hbelow := hlt i hi
    omega

/-- All requests but the last two are completed in order, and the last one before the one before
it. -/
def lastTwoSwapped (kind : Persist) (n : Nat) : List (Persist × Nat) :=
  (List.range n ++ [n + 1, n]).map (kind, ·)

theorem last_two_swapped_perm (kind : Persist) (n : Nat) :
    (completionsOf kind (lastTwoSwapped kind n)).Perm (List.range (n + 2)) := by
  rw [lastTwoSwapped, completions_of_map, List.range_succ, List.range_succ, List.append_assoc]
  exact (List.Perm.swap _ _ _).append_left _

/-- Beyond the range of `int` a reply is left waiting. -/
theorem exists_not_in_order (reply : Persist → Nat → α) (kind : Persist) {n : Nat}
    (hn : 2 ^ 31 < n) :
    ∃ completions, (completionsOf kind completions).Perm (List.range n) ∧
      ¬ RepliesInOrder reply kind n completions := by
  obtain ⟨m, rfl⟩ : ∃ m, n = m + 2 := ⟨n - 2, by omega⟩
  refine ⟨lastTwoSwapped kind m, last_two_swapped_perm kind m, ?_⟩
  rintro ⟨-, -, hempty⟩
  obtain ⟨index, hwaits⟩ :=
    (WaitBufferCtx.after_range (reply kind) m).left_waiting (reply kind) (by omega)
  have hlast := hempty index
  rw [ctx_after_eq, lastTwoSwapped, completions_of_map, after_append] at hlast
  exact hwaits hlast

/-- One request more than an `int` has numbers for. -/
theorem persist_reply_left_waiting :
    ¬ ∀ completions, (completionsOf .getpd completions).Perm (List.range (2 ^ 31 + 1)) →
      RepliesInOrder (fun _ i => i) .getpd (2 ^ 31 + 1) completions := by
  intro h
  obtain ⟨completions, hperm, hnot⟩ :=
    exists_not_in_order (fun _ i => i) .getpd (Nat.lt_succ_self (2 ^ 31))
  exact hnot (h completions hperm)

/-- For each number of requests the replies leave in order, whatever the order of completions
is, if and only if every number of a request is in the range of `int`. -/
theorem persist_replies_in_order_iff (reply : Persist → Nat → α) (kind : Persist) (n : Nat) :
    (∀ completions, (completionsOf kind completions).Perm (List.range n) →
        RepliesInOrder reply kind n completions) ↔ n ≤ 2 ^ 31 := by
  constructor
  · intro h
    by_contra hn
    obtain ⟨completions, hperm, hnot⟩ := exists_not_in_order reply kind (Nat.lt_of_not_le hn)
    exact hnot (h completions hperm)
  · exact fun hn completions hperm => replies_in_order_of_le hn hperm

end OpenSpy.GS
