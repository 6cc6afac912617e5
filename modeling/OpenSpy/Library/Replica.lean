import Mathlib.Data.List.Basic
import Mathlib.Logic.Function.Basic

/-!
# Copies that are kept by messages

A copy of a table is kept up to date by messages, each of which sets one key. They are on their way
in the order in which they were sent. `settled` is what the copy is when all have arrived: it does
not change when a message arrives (`settled_deliver`), and where no message is on its way for a key
it is the copy (`settled_of_not_mem`).
-/

namespace Replica

variable {κ β : Type*} [DecidableEq κ]

/-- The copy when all messages have arrived. -/
def settled (copy : κ → β) (messages : List (κ × β)) : κ → β :=
  messages.foldl (fun copy message => Function.update copy message.1 message.2) copy

variable {copy : κ → β} {messages : List (κ × β)} {key other : κ} {value : β}

@[simp] theorem settled_nil : settled copy [] = copy :=
  rfl

/-- A message that arrives changes nothing. -/
theorem settled_deliver :
    settled (Function.update copy key value) messages = settled copy ((key, value) :: messages) :=
  rfl

/-- A message that is sent is the last one. -/
theorem settled_send :
    settled copy (messages ++ [(key, value)]) =
      Function.update (settled copy messages) key value := by
  simp [settled]

theorem settled_append (more : List (κ × β)) :
    settled copy (messages ++ more) = settled (settled copy messages) more := by
  simp [settled]

theorem settled_of_not_mem (h : key ∉ messages.map Prod.fst) :
    settled copy messages key = copy key := by
  induction messages generalizing copy with
  | nil => rfl
  | cons message messages ih =>
      rw [List.map_cons, List.mem_cons, not_or] at h
      exact (ih h.2).trans (Function.update_of_ne h.1 ..)

/-- Where a message is on its way, the copy has no say. -/
theorem settled_of_mem {copies : κ → β} (h : key ∈ messages.map Prod.fst) :
    settled copy messages key = settled copies messages key := by
  induction messages generalizing copy copies with
  | nil => cases h
  | cons message messages ih =>
      rw [List.map_cons, List.mem_cons] at h
      by_cases hrest : key ∈ messages.map Prod.fst
      · exact ih hrest
      · have hkey : key = message.1 := h.resolve_right hrest
        show settled (Function.update copy message.1 message.2) messages key =
          settled (Function.update copies message.1 message.2) messages key
        rw [settled_of_not_mem hrest, settled_of_not_mem hrest, hkey, Function.update_self,
          Function.update_self]

/-- A key that is set in the copy by hand. -/
theorem settled_update_of_ne (h : other ≠ key) :
    settled (Function.update copy key value) messages other = settled copy messages other := by
  by_cases hmem : other ∈ messages.map Prod.fst
  · exact settled_of_mem hmem
  · rw [settled_of_not_mem hmem, settled_of_not_mem hmem, Function.update_of_ne h]

/-- A key that is set by hand, with a message that follows. -/
theorem settled_update_send {sent : β} :
    settled (Function.update copy key value) (messages ++ [(key, sent)]) =
      Function.update (settled copy messages) key sent := by
  rw [settled_send]
  funext other
  by_cases h : other = key
  · rw [h, Function.update_self, Function.update_self]
  · rw [Function.update_of_ne h, Function.update_of_ne h, settled_update_of_ne h]

end Replica
