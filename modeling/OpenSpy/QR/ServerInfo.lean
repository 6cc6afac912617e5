import OpenSpy.Library.Decimal
import OpenSpy.Library.RowTable
import OpenSpy.QR.Store

/-!
# What a heartbeat says of a server

`MM::ServerInfo` and the two functions of `shared.cpp` that tell the columns of its tables from its
other keys. A table is a map from names to the values of the rows.
-/

namespace OpenSpy.QR

open Bytes

/-- `MM::ServerInfo`. The handlers leave the game, the group and the id unset. -/
structure ServerInfo where
  address : Address
  keys : List (Bytes × Bytes)
  playerKeys : MultiMap Bytes Bytes
  teamKeys : MultiMap Bytes Bytes
  deriving DecidableEq

/-- A server of which nothing is said yet. -/
def ServerInfo.ofAddress (address : Address) : ServerInfo :=
  ⟨address, [], [], []⟩

/-- `MMPushRequest`, for a heartbeat. -/
structure PushRequest where
  fromAddress : Address
  v2InstanceKey : Nat
  server : ServerInfo
  version : Nat
  deriving DecidableEq

/-- `isTeamString`. -/
def isTeamString (string : Bytes) : Bool :=
  let string := cString string
  let len := string.length
  if len < 2 then false
  else string[len - 2]? = some (char '_') ∧ string[len - 1]? = some (char 't')

/-- `find_last_of`, for one character. -/
def findLastOf (ch : UInt8) : Bytes → Option Nat
  | [] => none
  | b :: rest =>
      match findLastOf ch rest with
      | some position => some (position + 1)
      | none => if b = ch then some 0 else none

/-- `isPlayerString`: the name of the variable and the number of the player. -/
def isPlayerString (key : Bytes) : Option (Bytes × Int) :=
  match findLastOf (char '_') key with
  | none => none
  | some lastUnderscore =>
      -- `last_underscore-1 >= key.length()` of a `size_t`
      if lastUnderscore = 0 then none
      else
        let numericPortion := key.drop (lastUnderscore + 1)
        if numericPortion.all isDigit then
          some (key.take lastUnderscore, atoi numericPortion)
        else none

/-- The texts that end in `_t`. -/
theorem is_team_string_iff {string : Bytes} (h : 0 ∉ string) :
    isTeamString string = true ↔ [char '_', char 't'] <:+ string := by
  rw [isTeamString, c_string_eq_self h]
  constructor
  · intro hteam
    by_cases hlen : string.length < 2
    · simp [hlen] at hteam
    · simp only [hlen, if_false, decide_eq_true_eq] at hteam
      obtain ⟨hunderscore, ht⟩ := hteam
      refine ⟨string.take (string.length - 2), ?_⟩
      conv_rhs => rw [← List.take_append_drop (string.length - 2) string]
      congr 1
      rw [List.drop_eq_getElem_cons (by omega), List.drop_eq_getElem_cons (by omega)]
      rw [List.getElem?_eq_getElem (by omega), Option.some.injEq] at hunderscore ht
      have hnext : string.length - 2 + 1 = string.length - 1 := by omega
      simp only [hnext, hunderscore, ht]
      rw [List.drop_eq_nil_of_le (by omega)]
  · rintro ⟨before, rfl⟩
    simp

theorem find_last_of_eq_none {ch : UInt8} {s : Bytes} : findLastOf ch s = none ↔ ch ∉ s := by
  induction s with
  | nil => simp [findLastOf]
  | cons b rest ih =>
      rw [findLastOf, List.mem_cons, not_or, ← ih]
      cases findLastOf ch rest with
      | none => simp [eq_comm]
      | some position => simp

/-- The last occurrence is the one that none follows. -/
theorem find_last_of_append {ch : UInt8} {after : Bytes} (h : ch ∉ after) (before : Bytes) :
    findLastOf ch (before ++ ch :: after) = some before.length := by
  induction before with
  | nil => simp [findLastOf, find_last_of_eq_none.mpr h]
  | cons b before ih => simp [findLastOf, ih]

theorem find_last_of_split {ch : UInt8} {s : Bytes} {position : Nat}
    (h : findLastOf ch s = some position) :
    s = s.take position ++ ch :: s.drop (position + 1) ∧ position < s.length := by
  induction s generalizing position with
  | nil => simp [findLastOf] at h
  | cons b rest ih =>
      rw [findLastOf] at h
      cases hrest : findLastOf ch rest with
      | some last =>
          simp only [hrest, Option.some.injEq] at h
          subst h
          obtain ⟨hsplit, hlt⟩ := ih hrest
          exact ⟨congrArg (b :: ·) hsplit, Nat.succ_lt_succ hlt⟩
      | none =>
          by_cases hb : b = ch
          · simp only [hrest, hb, if_true, Option.some.injEq] at h
            subst h
            simp [hb]
          · simp [hrest, hb] at h

/-- The name and the digits of a key that has digits, or nothing, behind its last underscore, and
something in front of it. -/
def playerKey (key : Bytes) : Option (Bytes × Bytes) :=
  match findLastOf (char '_') key with
  | none => none
  | some position =>
      let digits := key.drop (position + 1)
      if position ≠ 0 ∧ digits.all isDigit then some (key.take position, digits) else none

theorem player_key_iff {key name digits : Bytes} :
    playerKey key = some (name, digits) ↔
      key = name ++ char '_' :: digits ∧ name ≠ [] ∧ ∀ b ∈ digits, isDigit b := by
  constructor
  · intro h
    unfold playerKey at h
    cases hlast : findLastOf (char '_') key with
    | none => simp [hlast] at h
    | some position =>
        obtain ⟨hsplit, hlt⟩ := find_last_of_split hlast
        by_cases hplayer : position ≠ 0 ∧ (key.drop (position + 1)).all isDigit = true
        · simp only [hlast, if_pos hplayer, Option.some.injEq, Prod.mk.injEq] at h
          obtain ⟨rfl, rfl⟩ := h
          have hname : (key.take position).length = position := List.length_take_of_le hlt.le
          refine ⟨hsplit, fun hnil => hplayer.1 ?_, List.all_eq_true.mp hplayer.2⟩
          rw [← hname, hnil, List.length_nil]
        · simp only [hlast, if_neg hplayer, reduceCtorEq] at h
  · rintro ⟨rfl, hname, hdigits⟩
    have hnot : char '_' ∉ digits := fun hmem => absurd (hdigits _ hmem) (by decide)
    have hpos : name.length ≠ 0 := fun h => hname (List.length_eq_zero_iff.mp h)
    have hall : digits.all isDigit = true := List.all_eq_true.mpr hdigits
    have hdrop : (name ++ char '_' :: digits).drop (name.length + 1) = digits := by
      rw [← List.drop_drop, List.drop_left' rfl]
      rfl
    simp only [playerKey, find_last_of_append hnot, hdrop, if_pos (And.intro hpos hall),
      List.take_left' rfl]

/-- `isPlayerString` gives the number of the digits. -/
theorem is_player_string_eq (key : Bytes) :
    isPlayerString key = (playerKey key).map fun (name, digits) => (name, atoi digits) := by
  unfold isPlayerString playerKey
  cases findLastOf (char '_') key with
  | none => rfl
  | some position =>
      by_cases hzero : position = 0
      · simp [hzero]
      · by_cases hdigits : (key.drop (position + 1)).all isDigit = true
        · simp [hzero, hdigits]
        · simp [hzero, hdigits]

end OpenSpy.QR
