import OpenSpy.Core.Address
import OpenSpy.Peerchat.Nick

/-!
# User summaries

A user summary travels between servers as `nick!username@address+id`. The decoder looks for the
first `!`, the first `@` and the first `+` of the whole text. `summary_round_trip_iff` says for
which nicks it gets the summary back.
-/

namespace OpenSpy.Peerchat

open Bytes MachineInt

/-- `UserSummary`. -/
structure UserSummary where
  id : Int
  nick : Bytes
  username : Bytes
  hostname : Bytes
  realname : Bytes
  address : IPv4
  gameid : Int
  profileid : Int
  userid : Int
  modeflags : Int
  operflags : Int
  deriving DecidableEq, Repr

namespace UserSummary

/-- `UserSummary::UserSummary()`. -/
def empty : UserSummary :=
  ⟨0, [], [], [], [], ⟨0, 0, 0, 0⟩, -1, 0, 0, 0, 0⟩

/-- `UserSummary::UserSummary(std::string)`. It leaves some integers unset: `unset` holds what
is in their memory. -/
def ofString (unset : UserSummary) (string : Bytes) : UserSummary :=
  let usernameMarker := findFirstOf string (char '!')
  let addressMarker := findFirstOf string (char '@')
  let idMarker := findFirstOf string (char '+')
  let address := addressOfString
    (substrSize string (addressMarker + 1) (idMarker - addressMarker - 1))
  { unset with
    id := if idMarker ≠ -1 then atoi (substrSize string (idMarker + 1) (-1)) else unset.id
    nick := substrSize string 0 usernameMarker
    username := substrSize string (usernameMarker + 1) (addressMarker - usernameMarker - 1)
    hostname := inetNtop address
    realname := []
    address := address }

/-- `UserSummary::ToString`. -/
def toString (summary : UserSummary) (includeId : Bool) : Bytes :=
  summary.nick ++ char '!' :: summary.username ++ char '@' :: inetNtop summary.address ++
    if includeId then char '+' :: printInt summary.id else []

/-- The identity of a user. -/
def SameIdentity (summary other : UserSummary) : Prop :=
  summary.nick = other.nick ∧ summary.username = other.username ∧
    summary.address = other.address ∧ summary.id = other.id

instance (summary other : UserSummary) : Decidable (SameIdentity summary other) :=
  inferInstanceAs (Decidable (_ ∧ _))

/-- The encoding with the id. -/
theorem to_string_eq (s : UserSummary) :
    s.toString true = s.nick ++ char '!' :: (s.username ++ char '@' ::
      (inetNtop s.address ++ char '+' :: printInt s.id)) := by
  simp [toString]

/-- The printed address has none of the three markers. -/
theorem marker_not_in_address (ip : IPv4) :
    char '!' ∉ inetNtop ip ∧ char '@' ∉ inetNtop ip ∧ char '+' ∉ inetNtop ip := by
  have hchars := inet_ntop_chars ip
  refine ⟨fun h => ?_, fun h => ?_, fun h => ?_⟩ <;> exact absurd (hchars _ h) (by decide)

/-- Text in front of which a marker stands twice is cut at the first. -/
theorem find_first_of_mem {text before more : Bytes} {c : UInt8} (h : c ∈ before)
    (htext : text = before ++ more) :
    findFirstOf text c = before.idxOf c ∧ before.idxOf c < before.length := by
  subst htext
  exact ⟨by simp [findFirstOf, h, List.idxOf_append_of_mem h], List.idxOf_lt_length_iff.mpr h⟩

/-- With an exclamation mark in the nick, a shorter nick is read. -/
theorem nick_exclamation {s unset : UserSummary} (h : char '!' ∈ s.nick) :
    (ofString unset (s.toString true)).nick ≠ s.nick := by
  obtain ⟨hfind, hlt⟩ := find_first_of_mem h (to_string_eq s)
  intro heq
  have hlen := congrArg List.length heq
  simp only [ofString, substrSize, hfind] at hlen
  rw [if_neg (by omega)] at hlen
  simp only [Int.toNat_zero, List.drop_zero, List.length_take, Int.toNat_natCast] at hlen
  omega

/-- Without one, the nick is read back. -/
theorem nick_read {s : UserSummary} (unset : UserSummary) (h : char '!' ∉ s.nick) :
    findFirstOf (s.toString true) (char '!') = s.nick.length ∧
      (ofString unset (s.toString true)).nick = s.nick := by
  have hfind : findFirstOf (s.toString true) (char '!') = s.nick.length := by
    rw [to_string_eq]
    exact find_first_of_append h
  refine ⟨hfind, ?_⟩
  simp only [ofString, hfind, substrSize]
  rw [if_neg (by omega), to_string_eq]
  simp

/-- With an at sign in the nick, a longer username is read. -/
theorem nick_at {s unset : UserSummary} (hexcl : char '!' ∉ s.nick) (h : char '@' ∈ s.nick) :
    (ofString unset (s.toString true)).username ≠ s.username := by
  obtain ⟨hfind, hlt⟩ := find_first_of_mem h (to_string_eq s)
  obtain ⟨hexcl', -⟩ := nick_read unset hexcl
  intro heq
  have hlen := congrArg List.length heq
  simp only [ofString, substrSize, hfind, hexcl'] at hlen
  rw [if_pos (by omega), to_string_eq] at hlen
  have hpos : ((s.nick.length : Int) + 1).toNat = s.nick.length + 1 := by omega
  simp only [hpos, List.length_drop, List.length_append, List.length_cons] at hlen
  omega

/-- Without both, the username is read back. -/
theorem username_read {s : UserSummary} (unset : UserSummary) (hexcl : char '!' ∉ s.nick)
    (h : char '@' ∉ s.nick) (husername : char '@' ∉ s.username) :
    findFirstOf (s.toString true) (char '@') = s.nick.length + 1 + s.username.length ∧
      (ofString unset (s.toString true)).username = s.username := by
  have hfind : findFirstOf (s.toString true) (char '@') =
      s.nick.length + 1 + s.username.length := by
    have hjoin : s.toString true = (s.nick ++ char '!' :: s.username) ++ char '@' ::
        (inetNtop s.address ++ char '+' :: printInt s.id) := by simp [to_string_eq]
    rw [hjoin, find_first_of_append]
    · simp only [List.length_append, List.length_cons]
      omega
    · have : char '@' ≠ char '!' := by decide
      simp [h, husername, this]
  obtain ⟨hexcl', -⟩ := nick_read unset hexcl
  refine ⟨hfind, ?_⟩
  simp only [ofString, substrSize, hfind, hexcl']
  have hcount : (s.nick.length + 1 + s.username.length - s.nick.length - 1 : Int) =
      s.username.length := by omega
  have hpos : ((s.nick.length : Int) + 1).toNat = s.nick.length + 1 := by omega
  rw [hcount, hpos, if_neg (by omega), to_string_eq]
  simp

/-- Without all three, address and id are read back. -/
theorem address_read {s : UserSummary} (unset : UserSummary) (hexcl : char '!' ∉ s.nick)
    (hat : char '@' ∉ s.nick) (hplus : char '+' ∉ s.nick) (husername : char '@' ∉ s.username)
    (husername' : char '+' ∉ s.username) (hlow : 0 ≤ s.id) (hhigh : s.id < 2 ^ 31) :
    (ofString unset (s.toString true)).address = s.address ∧
      (ofString unset (s.toString true)).id = s.id := by
  obtain ⟨hat', -⟩ := username_read unset hexcl hat husername
  have hjoin : s.toString true = (s.nick ++ char '!' :: s.username ++ char '@' ::
      inetNtop s.address) ++ char '+' :: printInt s.id := by simp [to_string_eq]
  have hplus' : findFirstOf (s.toString true) (char '+') =
      s.nick.length + 1 + s.username.length + 1 + (inetNtop s.address).length := by
    have hmarks : char '+' ≠ char '!' ∧ char '+' ≠ char '@' := by decide
    rw [hjoin, find_first_of_append]
    · simp only [List.length_append, List.length_cons]
      omega
    · simp [hplus, husername', hmarks, (marker_not_in_address s.address).2.2]
  simp only [ofString, substrSize, hat', hplus']
  constructor
  · have hpos : ((s.nick.length : Int) + 1 + s.username.length + 1).toNat =
        (s.nick ++ char '!' :: s.username ++ [char '@']).length := by
      simp only [List.length_append, List.length_cons, List.length_nil]
      omega
    have hcount : (s.nick.length + 1 + s.username.length + 1 + (inetNtop s.address).length -
        (s.nick.length + 1 + s.username.length) - 1 : Int) = (inetNtop s.address).length := by
      omega
    have hsplit : s.toString true = (s.nick ++ char '!' :: s.username ++ [char '@']) ++
        (inetNtop s.address ++ char '+' :: printInt s.id) := by simp [to_string_eq]
    have hcolon : char ':' ∉ inetNtop s.address :=
      fun h => absurd (inet_ntop_chars s.address _ h) (by decide)
    rw [hpos, hcount, if_neg (by omega), hsplit, List.drop_left, Int.toNat_natCast,
      List.take_left, address_of_string_eq hcolon, inet_addr_inet_ntop]
  · have hpos : ((s.nick.length : Int) + 1 + s.username.length + 1 +
        (inetNtop s.address).length + 1).toNat =
        (s.nick ++ char '!' :: s.username ++ char '@' :: inetNtop s.address ++
          [char '+']).length := by
      simp only [List.length_append, List.length_cons, List.length_nil]
      omega
    have hsplit : s.toString true = (s.nick ++ char '!' :: s.username ++ char '@' ::
        inetNtop s.address ++ [char '+']) ++ printInt s.id := by simp [to_string_eq]
    have hends : NoDigit [] := by simp [NoDigit]
    have hread := atoi_print_int (n := s.id) (by omega) hhigh hends
    rw [if_pos (by omega), hpos, if_pos (by omega), hsplit, List.drop_left]
    simpa using hread

/-- With a plus sign in the nick, the text behind the address is taken as part of it, and the
text behind the sign as the id. -/
theorem nick_plus {s : UserSummary} (unset : UserSummary) (hexcl : char '!' ∉ s.nick)
    (hat : char '@' ∉ s.nick) (hplus : char '+' ∈ s.nick) (husername : char '@' ∉ s.username) :
    (ofString unset (s.toString true)).address = inaddrNone ∧
      (ofString unset (s.toString true)).id =
        atoi (s.nick.drop (s.nick.idxOf (char '+') + 1)) := by
  obtain ⟨hat', -⟩ := username_read unset hexcl hat husername
  obtain ⟨hplus', hlt⟩ := find_first_of_mem hplus (to_string_eq s)
  simp only [ofString, substrSize, hat', hplus']
  constructor
  · have hpos : ((s.nick.length : Int) + 1 + s.username.length + 1).toNat =
        (s.nick ++ char '!' :: s.username ++ [char '@']).length := by
      simp only [List.length_append, List.length_cons, List.length_nil]
      omega
    have hsplit : s.toString true = (s.nick ++ char '!' :: s.username ++ [char '@']) ++
        (inetNtop s.address ++ char '+' :: printInt s.id) := by simp [to_string_eq]
    have hcolon : char ':' ∉ inetNtop s.address ++ char '+' :: printInt s.id := by
      rw [List.mem_append, List.mem_cons]
      rintro (h | h | h)
      · exact absurd (inet_ntop_chars s.address _ h) (by decide)
      · exact absurd h (by decide)
      · exact absurd (print_int_chars s.id _ h) (by decide)
    rw [hpos, if_pos (by omega), hsplit, List.drop_left, address_of_string_eq hcolon]
    exact inet_addr_garbage _ _ (by decide) ⟨by simp [NoDigit]; decide, by simp; decide⟩
      (by decide) (by decide)
  · have hpos : ((s.nick.idxOf (char '+') : Int) + 1).toNat = s.nick.idxOf (char '+') + 1 := by
      omega
    rw [if_pos (by omega), hpos, if_pos (by omega), to_string_eq,
      List.drop_append_of_le_length (by omega)]
    exact atoi_stop (by decide) _ _

/-- The decoder gets a summary back from its encoding exactly if the nick has no `!` and no `@`,
and no `+` either, unless the address is the one that stands for an invalid one and the number
behind the `+` happens to be the id. -/
theorem summary_round_trip_iff {s : UserSummary} (unset : UserSummary)
    (husername : char '!' ∉ s.username ∧ char '@' ∉ s.username ∧ char '+' ∉ s.username)
    (hlow : 0 ≤ s.id) (hhigh : s.id < 2 ^ 31) :
    SameIdentity (ofString unset (s.toString true)) s ↔
      char '!' ∉ s.nick ∧ char '@' ∉ s.nick ∧
        (char '+' ∈ s.nick → s.address = inaddrNone ∧
          atoi (s.nick.drop (s.nick.idxOf (char '+') + 1)) = s.id) := by
  by_cases hexcl : char '!' ∈ s.nick
  · exact iff_of_false (fun h => nick_exclamation hexcl h.1) fun h => h.1 hexcl
  by_cases hat : char '@' ∈ s.nick
  · exact iff_of_false (fun h => nick_at hexcl hat h.2.1) fun h => h.2.1 hat
  have hnick := (nick_read unset hexcl).2
  have hname := (username_read unset hexcl hat husername.2.1).2
  rw [SameIdentity, hnick, hname, and_iff_right rfl, and_iff_right rfl, and_iff_right hexcl,
    and_iff_right hat]
  by_cases hplus : char '+' ∈ s.nick
  · obtain ⟨haddress, hid⟩ := nick_plus unset hexcl hat hplus husername.2.1
    rw [haddress, hid, forall_prop_of_true hplus, eq_comm (a := inaddrNone)]
  · exact iff_of_true
      (address_read unset hexcl hat hplus husername.2.1 husername.2.2 hlow hhigh)
      fun h => absurd h hplus

/-- A plain summary survives. -/
theorem summary_round_trip_plain :
    SameIdentity (ofString empty (toString ⟨7, ascii "bob", ascii "u", [], [], ⟨10, 0, 0, 1⟩,
      0, 0, 0, 0, 0⟩ true)) ⟨7, ascii "bob", ascii "u", [], [], ⟨10, 0, 0, 1⟩, 0, 0, 0, 0, 0⟩ :=
  (summary_round_trip_iff (s := ⟨7, ascii "bob", ascii "u", [], [], ⟨10, 0, 0, 1⟩,
    0, 0, 0, 0, 0⟩) empty (by decide) (by decide) (by decide)).mpr (by decide)

/-- `handle_nick` accepts `a!b` for its valid first character, and the summary is read back
with the nick `a`. -/
theorem accepted_nick_forges_summary :
    ¬ ∀ (uniquenick param : Bytes) (s unset : UserSummary),
      handleNick uniquenick param = .ok s.nick →
      char '!' ∉ s.username ∧ char '@' ∉ s.username ∧ char '+' ∉ s.username →
      0 ≤ s.id → s.id < 2 ^ 31 → SameIdentity (ofString unset (s.toString true)) s := by
  intro h
  have hforged := h [] (ascii "a!b")
    ⟨7, ascii "a!b", ascii "u", [], [], ⟨10, 0, 0, 1⟩, 0, 0, 0, 0, 0⟩ empty (by decide)
    (by decide) (by decide) (by decide)
  exact absurd hforged.1 (by decide)

end UserSummary

end OpenSpy.Peerchat
