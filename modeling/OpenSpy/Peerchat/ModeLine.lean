import OpenSpy.Peerchat.ModeText

/-!
# The MODE line and the change that was made

A client that reads the line of a MODE message takes every announcement for a change. Below,
`Describes` says that the announcements are the differences between the channel before and after,
each one once; `mode_line_describes_iff` says for which requests this is so.
-/

namespace OpenSpy.Peerchat

open Bytes UserChannelFlag ChannelStore ModeOrder

/-- The flags that are new, or gone. -/
def changedFlags (unset : Bool) (before after : BitVec 32) : BitVec 32 :=
  if unset then before &&& ~~~after else after &&& ~~~before

/-- A limit as it is announced. -/
def limitText (limit : BitVec 32) : Bytes :=
  if limit = 0 then [] else printInt limit.toInt

/-- The password of an announcement. -/
def Announcement.password? : Announcement → Option Bytes
  | .password text => some text
  | _ => none

/-- The limit of an announcement. -/
def Announcement.limit? : Announcement → Option Bytes
  | .limit text => some text
  | _ => none

/-- The announcements of channel flags. -/
def Announcement.flag? : Announcement → Option (Bool × UInt8)
  | .flag unset letter => some (unset, letter)
  | _ => none

section Describes

variable (userId : Bytes → Int)

/-- The announcement gives a letter to a user, or takes it. -/
def Announcement.names (unset : Bool) (letter : UInt8) (user : Int) : Announcement → Bool
  | .user sign read name => sign == unset && read == letter && userId name == user
  | _ => false

/-- The line announces the differences between the channel before and after, each one once. `v`
stands for the voice flag and `o` for the other ranks. -/
structure Describes (before after : ModeView) (line : List Announcement) : Prop where
  flags : ∀ entry ∈ channelModeFlagMap, ∀ unset,
    (line.filterMap Announcement.flag?).count (unset, entry.2) =
      if hasFlag (changedFlags unset before.modeflags after.modeflags) entry.1 then 1 else 0
  letters : ∀ read ∈ line.filterMap Announcement.flag?, ∃ entry ∈ channelModeFlagMap,
    entry.2 = read.2
  all_flags : KnownFlags (before.modeflags ^^^ after.modeflags)
  password : line.filterMap Announcement.password? =
    if before.password = after.password then [] else [after.password]
  limit : line.filterMap Announcement.limit? =
    if before.limit = after.limit then [] else [limitText after.limit]
  users : ∀ user unset, ∀ mark ∈ [(char 'v', voice), (char 'o', rankFlags)],
    line.countP (Announcement.names userId unset mark.1 user) =
      if hasFlag (changedFlags unset (before.userFlags user) (after.userFlags user)) mark.2 then 1
      else 0
  all_users : ∀ user, (before.userFlags user ^^^ after.userFlags user) &&& ~~~userFlags = 0

/-- Every user is named once for a mask, and something of the mask changes for him. -/
def OnceEach (flags : Int → BitVec 32) (unset : Bool) (mask : BitVec 32) (usermodes : FlagMap) :
    Prop :=
  (usermodes.Pairwise fun item other =>
      userId item.1 = userId other.1 → hasFlag item.2 mask → ¬ hasFlag other.2 mask) ∧
    ∀ item ∈ usermodes, hasFlag item.2 mask →
      hasFlag (changedFlags unset (flags (userId item.1))
        (changeFlags unset (flags (userId item.1)) item.2)) mask

/-- The request changes what its line announces: the parts of the line do not get into each
other's way, no new flag of the channel is taken at once, the password and the limit are not the
old ones, a password is not cut short, and every user gets or loses something with each of his
letters. -/
structure ChangesAll (before : ModeView) (modify : ChannelModify) : Prop where
  laid_out : LaidOut modify before.modeflags
  flags : ∀ entry ∈ channelModeFlagMap, hasFlag modify.setModeFlags entry.1 →
    hasFlag modify.unsetModeFlags entry.1 → hasFlag before.modeflags entry.1
  password_given : modify.SetsPassword → 0 ∉ modify.password ∧ before.password ≠ modify.password
  password_taken : modify.UnsetsPassword → before.password ≠ []
  limit_given : modify.SetsLimit → before.limit ≠ modify.limit
  limit_taken : modify.UnsetsLimit → before.limit ≠ 0
  users : ∀ mask ∈ [voice, rankFlags],
    OnceEach userId before.userFlags false mask modify.setUsermodes ∧
      OnceEach userId before.userFlags true mask modify.unsetUsermodes

end Describes

/-- A part of a list without repetitions has each of its members once or not at all. -/
theorem count_filter_map {α β : Type*} [DecidableEq β] (f : α → β) (p : α → Bool) {l : List α}
    (hnodup : (l.map f).Nodup) {a : α} (ha : a ∈ l) :
    ((l.filter p).map f).count (f a) = if p a then 1 else 0 := by
  have hpart : ((l.filter p).map f).Nodup :=
    hnodup.sublist (List.filter_sublist.map f)
  rw [hpart.count]
  refine if_congr ?_ rfl rfl
  constructor
  · intro hmem
    obtain ⟨b, hb, heq⟩ := List.mem_map.mp hmem
    have hsame : b = a :=
      List.inj_on_of_nodup_map hnodup (List.mem_of_mem_filter hb) ha heq
    exact hsame ▸ (List.mem_filter.mp hb).2
  · exact fun hp => List.mem_map_of_mem (List.mem_filter.mpr ⟨ha, hp⟩)

/-- The letter of a mode is announced if its flag is in both masks. -/
theorem count_mode_letters {entry : BitVec 32 × UInt8} (hentry : entry ∈ channelModeFlagMap)
    (mask flags : BitVec 32) :
    (modeLetters mask flags).count entry.2 =
      if hasFlag mask entry.1 && hasFlag flags entry.1 then 1 else 0 :=
  count_filter_map (·.2) _ (by decide) hentry

section Flags

variable {modify : ChannelModify} {flags : BitVec 32}

/-- The flags of the map are bits. -/
theorem mode_flag_bit {entry : BitVec 32 × UInt8} (hentry : entry ∈ channelModeFlagMap) :
    ∃ bit < 32, entry.1 = BitVec.twoPow 32 bit := by
  have hall : channelModeFlagMap.all (fun entry =>
      (List.range 32).any fun bit => entry.1 == BitVec.twoPow 32 bit) = true := by decide
  simpa using List.all_eq_true.mp hall entry hentry

/-- A flag behind the loop over the map. -/
theorem has_flag_fold (unset : Bool) (mask flags : BitVec 32) {entry : BitVec 32 × UInt8}
    (hentry : entry ∈ channelModeFlagMap) :
    hasFlag (channelModeFlagMap.foldl (fun flags entry =>
        if hasFlag mask entry.1 then changeFlags unset flags entry.1 else flags) flags) entry.1 =
      if hasFlag mask entry.1 then !unset else hasFlag flags entry.1 := by
  obtain ⟨bit, hlt, hbit⟩ := mode_flag_bit hentry
  have hsame : ∃ other ∈ channelModeFlagMap, other.1.getLsbD bit = true :=
    ⟨entry, hentry, by rw [hbit, BitVec.getLsbD_twoPow]; simp [hlt]⟩
  rw [hbit, has_flag_two_pow _ _ hlt, has_flag_two_pow _ _ hlt, has_flag_two_pow _ _ hlt,
    known_flags_fold unset mask flags channelModeFlagMap (fun entry => mode_flag_bit) hlt]
  refine if_congr ?_ rfl rfl
  rw [and_iff_left hsame]

/-- The flags of the channel behind both loops. -/
theorem has_flag_update {entry : BitVec 32 × UInt8} (hentry : entry ∈ channelModeFlagMap) :
    hasFlag (addedFlags modify flags) entry.1 =
        (hasFlag modify.setModeFlags entry.1 || hasFlag flags entry.1) ∧
      hasFlag (updateBasicFlags modify flags) entry.1 =
        (!hasFlag modify.unsetModeFlags entry.1 &&
          (hasFlag modify.setModeFlags entry.1 || hasFlag flags entry.1)) := by
  have hadded : hasFlag (addedFlags modify flags) entry.1 =
      (hasFlag modify.setModeFlags entry.1 || hasFlag flags entry.1) := by
    rw [show addedFlags modify flags = channelModeFlagMap.foldl (fun flags entry =>
      if hasFlag modify.setModeFlags entry.1 then changeFlags false flags entry.1 else flags)
        flags from rfl, has_flag_fold false _ _ hentry]
    cases hasFlag modify.setModeFlags entry.1 <;> rfl
  refine ⟨hadded, ?_⟩
  rw [show updateBasicFlags modify flags = channelModeFlagMap.foldl (fun flags entry =>
      if hasFlag modify.unsetModeFlags entry.1 then changeFlags true flags entry.1 else flags)
        (addedFlags modify flags) from rfl, has_flag_fold true _ _ hentry, hadded]
  cases hasFlag modify.unsetModeFlags entry.1 <;> rfl

/-- Only flags of the map change. -/
theorem known_changes : KnownFlags (flags ^^^ updateBasicFlags modify flags) := by
  intro bit hbit
  by_contra hnone
  have hlt : bit < 32 := by
    by_contra hge
    rw [BitVec.getLsbD_of_ge _ _ (Nat.le_of_not_lt hge)] at hbit
    cases hbit
  have hkept : ∀ unset mask start, (channelModeFlagMap.foldl (fun flags entry =>
      if hasFlag mask entry.1 then changeFlags unset flags entry.1 else flags) start).getLsbD bit =
        BitVec.getLsbD start bit := by
    intro unset mask start
    rw [known_flags_fold unset mask start channelModeFlagMap (fun entry => mode_flag_bit) hlt,
      if_neg fun h => hnone h.2]
  have hsame : (updateBasicFlags modify flags).getLsbD bit = flags.getLsbD bit :=
    (hkept true modify.unsetModeFlags _).trans (hkept false modify.setModeFlags flags)
  rw [BitVec.getLsbD_xor, hsame] at hbit
  simp at hbit

/-- The complement of flags lacks what they have. -/
theorem has_flag_not {entry : BitVec 32 × UInt8} (hentry : entry ∈ channelModeFlagMap)
    (flags : BitVec 32) : hasFlag (~~~flags) entry.1 = !hasFlag flags entry.1 := by
  obtain ⟨bit, hlt, hbit⟩ := mode_flag_bit hentry
  rw [hbit, has_flag_two_pow _ _ hlt, has_flag_two_pow _ _ hlt, BitVec.getLsbD_not]
  simp [hlt]

theorem has_flag_changed {entry : BitVec 32 × UInt8} (hentry : entry ∈ channelModeFlagMap)
    (unset : Bool) (before after : BitVec 32) :
    hasFlag (changedFlags unset before after) entry.1 =
      if unset then hasFlag before entry.1 && !hasFlag after entry.1
      else hasFlag after entry.1 && !hasFlag before entry.1 := by
  obtain ⟨bit, hlt, hbit⟩ := mode_flag_bit hentry
  rw [← has_flag_not hentry, ← has_flag_not hentry, hbit]
  cases unset <;>
    simp only [changedFlags, has_flag_two_pow _ _ hlt, Bool.false_eq_true, if_true, if_false,
      BitVec.getLsbD_and]

/-- The letters of the channel are announced right if no new flag is taken at once. -/
theorem letters_right_iff :
    (∀ entry ∈ channelModeFlagMap,
      (setLetters modify flags).count entry.2 =
          (if hasFlag (changedFlags false flags (updateBasicFlags modify flags)) entry.1 then 1
          else 0) ∧
        (unsetLetters modify flags).count entry.2 =
          if hasFlag (changedFlags true flags (updateBasicFlags modify flags)) entry.1 then 1
          else 0) ↔
      ∀ entry ∈ channelModeFlagMap, hasFlag modify.setModeFlags entry.1 →
        hasFlag modify.unsetModeFlags entry.1 → hasFlag flags entry.1 := by
  refine forall_congr' fun entry => forall_congr' fun hentry => ?_
  obtain ⟨hadded, hupdate⟩ := @has_flag_update modify flags entry hentry
  rw [setLetters, unsetLetters, count_mode_letters hentry, count_mode_letters hentry,
    has_flag_changed hentry, has_flag_changed hentry, has_flag_not hentry, hadded, hupdate]
  cases hasFlag modify.setModeFlags entry.1 <;> cases hasFlag modify.unsetModeFlags entry.1 <;>
    cases hasFlag flags entry.1 <;> simp

end Flags

section Users

variable {env : Environment} {store : ChannelStore} {mask : BitVec 32} {user : Int}
  {usermodes : FlagMap}

/-- What a change changes. -/
theorem changed_flags_eq (unset : Bool) (flags change : BitVec 32) :
    changedFlags unset flags (changeFlags unset flags change) =
      change &&& if unset then flags else ~~~flags := by
  refine BitVec.eq_of_getLsbD_eq fun bit hlt => ?_
  cases unset <;> simp [changedFlags, changeFlags, hlt] <;> cases flags[bit] <;>
    cases change[bit] <;> rfl

/-- For a mask it depends on the change under the mask. -/
theorem has_flag_and (change flags mask : BitVec 32) :
    hasFlag (change &&& flags) mask = (change &&& mask &&& flags != 0) := by
  rw [hasFlag, BitVec.and_assoc, BitVec.and_comm flags, ← BitVec.and_assoc]

/-- A user whom no flag of the mask names gets none. -/
theorem named_mask_none
    (h : ∀ item ∈ usermodes, idOf env store item.1 = user → hasFlag item.2 mask = false) :
    namedFlags env store user usermodes &&& mask = 0 := by
  induction usermodes with
  | nil => simp [namedFlags]
  | cons item usermodes ih =>
      rw [named_flags_cons, BitVec.and_comm, BitVec.and_or_distrib_left, BitVec.and_comm mask,
        BitVec.and_comm mask, ih fun other hother => h other (by simp [hother])]
      split
      · rename_i huser
        have hnot := h item (by simp) huser
        rw [hasFlag, bne_eq_false_iff_eq] at hnot
        rw [hnot]
        rfl
      · simp

/-- A user whom one item names gets the flags of this item. -/
theorem named_mask_one {item : Bytes × BitVec 32} (hitem : item ∈ usermodes)
    (huser : idOf env store item.1 = user) (hmask : hasFlag item.2 mask)
    (honce : usermodes.Pairwise fun item other =>
      idOf env store item.1 = idOf env store other.1 → hasFlag item.2 mask →
        ¬ hasFlag other.2 mask) :
    namedFlags env store user usermodes &&& mask = item.2 &&& mask := by
  induction usermodes with
  | nil => cases hitem
  | cons first usermodes ih =>
      obtain ⟨hfirst, hrest⟩ := List.pairwise_cons.mp honce
      rw [named_flags_cons, BitVec.and_comm, BitVec.and_or_distrib_left, BitVec.and_comm mask,
        BitVec.and_comm mask]
      rcases List.mem_cons.mp hitem with rfl | hlater
      · have hnone : namedFlags env store user usermodes &&& mask = 0 := by
          refine named_mask_none fun other hother hsame => ?_
          rw [← Bool.not_eq_true]
          exact hfirst other hother (huser.trans hsame.symm) hmask
        rw [if_pos huser, hnone]
        exact BitVec.or_zero
      · have hnot : (if idOf env store first.1 = user then first.2 else 0) &&& mask = 0 := by
          split
          · rename_i hsame
            by_contra hset
            refine hfirst item hlater (hsame.trans huser.symm) ?_ hmask
            rw [hasFlag, bne_iff_ne]
            exact hset
          · simp
        rw [ih hlater hrest]
        show ((if idOf env store first.1 = user then first.2 else 0) &&& mask) ||| _ = _
        rw [hnot]
        simp

/-- The item names the user with the mask. -/
def marks (userId : Bytes → Int) (mask : BitVec 32) (user : Int) (item : Bytes × BitVec 32) :
    Bool :=
  hasFlag item.2 mask && userId item.1 == user

/-- If every user is marked at most once, each is marked once or not at all. -/
theorem count_marks {userId : Bytes → Int}
    (honce : usermodes.Pairwise fun item other =>
      userId item.1 = userId other.1 → hasFlag item.2 mask → ¬ hasFlag other.2 mask) :
    usermodes.countP (marks userId mask user) =
      if ∃ item ∈ usermodes, marks userId mask user item then 1 else 0 := by
  induction usermodes with
  | nil => simp
  | cons item usermodes ih =>
      obtain ⟨hitem, hrest⟩ := List.pairwise_cons.mp honce
      rw [List.countP_cons, ih hrest]
      by_cases hmark : marks userId mask user item
      · have hnone : ¬ ∃ other ∈ usermodes, marks userId mask user other := by
          rintro ⟨other, hother, hmarked⟩
          simp only [marks, Bool.and_eq_true, beq_iff_eq] at hmark hmarked
          exact hitem other hother (hmark.2.trans hmarked.2.symm) hmark.1 hmarked.1
        simp [hmark, hnone]
      · simp only [hmark, if_false, Nat.add_zero, List.mem_cons, exists_eq_or_imp, false_or,
          Bool.false_eq_true]

/-- The marks of a list that has each at most once. -/
theorem pairwise_of_count {userId : Bytes → Int}
    (hcount : ∀ user, usermodes.countP (marks userId mask user) ≤ 1) :
    usermodes.Pairwise fun item other =>
      userId item.1 = userId other.1 → hasFlag item.2 mask → ¬ hasFlag other.2 mask := by
  induction usermodes with
  | nil => exact .nil
  | cons item usermodes ih =>
      refine List.pairwise_cons.mpr ⟨fun other hother hsame hitem hmarked => ?_,
        ih fun user => ?_⟩
      · have hboth := hcount (userId item.1)
        have hfirst : marks userId mask (userId item.1) item := by simp [marks, hitem]
        have hlater : 0 < usermodes.countP (marks userId mask (userId item.1)) :=
          List.countP_pos_iff.mpr ⟨other, hother, by simp [marks, hmarked, hsame]⟩
        rw [List.countP_cons_of_pos hfirst] at hboth
        omega
      · exact ((List.sublist_cons_self item usermodes).countP_le).trans (hcount user)

/-- The marks of the users are the changes of their flags if every user is named once and
something changes for him. -/
theorem once_each_iff (flags : Int → BitVec 32) (unset : Bool) (mask : BitVec 32)
    (usermodes : FlagMap) :
    (∀ user, usermodes.countP (marks (idOf env store) mask user) =
        if hasFlag (changedFlags unset (flags user)
          (changeFlags unset (flags user) (namedFlags env store user usermodes))) mask then 1
        else 0) ↔
      OnceEach (idOf env store) flags unset mask usermodes := by
  have hchanged : ∀ user item, namedFlags env store user usermodes &&& mask = item &&& mask →
      hasFlag (changedFlags unset (flags user)
        (changeFlags unset (flags user) (namedFlags env store user usermodes))) mask =
          hasFlag (changedFlags unset (flags user) (changeFlags unset (flags user) item)) mask := by
    intro user item hsame
    rw [changed_flags_eq, changed_flags_eq, has_flag_and, has_flag_and, hsame]
  constructor
  · intro hcount
    have honce := pairwise_of_count fun user => by
      rw [hcount user]
      split <;> omega
    refine ⟨honce, fun item hitem hmask => ?_⟩
    have hsome : ∃ other ∈ usermodes, marks (idOf env store) mask (idOf env store item.1) other :=
      ⟨item, hitem, by simp [marks, hmask]⟩
    have hone := hcount (idOf env store item.1)
    rw [count_marks honce, if_pos hsome, hchanged _ _ (named_mask_one hitem rfl hmask honce)] at hone
    by_contra hnot
    rw [if_neg hnot] at hone
    exact absurd hone (by decide)
  · rintro ⟨honce, hchange⟩ user
    rw [count_marks honce]
    refine if_congr ?_ rfl rfl
    by_cases hsome : ∃ item ∈ usermodes, marks (idOf env store) mask user item
    · obtain ⟨item, hitem, hmark⟩ := hsome
      refine iff_of_true ⟨item, hitem, hmark⟩ ?_
      simp only [marks, Bool.and_eq_true, beq_iff_eq] at hmark
      obtain ⟨hmask, rfl⟩ := hmark
      rw [hchanged _ _ (named_mask_one hitem rfl hmask honce)]
      exact hchange item hitem hmask
    · refine iff_of_false hsome ?_
      have hnone : namedFlags env store user usermodes &&& mask = 0#32 &&& mask := by
        rw [BitVec.zero_and]
        refine named_mask_none fun item hitem huser => ?_
        by_contra hmask
        exact hsome ⟨item, hitem, by simp [marks, huser, hmask]⟩
      rw [hchanged _ _ hnone, changed_flags_eq, BitVec.zero_and]
      simp [hasFlag]

/-- Giving flags takes none, and taking flags gives none. -/
theorem changed_flags_other (unset : Bool) (flags change : BitVec 32) :
    changedFlags (!unset) flags (changeFlags unset flags change) = 0 := by
  refine BitVec.eq_of_getLsbD_eq fun bit hlt => ?_
  cases unset <;> simp [changedFlags, changeFlags, hlt] <;> cases flags[bit] <;> simp

/-- The same for a request that only gives flags or only takes some. -/
theorem users_right_iff {setUsermodes unsetUsermodes : FlagMap}
    (hone : setUsermodes = [] ∨ unsetUsermodes = []) (flags : Int → BitVec 32) (mask : BitVec 32) :
    (∀ user unset, (if unset then unsetUsermodes else setUsermodes).countP
        (marks (idOf env store) mask user) =
      if hasFlag (changedFlags unset (flags user)
        (changeFlags true (changeFlags false (flags user)
          (namedFlags env store user setUsermodes)) (namedFlags env store user unsetUsermodes)))
        mask then 1 else 0) ↔
      OnceEach (idOf env store) flags false mask setUsermodes ∧
        OnceEach (idOf env store) flags true mask unsetUsermodes := by
  have hnobody : ∀ user, namedFlags env store user [] = 0 := fun _ => rfl
  have hnothing : hasFlag 0 mask = false := by simp [hasFlag]
  rw [← once_each_iff, ← once_each_iff, ← forall_and]
  refine forall_congr' fun user => ?_
  rw [Bool.forall_bool]
  simp only [if_true, Bool.false_eq_true, if_false]
  rcases hone with hempty | hempty
  · have htrue := changed_flags_other true (flags user) (namedFlags env store user unsetUsermodes)
    have hfalse := changed_flags_other false (flags user) 0
    simp only [Bool.not_true, Bool.not_false, change_flags_zero] at htrue hfalse
    subst hempty
    refine and_congr (iff_of_true ?_ ?_) ?_
    · rw [hnobody, change_flags_zero, htrue, hnothing]
      rfl
    · rw [hnobody, change_flags_zero, changedFlags, if_neg Bool.false_ne_true]
      simp [hasFlag]
    · rw [hnobody, change_flags_zero]
  · have hfalse := changed_flags_other false (flags user) (namedFlags env store user setUsermodes)
    simp only [Bool.not_false] at hfalse
    subst hempty
    refine and_congr ?_ (iff_of_true ?_ ?_)
    · rw [hnobody, change_flags_zero]
    · rw [hnobody, change_flags_zero, hfalse, hnothing]
      rfl
    · rw [hnobody, change_flags_zero, changedFlags, if_pos rfl]
      simp [hasFlag]

/-- `v` and `o` stand for voice and for the other ranks. -/
theorem has_flag_rank (flags : BitVec 32) :
    hasFlag flags rankFlags = true ↔
      hasFlag flags op = true ∨ hasFlag flags halfOp = true ∨ hasFlag flags owner = true := by
  have hor : ∀ mask other, hasFlag flags (mask ||| other) = true ↔
      hasFlag flags mask = true ∨ hasFlag flags other = true := by
    intro mask other
    simp only [hasFlag, bne_iff_ne, BitVec.and_or_distrib_left, ne_eq, ← not_and_or]
    exact not_congr BitVec.or_eq_zero_iff
  rw [rankFlags, hor, hor, or_assoc]

/-- The announcements for the users of a map are their marks. -/
theorem count_users (sign unset : Bool) (user : Int)
    (hknown : ∀ item ∈ usermodes, idOf env store item.1 ≠ 0) {mark : UInt8 × BitVec 32}
    (hmark : mark ∈ [(char 'v', voice), (char 'o', rankFlags)]) :
    (usersRead sign (usermodesItems env store usermodes)).countP
        (Announcement.names (idOf env store) unset mark.1 user) =
      if sign = unset then usermodes.countP (marks (idOf env store) mark.2 user) else 0 := by
  induction usermodes with
  | nil => simp [usermodesItems, usersRead]
  | cons item usermodes ih =>
      have hitems : usermodesItems env store (item :: usermodes) =
          usermodeItems item ++ usermodesItems env store usermodes := by
        rw [usermodesItems, List.filter_cons_of_pos (by simpa using hknown item (by simp))]
        rfl
      have hfirst : (usersRead sign (usermodeItems item)).countP
          (Announcement.names (idOf env store) unset mark.1 user) =
            if sign = unset then (if marks (idOf env store) mark.2 user item then 1 else 0)
            else 0 := by
        have hletters : char 'v' ≠ char 'o' := by decide
        have hpart : ∀ (p : Prop) [Decidable p] (letter : UInt8),
            (usersRead sign (if p then [(letter, item.1)] else [])).countP
                (Announcement.names (idOf env store) unset mark.1 user) =
              if p ∧ sign = unset ∧ letter = mark.1 ∧ idOf env store item.1 = user then 1
              else 0 := by
          intro p _ letter
          by_cases hp : p
          · simp [hp, usersRead, Announcement.names, List.countP_cons, and_assoc]
          · simp [hp, usersRead]
        have hsplit : usersRead sign (usermodeItems item) = _ ++ _ := List.map_append
        rw [hsplit, List.countP_append]
        refine (congrArg₂ (· + ·) (hpart _ _) (hpart _ _)).trans ?_
        simp only [List.mem_cons, List.not_mem_nil, or_false] at hmark
        rcases hmark with rfl | rfl
        · by_cases hsign : sign = unset <;> simp [hsign, marks, hletters.symm]
        · by_cases hsign : sign = unset <;> simp [hsign, marks, hletters, has_flag_rank]
      rw [hitems, usersRead, List.map_append, List.countP_append, ← usersRead, ← usersRead, hfirst,
        ih fun other hother => hknown other (by simp [hother]), List.countP_cons]
      by_cases hsign : sign = unset
      · simp only [hsign, if_true]
        omega
      · simp [hsign]

end Users

section Announced

variable {modify : ChannelModify} {flags : BitVec 32} {setItems unsetItems : List (UInt8 × Bytes)}

/-- What the line announces of the channel's flags. -/
theorem announced_flags :
    (announcements modify flags setItems unsetItems).filterMap Announcement.flag? =
      (setLetters modify flags).map (Prod.mk false) ++
        (unsetLetters modify flags).map (Prod.mk true) := by
  have hset : ∀ (p : Prop) [Decidable p] (announcement : Announcement),
      Announcement.flag? announcement = none →
        (if p then [announcement] else []).filterMap Announcement.flag? = [] := by
    intro p _ announcement hnone
    split <;> simp [hnone]
  have husers : ∀ unset items, (usersRead unset items).filterMap Announcement.flag? = [] := by
    intro unset items
    simp [usersRead, List.filterMap_map, Announcement.flag?, Function.comp_def]
  have hflags : ∀ unset letters, (flagsRead unset letters).filterMap Announcement.flag? =
      letters.map (Prod.mk unset) := by
    intro unset letters
    simp [flagsRead, List.filterMap_map, Announcement.flag?, Function.comp_def]
  simp only [announcements, List.filterMap_append, husers, hflags]
  rw [hset _ _ rfl, hset _ _ rfl, hset _ _ rfl, hset _ _ rfl]
  simp

/-- What it announces of the password. -/
theorem announced_password :
    (announcements modify flags setItems unsetItems).filterMap Announcement.password? =
      if modify.updatePassword then [modify.password] else [] := by
  simp only [announcements, List.filterMap_append, usersRead, flagsRead, List.filterMap_map]
  by_cases hupdate : modify.updatePassword <;> by_cases hempty : modify.password = [] <;>
    by_cases hlimit : modify.updateLimit <;> by_cases hzero : modify.limit = 0#32 <;>
      simp [Announcement.password?, Function.comp_def, ChannelModify.SetsPassword,
        ChannelModify.UnsetsPassword, ChannelModify.SetsLimit, ChannelModify.UnsetsLimit, hupdate,
        hempty, hlimit, hzero]

/-- What it announces of the limit. -/
theorem announced_limit :
    (announcements modify flags setItems unsetItems).filterMap Announcement.limit? =
      if modify.updateLimit then [limitText modify.limit] else [] := by
  simp only [announcements, List.filterMap_append, usersRead, flagsRead, List.filterMap_map]
  by_cases hupdate : modify.updatePassword <;> by_cases hempty : modify.password = [] <;>
    by_cases hlimit : modify.updateLimit <;> by_cases hzero : modify.limit = 0#32 <;>
      simp [Announcement.limit?, Function.comp_def, ChannelModify.SetsPassword,
        ChannelModify.UnsetsPassword, ChannelModify.SetsLimit, ChannelModify.UnsetsLimit, hupdate,
        hempty, hlimit, hzero, limitText]

/-- What it announces of the users. -/
theorem announced_users (userId : Bytes → Int) (unset : Bool) (letter : UInt8) (user : Int) :
    (announcements modify flags setItems unsetItems).countP
        (Announcement.names userId unset letter user) =
      (usersRead false setItems).countP (Announcement.names userId unset letter user) +
        (usersRead true unsetItems).countP (Announcement.names userId unset letter user) := by
  have hset : ∀ (p : Prop) [Decidable p] (announcement : Announcement),
      Announcement.names userId unset letter user announcement = false →
        (if p then [announcement] else []).countP
          (Announcement.names userId unset letter user) = 0 := by
    intro p _ announcement hnone
    split <;> simp [hnone]
  have hflags : ∀ sign letters, (flagsRead sign letters).countP
      (Announcement.names userId unset letter user) = 0 := by
    intro sign letters
    simp [flagsRead, List.countP_eq_zero, Announcement.names]
  simp only [announcements, List.countP_append, hflags]
  rw [hset _ _ rfl, hset _ _ rfl, hset _ _ rfl, hset _ _ rfl]
  omega

/-- The password is announced right. -/
theorem password_right_iff (before : Bytes) :
    (if modify.updatePassword then [modify.password] else []) =
        (if before = (if modify.updatePassword then cString modify.password else before) then []
        else [if modify.updatePassword then cString modify.password else before]) ↔
      (modify.SetsPassword → 0 ∉ modify.password ∧ before ≠ modify.password) ∧
        (modify.UnsetsPassword → before ≠ []) := by
  have hwhole : modify.password = cString modify.password ↔ 0 ∉ modify.password :=
    ⟨fun h => h ▸ zero_not_mem_c_string _, fun h => (c_string_eq_self h).symm⟩
  unfold ChannelModify.SetsPassword ChannelModify.UnsetsPassword
  cases modify.updatePassword with
  | false => simp
  | true =>
      simp only [if_true, true_and]
      by_cases hempty : modify.password = []
      · have hnone : cString [] = [] := rfl
        by_cases hbefore : before = [] <;> simp [hempty, hnone, hbefore]
      · simp only [hempty, not_false_eq_true, true_implies, false_implies, and_true, ne_eq]
        by_cases hnul : 0 ∈ modify.password
        · have hcut : modify.password ≠ cString modify.password := fun h => hwhole.mp h hnul
          by_cases hbefore : before = cString modify.password <;> simp [hnul, hbefore, hcut]
        · rw [← hwhole.mpr hnul]
          by_cases hbefore : before = modify.password <;> simp [hnul, hbefore]

/-- The limit is announced right. -/
theorem limit_right_iff (before : BitVec 32) :
    (if modify.updateLimit then [limitText modify.limit] else []) =
        (if before = (if modify.updateLimit then modify.limit else before) then []
        else [limitText (if modify.updateLimit then modify.limit else before)]) ↔
      (modify.SetsLimit → before ≠ modify.limit) ∧ (modify.UnsetsLimit → before ≠ 0) := by
  unfold ChannelModify.SetsLimit ChannelModify.UnsetsLimit
  cases modify.updateLimit with
  | false => simp
  | true =>
      simp only [if_true, true_and]
      by_cases hzero : modify.limit = 0#32 <;> by_cases hbefore : before = modify.limit <;>
        simp_all

end Announced

section Perform

variable {env : Environment} {store : ChannelStore} {modify : ChannelModify}

/-- The users of a request from the parser get and lose flags of MODE only. -/
theorem named_user_flags {usermodes : FlagMap}
    (h : ∀ item ∈ usermodes, item.2 &&& ~~~userFlags = 0) (user : Int) :
    namedFlags env store user usermodes &&& ~~~userFlags = 0 := by
  induction usermodes with
  | nil => simp [namedFlags]
  | cons item usermodes ih =>
      rw [named_flags_cons, BitVec.and_comm, BitVec.and_or_distrib_left,
        BitVec.and_comm (~~~userFlags), BitVec.and_comm (~~~userFlags),
        ih fun other hother => h other (by simp [hother])]
      split
      · rw [h item (by simp)]
        rfl
      · simp

/-- Flags outside a mask do not change when those of the mask are given and taken. -/
theorem change_within {mask given taken : BitVec 32} (hgiven : given &&& ~~~mask = 0)
    (htaken : taken &&& ~~~mask = 0) (flags : BitVec 32) :
    (flags ^^^ changeFlags true (changeFlags false flags given) taken) &&& ~~~mask = 0 := by
  refine BitVec.eq_of_getLsbD_eq fun bit hlt => ?_
  have hgivenBit := congrArg (·.getLsbD bit) hgiven
  have htakenBit := congrArg (·.getLsbD bit) htaken
  simp only [BitVec.getLsbD_and, BitVec.getLsbD_not, hlt, decide_true, Bool.true_and,
    BitVec.ofNat_eq_ofNat, BitVec.getLsbD_zero] at hgivenBit htakenBit
  simp only [changeFlags, if_true, Bool.false_eq_true, if_false, BitVec.getLsbD_and,
    BitVec.getLsbD_xor, BitVec.getLsbD_or, BitVec.getLsbD_not, hlt, decide_true, Bool.true_and,
    BitVec.ofNat_eq_ofNat, BitVec.getLsbD_zero]
  revert hgivenBit htakenBit
  cases mask.getLsbD bit <;> cases given.getLsbD bit <;> cases taken.getLsbD bit <;>
    cases flags.getLsbD bit <;> decide

/-- The announcements of a line that is laid out well describe the change if and only if the
request changes all that it announces. -/
theorem announcements_describe_iff {before after : ModeView} (hwords : FromWords modify)
    (hknown : ∀ item ∈ modify.setUsermodes ++ modify.unsetUsermodes, idOf env store item.1 ≠ 0)
    (hlaid : LaidOut modify before.modeflags)
    (hmodeflags : after.modeflags = updateBasicFlags modify before.modeflags)
    (hpassword : after.password =
      if modify.updatePassword then cString modify.password else before.password)
    (hlimit : after.limit = if modify.updateLimit then modify.limit else before.limit)
    (husers : ∀ user, after.userFlags user =
      changeFlags true (changeFlags false (before.userFlags user)
        (namedFlags env store user modify.setUsermodes))
        (namedFlags env store user modify.unsetUsermodes)) :
    Describes (idOf env store) before after
        (announcements modify before.modeflags (usermodesItems env store modify.setUsermodes)
          (usermodesItems env store modify.unsetUsermodes)) ↔
      ChangesAll (idOf env store) before modify := by
  have hone : modify.setUsermodes = [] ∨ modify.unsetUsermodes = [] := by
    by_cases hset : modify.setUsermodes = []
    · exact .inl hset
    · have htakes := hlaid.behind_params (.inl hset)
      simp only [TakesSomething, not_or, not_not] at htakes
      exact .inr htakes.2.2.2
  have hinjective : ∀ unset : Bool, Function.Injective (Prod.mk unset : UInt8 → Bool × UInt8) :=
    fun unset letter other h => (Prod.mk.inj h).2
  have hflags : ∀ entry : BitVec 32 × UInt8, ∀ unset,
      ((announcements modify before.modeflags (usermodesItems env store modify.setUsermodes)
        (usermodesItems env store modify.unsetUsermodes)).filterMap Announcement.flag?).count
          (unset, entry.2) =
        if unset then (unsetLetters modify before.modeflags).count entry.2
        else (setLetters modify before.modeflags).count entry.2 := by
    intro entry unset
    have hother : ∀ (sign : Bool) (letters : Bytes), sign ≠ unset →
        (letters.map (Prod.mk sign)).count (unset, entry.2) = 0 := by
      intro sign letters hne
      rw [List.count_eq_zero]
      intro hmem
      obtain ⟨letter, -, heq⟩ := List.mem_map.mp hmem
      exact hne (congrArg Prod.fst heq)
    rw [announced_flags, List.count_append]
    cases unset with
    | false =>
        rw [hother true _ (by decide), List.count_map_of_injective _ _ (hinjective false)]
        rfl
    | true =>
        rw [hother false _ (by decide), List.count_map_of_injective _ _ (hinjective true)]
        exact Nat.zero_add _
  have hcount : ∀ user unset, ∀ mark ∈ [(char 'v', voice), (char 'o', rankFlags)],
      (announcements modify before.modeflags (usermodesItems env store modify.setUsermodes)
        (usermodesItems env store modify.unsetUsermodes)).countP
          (Announcement.names (idOf env store) unset mark.1 user) =
        (if unset then modify.unsetUsermodes else modify.setUsermodes).countP
          (marks (idOf env store) mark.2 user) := by
    intro user unset mark hmark
    have hset : ∀ item ∈ modify.setUsermodes, idOf env store item.1 ≠ 0 :=
      fun item hitem => hknown item (by simp [hitem])
    have hunset : ∀ item ∈ modify.unsetUsermodes, idOf env store item.1 ≠ 0 :=
      fun item hitem => hknown item (by simp [hitem])
    rw [announced_users, count_users false unset user hset hmark,
      count_users true unset user hunset hmark]
    cases unset <;> simp
  have hletters : ∀ read ∈ (announcements modify before.modeflags
      (usermodesItems env store modify.setUsermodes)
      (usermodesItems env store modify.unsetUsermodes)).filterMap Announcement.flag?,
      ∃ entry ∈ channelModeFlagMap, entry.2 = read.2 := by
    intro read hread
    have hmode : ∀ mask flags, ∀ letter ∈ modeLetters mask flags,
        ∃ entry ∈ channelModeFlagMap, entry.2 = letter := by
      intro mask flags letter hletter
      obtain ⟨entry, hentry, heq⟩ := List.mem_map.mp hletter
      exact ⟨entry, List.mem_of_mem_filter hentry, heq⟩
    rw [announced_flags, List.mem_append] at hread
    rcases hread with hread | hread <;> obtain ⟨letter, hletter, rfl⟩ := List.mem_map.mp hread
    · exact hmode _ _ letter hletter
    · exact hmode _ _ letter hletter
  have hallUsers : ∀ user,
      (before.userFlags user ^^^ after.userFlags user) &&& ~~~userFlags = 0 := by
    intro user
    rw [husers]
    exact change_within
      (named_user_flags (fun item hitem => (hwords.names item (by simp [hitem])).2.2) user)
      (named_user_flags (fun item hitem => (hwords.names item (by simp [hitem])).2.2) user) _
  have husersIff := fun mask => @users_right_iff env store _ _ hone before.userFlags mask
  have hpasswordIff := @password_right_iff modify before.password
  have hlimitIff := @limit_right_iff modify before.limit
  have hlettersIff := @letters_right_iff modify before.modeflags
  rw [← hpassword, ← @announced_password modify before.modeflags
    (usermodesItems env store modify.setUsermodes)
    (usermodesItems env store modify.unsetUsermodes)] at hpasswordIff
  rw [← hlimit, ← @announced_limit modify before.modeflags
    (usermodesItems env store modify.setUsermodes)
    (usermodesItems env store modify.unsetUsermodes)] at hlimitIff
  rw [← hmodeflags] at hlettersIff
  simp only [← husers] at husersIff
  constructor
  · intro h
    refine ⟨hlaid, hlettersIff.mp fun entry hentry => ⟨?_, ?_⟩, (hpasswordIff.mp h.password).1,
      (hpasswordIff.mp h.password).2, (hlimitIff.mp h.limit).1, (hlimitIff.mp h.limit).2,
      fun mask hmask => (husersIff mask).mp fun user unset => ?_⟩
    · exact (hflags entry false).symm.trans (h.flags entry hentry false)
    · exact (hflags entry true).symm.trans (h.flags entry hentry true)
    · simp only [List.mem_cons, List.not_mem_nil, or_false] at hmask
      rcases hmask with rfl | rfl
      · exact (hcount user unset _ (by simp)).symm.trans
          (h.users user unset (char 'v', voice) (by simp))
      · exact (hcount user unset _ (by simp)).symm.trans
          (h.users user unset (char 'o', rankFlags) (by simp))
  · intro h
    refine ⟨fun entry hentry unset => (hflags entry unset).trans ?_, hletters,
      hmodeflags ▸ known_changes, hpasswordIff.mpr ⟨h.password_given, h.password_taken⟩,
      hlimitIff.mpr ⟨h.limit_given, h.limit_taken⟩,
      fun user unset mark hmark => (hcount user unset mark hmark).trans ?_, hallUsers⟩
    · obtain ⟨hfalse, htrue⟩ := hlettersIff.mpr h.flags entry hentry
      cases unset with
      | false => exact hfalse
      | true => exact htrue
    · refine (husersIff mark.2).mpr (h.users mark.2 ?_) user unset
      simp only [List.mem_cons, List.not_mem_nil, or_false] at hmark
      rcases hmark with rfl | rfl <;> simp

/-- No announced password or limit is longer than the one that the channel has now. -/
theorem misread_wrong {before after : ModeView} {line : List Announcement} {extra : Bytes}
    (hextra : extra ≠ [])
    (hpassword : after.password =
      if modify.updatePassword then cString modify.password else before.password)
    (hlimit : after.limit = if modify.updateLimit then modify.limit else before.limit)
    (hmisread : (modify.SetsLimit ∧ .limit (printInt modify.limit.toInt ++ extra) ∈ line) ∨
      (modify.SetsPassword ∧ .password (modify.password ++ extra) ∈ line)) :
    ¬ Describes (idOf env store) before after line := by
  intro h
  have hlonger : 0 < extra.length := List.length_pos_of_ne_nil hextra
  rcases hmisread with ⟨⟨hupdate, hset⟩, hmem⟩ | ⟨⟨hupdate, -⟩, hmem⟩
  · have hread : printInt modify.limit.toInt ++ extra ∈ line.filterMap Announcement.limit? :=
      List.mem_filterMap.mpr ⟨_, hmem, rfl⟩
    rw [hupdate, if_pos rfl] at hlimit
    rw [h.limit] at hread
    split at hread
    · cases hread
    · rw [List.mem_singleton, hlimit, limitText, if_neg hset] at hread
      have hlength := congrArg List.length hread
      rw [List.length_append] at hlength
      omega
  · have hread : modify.password ++ extra ∈ line.filterMap Announcement.password? :=
      List.mem_filterMap.mpr ⟨_, hmem, rfl⟩
    rw [hupdate, if_pos rfl] at hpassword
    rw [h.password] at hread
    split at hread
    · cases hread
    · rw [List.mem_singleton, hpassword] at hread
      have hlength := congrArg List.length hread
      have hcut : (cString modify.password).length ≤ modify.password.length :=
        (List.takeWhile_prefix _).length_le
      rw [List.length_append] at hlength
      omega

/-- The MODE message of a request that passes the checks and names existing users, read as a MODE
line, describes the difference between the channel before and after, if and only if the request
changes all that it announces. -/
theorem mode_line_describes_iff (env : Environment) (peer : ChatPeer) (channelName : Bytes)
    (modify : ChannelModify) (store : ChannelStore)
    (hsuccess : (performUpdateChannelModes env peer channelName modify store).2 = .success)
    (hwords : FromWords modify)
    (hknown : ∀ item ∈ modify.setUsermodes ++ modify.unsetUsermodes, idOf env store item.1 ≠ 0) :
    let channel := getChannelSummaryByName env store channelName
    let before := viewOf store channel.channelId
    let after := viewOf (performUpdateChannelModes env peer channelName modify store).1
      channel.channelId
    (∃ line, readModeLine (modeMessage modify channel.basicModeFlags env store) = some line ∧
        Describes (idOf env store) before after line) ↔
      ChangesAll (idOf env store) before modify := by
  intro channel before after
  have hview : after = _ := view_of_success env channelName modify store hsuccess
  have hflags : channel.basicModeFlags = before.modeflags := by
    have hid : channel.channelId ≠ 0 := by
      intro hzero
      simp only [performUpdateChannelModes] at hsuccess
      rw [if_pos hzero] at hsuccess
      cases hsuccess
    show (getChannelSummaryByName env store channelName).basicModeFlags =
      (viewOf store (getChannelSummaryByName env store channelName).channelId).modeflags
    have hzero : (getChannelSummaryByName env store channelName).channelId ≠ 0 := hid
    unfold getChannelSummaryByName at hzero ⊢
    simp only at hzero ⊢
    split
    · rfl
    · rename_i hnone
      rw [if_neg hnone] at hzero
      exact absurd rfl hzero
  have husers : ∀ user, after.userFlags user =
      changeFlags true (changeFlags false (before.userFlags user)
        (namedFlags env store user modify.setUsermodes))
        (namedFlags env store user modify.unsetUsermodes) := by
    intro user
    rw [hview]
    simp only
    split
    · rename_i huser
      subst huser
      rw [named_flags_none fun item hitem => hknown item (by simp [hitem]),
        named_flags_none fun item hitem => hknown item (by simp [hitem]), change_flags_zero,
        change_flags_zero]
    · rfl
  have hpassword : after.password =
      if modify.updatePassword then cString modify.password else before.password :=
    congrArg ModeView.password hview
  have hlimit : after.limit = if modify.updateLimit then modify.limit else before.limit :=
    congrArg ModeView.limit hview
  rw [hflags]
  by_cases hlaid : LaidOut modify before.modeflags
  · rw [mode_line_read hwords hlaid, ← announcements_describe_iff hwords hknown hlaid
      (congrArg ModeView.modeflags hview) hpassword hlimit husers]
    simp
  · refine iff_of_false ?_ fun h => hlaid h.laid_out
    rintro ⟨line, hread, hdescribes⟩
    obtain ⟨extra, hextra, hmisread⟩ := mode_line_misread hwords hlaid hread
    exact misread_wrong hextra hpassword hlimit hmisread hdescribes

/-- The line for one voice describes what was changed. -/
theorem voice_line_describes :
    let modify := requestedChange 0 (ascii "MODE") (ascii "#a") [ascii "+v", ascii "alice"]
    let channel := getChannelSummaryByName quietEnvironment operatorStore (ascii "#a")
    ∃ line, readModeLine (modeMessage modify channel.basicModeFlags quietEnvironment
          operatorStore) = some line ∧
      Describes (idOf quietEnvironment operatorStore) (viewOf operatorStore channel.channelId)
        (viewOf (performUpdateChannelModes quietEnvironment (chatPeer 1 (ascii "alice") 32)
          (ascii "#a") modify operatorStore).1 channel.channelId) line := by
  intro modify channel
  have hmodify : modify =
      { ChannelModify.empty 0 with setUsermodes := [(ascii "alice", voice)] } := by decide
  have hone : ∀ item ∈ modify.setUsermodes ++ modify.unsetUsermodes,
      item = (ascii "alice", voice) := by
    rw [hmodify]
    simp [ChannelModify.empty]
  refine (mode_line_describes_iff quietEnvironment (chatPeer 1 (ascii "alice") 32) (ascii "#a")
    modify operatorStore (by decide) ⟨fun item hitem => ?_, fun h => ?_⟩ fun item hitem => ?_).mpr ?_
  · rw [hone item hitem]
    exact ⟨⟨by decide, by decide⟩, by decide, by decide⟩
  · exact absurd (by decide) h
  · rw [hone item hitem]
    decide
  · refine ⟨⟨fun _ => ⟨by decide, by decide⟩, fun _ => ?_⟩, ?_, fun h => absurd h (by decide),
      fun h => absurd h (by decide), fun h => absurd h (by decide), fun h => absurd h (by decide),
      fun mask hmask => ?_⟩
    · simp only [TakesSomething, not_or]
      exact ⟨by decide, by decide, by decide, by decide⟩
    · intro entry _ hset
      rw [show modify.setModeFlags = 0#32 by decide, hasFlag, BitVec.zero_and] at hset
      exact absurd hset (by decide)
    · simp only [List.mem_cons, List.not_mem_nil, or_false] at hmask
      rcases hmask with rfl | rfl
      all_goals
        rw [hmodify]
        refine ⟨⟨List.pairwise_singleton _ _, fun item hitem => ?_⟩, .nil,
          fun _ h => absurd h List.not_mem_nil⟩
        rw [List.mem_singleton.mp hitem]
        decide

/-- The password behind a name is one parameter too many. -/
theorem voice_and_password_misread :
    ¬ ∀ (env : Environment) (peer : ChatPeer) (channelName : Bytes) (modify : ChannelModify)
        (store : ChannelStore),
        (performUpdateChannelModes env peer channelName modify store).2 = .success →
        (∀ item ∈ modify.setUsermodes ++ modify.unsetUsermodes, idOf env store item.1 ≠ 0) →
        let channel := getChannelSummaryByName env store channelName
        ∃ line, readModeLine (modeMessage modify channel.basicModeFlags env store) = some line ∧
          Describes (idOf env store) (viewOf store channel.channelId)
            (viewOf (performUpdateChannelModes env peer channelName modify store).1
              channel.channelId) line := by
  intro h
  have hmodify : requestedChange 0 (ascii "MODE") (ascii "#a")
        [ascii "+vk", ascii "alice", ascii "pw"] =
      { ChannelModify.empty 0 with
        setUsermodes := [(ascii "alice", voice)]
        updatePassword := true
        password := ascii "pw" } := by decide
  obtain ⟨line, hread, -⟩ := h quietEnvironment (chatPeer 1 (ascii "alice") 32) (ascii "#a")
    (requestedChange 0 (ascii "MODE") (ascii "#a") [ascii "+vk", ascii "alice", ascii "pw"])
    operatorStore (by decide) (by
      intro item hitem
      rw [hmodify] at hitem
      rw [show item = (ascii "alice", voice) by simpa [ChannelModify.empty] using hitem]
      decide)
  have hnone : readModeLine (modeMessage (requestedChange 0 (ascii "MODE") (ascii "#a")
      [ascii "+vk", ascii "alice", ascii "pw"])
      (getChannelSummaryByName quietEnvironment operatorStore (ascii "#a")).basicModeFlags
      quietEnvironment operatorStore) = none := by decide
  rw [hnone] at hread
  cases hread

end Perform

end OpenSpy.Peerchat
