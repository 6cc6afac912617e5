import OpenSpy.Core.Strings
import OpenSpy.Peerchat.ModeOrder

/-!
# The text of a MODE message

`Perform_UpdateChannelModes` tells the members of a channel what it has changed with a line such
as `+nk secret`. Below is the line as it is put together, and the line as a client reads it: the
letters with their signs, then a parameter for each `v`, `o`, `+k` and `+l` in the order of the
letters. `mode_line_read` says what a client makes of a line that is laid out so, and
`mode_line_misread` what becomes of the others.
-/

namespace OpenSpy.Peerchat

open Bytes UserChannelFlag ChannelStore

/-- Half operator, operator and owner. -/
def rankFlags : BitVec 32 := op ||| halfOp ||| owner

/-- The letters and names that `HandleSetUsermodes` writes for a user. -/
def usermodeItems (item : Bytes × BitVec 32) : List (UInt8 × Bytes) :=
  (if hasFlag item.2 voice then [(char 'v', item.1)] else []) ++
    if hasFlag item.2 op ∨ hasFlag item.2 halfOp ∨ hasFlag item.2 owner then
      [(char 'o', item.1)]
    else []

/-- The letters and names that `HandleSetUsermodes` writes. An unknown user is passed over; the
names are the same before and after the flags are written. -/
def usermodesItems (env : Environment) (store : ChannelStore) (usermodes : FlagMap) :
    List (UInt8 × Bytes) :=
  (usermodes.filter fun item => (getUserSummaryByName env store item.1).id ≠ 0).flatMap
    usermodeItems

/-- What `HandleSetUsermodes` writes to the message: the letters, and the names behind them. -/
def usermodesText (items : List (UInt8 × Bytes)) : Bytes :=
  items.map (·.1) ++ char ' ' :: items.flatMap fun item => item.2 ++ [char ' ']

section Request

variable (modify : ChannelModify) (basicModeFlags : BitVec 32)

/-- The request gives the channel a password. -/
def ChannelModify.SetsPassword : Prop := modify.updatePassword ∧ modify.password ≠ []

/-- The request takes the password of the channel away. -/
def ChannelModify.UnsetsPassword : Prop := modify.updatePassword ∧ modify.password = []

/-- The request gives the channel a limit. -/
def ChannelModify.SetsLimit : Prop := modify.updateLimit ∧ modify.limit ≠ 0

/-- The request takes the limit of the channel away. -/
def ChannelModify.UnsetsLimit : Prop := modify.updateLimit ∧ modify.limit = 0

instance : Decidable modify.SetsPassword := inferInstanceAs (Decidable (_ ∧ _))
instance : Decidable modify.UnsetsPassword := inferInstanceAs (Decidable (_ ∧ _))
instance : Decidable modify.SetsLimit := inferInstanceAs (Decidable (_ ∧ _))
instance : Decidable modify.UnsetsLimit := inferInstanceAs (Decidable (_ ∧ _))

/-- The letters of a mask that are in `flags`. Every letter is a bit of its own. -/
def modeLetters (mask flags : BitVec 32) : Bytes :=
  (channelModeFlagMap.filter fun entry => hasFlag mask entry.1 && hasFlag flags entry.1).map (·.2)

/-- The modes that the channel gets. -/
def setLetters : Bytes := modeLetters modify.setModeFlags (~~~basicModeFlags)

/-- The flags behind the first loop. -/
def addedFlags : BitVec 32 :=
  channelModeFlagMap.foldl (fun flags entry =>
    if hasFlag modify.setModeFlags entry.1 then flags ||| entry.1 else flags) basicModeFlags

/-- The modes that the channel loses. -/
def unsetLetters : Bytes := modeLetters modify.unsetModeFlags (addedFlags modify basicModeFlags)

/-- The sign is written with the first letter. -/
def signed (sign : UInt8) (body : Bytes) : Bytes :=
  if body = [] then [] else sign :: body

/-- The letters of the part behind `+`, with the users. -/
def setBody (setItems : List (UInt8 × Bytes)) : Bytes :=
  setLetters modify basicModeFlags ++
    (if modify.setUsermodes.length ≠ 0 then usermodesText setItems else []) ++
    (if modify.SetsPassword then [char 'k'] else []) ++
    if modify.SetsLimit then [char 'l'] else []

/-- The password and the limit behind the letters. -/
def setParams : Bytes :=
  (if modify.SetsPassword then char ' ' :: modify.password else []) ++
    if modify.SetsLimit then char ' ' :: printInt modify.limit.toInt else []

/-- The letters of the part behind `-`, with the users. -/
def unsetBody (unsetItems : List (UInt8 × Bytes)) : Bytes :=
  unsetLetters modify basicModeFlags ++
    (if modify.UnsetsPassword then [char 'k'] else []) ++
    (if modify.UnsetsLimit then [char 'l'] else []) ++
    if modify.unsetUsermodes.length ≠ 0 then usermodesText unsetItems else []

/-- The message of `Perform_UpdateChannelModes`. `basicModeFlags` are the flags of the channel
before. -/
def modeMessage (env : Environment) (store : ChannelStore) : Bytes :=
  (if modify.setModeFlags ≠ 0 ∨ modify.updatePassword ∨ modify.updateLimit ∨
      modify.setUsermodes.length ≠ 0 then
    signed (char '+')
        (setBody modify basicModeFlags (usermodesItems env store modify.setUsermodes)) ++
      setParams modify
  else []) ++
  if modify.unsetModeFlags ≠ 0 ∨ modify.updatePassword ∨ modify.updateLimit ∨
      modify.unsetUsermodes.length ≠ 0 then
    signed (char '-')
      (unsetBody modify basicModeFlags (usermodesItems env store modify.unsetUsermodes))
  else []

end Request

/-- What a line announces: a mode of the channel, a mode of a user, the password of the channel,
which is empty if it is taken away, or its limit. -/
inductive Announcement where
  | flag (unset : Bool) (letter : UInt8)
  | user (unset : Bool) (letter : UInt8) (name : Bytes)
  | password (text : Bytes)
  | limit (text : Bytes)
  deriving DecidableEq, Repr

/-- A letter with the next parameter. -/
def nextParam (announcement : Bytes → Announcement) :
    List Bytes → Option (Announcement × List Bytes)
  | [] => none
  | param :: rest => some (announcement param, rest)

/-- A letter, with its parameter if it has one. -/
def readLetter (unset : Bool) (letter : UInt8) (params : List Bytes) :
    Option (Announcement × List Bytes) :=
  if letter = char 'v' ∨ letter = char 'o' then nextParam (.user unset letter) params
  else if letter = char 'k' then
    if unset then some (.password [], params) else nextParam .password params
  else if letter = char 'l' then
    if unset then some (.limit [], params) else nextParam .limit params
  else some (.flag unset letter, params)

/-- The letters of a line, with a parameter for each letter that has one and no other. -/
def readLetters (unset : Bool) : Bytes → List Bytes → Option (List Announcement)
  | [], [] => some []
  | [], _ :: _ => none
  | letter :: letters, params =>
      if letter = char '+' then readLetters false letters params
      else if letter = char '-' then readLetters true letters params
      else
        match readLetter unset letter params with
        | none => none
        | some (announcement, rest) => (readLetters unset letters rest).map (announcement :: ·)

/-- A line is read: the first word has the letters, the others are the parameters. Nothing is
sent for an empty message. -/
def readModeLine (line : Bytes) : Option (List Announcement) :=
  match keyStringToVector line (char ' ') with
  | [] => some []
  | letters :: params => readLetters false letters params

section Reading

variable {unset : Bool} {params : List Bytes}

/-- The announcements of the letters of a channel. -/
def flagsRead (unset : Bool) (letters : Bytes) : List Announcement :=
  letters.map (.flag unset)

/-- The announcements of the letters and names of users. -/
def usersRead (unset : Bool) (items : List (UInt8 × Bytes)) : List Announcement :=
  items.map fun item => .user unset item.1 item.2

theorem read_signs (body rest : Bytes) :
    readLetters false (signed (char '+') body ++ rest) params =
      readLetters false (body ++ rest) params ∧
    readLetters unset (signed (char '-') body) params = readLetters true body params := by
  unfold signed
  by_cases hbody : body = []
  · subst hbody
    cases params <;> exact ⟨rfl, rfl⟩
  · rw [if_neg hbody, if_neg hbody]
    exact ⟨rfl, rfl⟩

/-- A letter of the map of modes is one of these. -/
theorem mode_letter {mask flags : BitVec 32} {letter : UInt8}
    (h : letter ∈ modeLetters mask flags) :
    letter ≠ char '+' ∧ letter ≠ char '-' ∧ letter ≠ char 'v' ∧ letter ≠ char 'o' ∧
      letter ≠ char 'k' ∧ letter ≠ char 'l' ∧ letter ≠ char ' ' := by
  have hall : (channelModeFlagMap.map (·.2)).all (fun letter =>
      letter != char '+' && letter != char '-' && letter != char 'v' && letter != char 'o' &&
        letter != char 'k' && letter != char 'l' && letter != char ' ') = true := by decide
  obtain ⟨entry, hentry, rfl⟩ := List.mem_map.mp h
  have hletter := List.all_eq_true.mp hall entry.2
    (List.mem_map_of_mem (List.mem_of_mem_filter hentry))
  simpa [and_assoc] using hletter

theorem read_flags {mask flags : BitVec 32} {letters : Bytes}
    (hletters : ∀ letter ∈ letters, letter ∈ modeLetters mask flags) (rest : Bytes) :
    readLetters unset (letters ++ rest) params =
      (readLetters unset rest params).map (flagsRead unset letters ++ ·) := by
  induction letters with
  | nil => simp [flagsRead]
  | cons letter letters ih =>
      obtain ⟨hplus, hminus, hv, ho, hk, hl, -⟩ := mode_letter (hletters letter (by simp))
      have hread : readLetter unset letter params = some (.flag unset letter, params) := by
        simp [readLetter, hv, ho, hk, hl]
      rw [List.cons_append, readLetters, if_neg hplus, if_neg hminus, hread]
      simp only
      rw [ih fun other hother => hletters other (by simp [hother]), Option.map_map]
      rfl

theorem read_users {items : List (UInt8 × Bytes)}
    (hitems : ∀ item ∈ items, item.1 = char 'v' ∨ item.1 = char 'o') (rest : Bytes) :
    readLetters unset (items.map (·.1) ++ rest) (items.map (·.2) ++ params) =
      (readLetters unset rest params).map (usersRead unset items ++ ·) := by
  induction items with
  | nil => simp [usersRead]
  | cons item items ih =>
      have hletter := hitems item (by simp)
      have hsign : item.1 ≠ char '+' ∧ item.1 ≠ char '-' := by
        rcases hletter with h | h <;> rw [h] <;> decide
      have hread : readLetter unset item.1 (item.2 :: (items.map (·.2) ++ params)) =
          some (.user unset item.1 item.2, items.map (·.2) ++ params) := by
        rw [readLetter, if_pos hletter, nextParam]
      rw [List.map_cons, List.cons_append, List.map_cons, List.cons_append, readLetters,
        if_neg hsign.1, if_neg hsign.2, hread]
      simp only
      rw [ih fun other hother => hitems other (by simp [hother]), Option.map_map]
      rfl

/-- `+k` and `+l` take a parameter each. -/
theorem read_set_params {p q : Prop} [Decidable p] [Decidable q] (password limit rest : Bytes) :
    readLetters false ((if p then [char 'k'] else []) ++ (if q then [char 'l'] else []) ++ rest)
        ((if p then [password] else []) ++ (if q then [limit] else []) ++ params) =
      (readLetters false rest params).map
        ((if p then [.password password] else []) ++ (if q then [.limit limit] else []) ++ ·) := by
  have hk : readLetter false (char 'k') = nextParam .password := by
    funext params
    rfl
  have hl : readLetter false (char 'l') = nextParam .limit := by
    funext params
    rfl
  have hsign : char 'k' ≠ char '+' ∧ char 'k' ≠ char '-' ∧ char 'l' ≠ char '+' ∧
      char 'l' ≠ char '-' := by decide
  by_cases hp : p <;> by_cases hq : q <;>
    simp [hp, hq, readLetters, hk, hl, hsign, nextParam, Function.comp_def]

/-- `-k` and `-l` take none. -/
theorem read_unset_params {p q : Prop} [Decidable p] [Decidable q] (rest : Bytes) :
    readLetters true ((if p then [char 'k'] else []) ++ (if q then [char 'l'] else []) ++ rest)
        params =
      (readLetters true rest params).map
        ((if p then [.password []] else []) ++ (if q then [.limit []] else []) ++ ·) := by
  have hk : readLetter true (char 'k') = fun params => some (.password [], params) := by
    funext params
    rfl
  have hl : readLetter true (char 'l') = fun params => some (.limit [], params) := by
    funext params
    rfl
  have hsign : char 'k' ≠ char '+' ∧ char 'k' ≠ char '-' ∧ char 'l' ≠ char '+' ∧
      char 'l' ≠ char '-' := by decide
  by_cases hp : p <;> by_cases hq : q <;>
    simp [hp, hq, readLetters, hk, hl, hsign, Function.comp_def]

/-- A line whose letters are used up is right if its parameters are, too. -/
theorem read_no_letters (unset : Bool) (params : List Bytes) :
    readLetters unset [] params = if params = [] then some [] else none := by
  cases params <;> rfl

end Reading

section Layout

variable (modify : ChannelModify) (basicModeFlags : BitVec 32)

/-- The request takes something away. -/
def TakesSomething : Prop :=
  unsetLetters modify basicModeFlags ≠ [] ∨ modify.UnsetsPassword ∨ modify.UnsetsLimit ∨
    modify.unsetUsermodes ≠ []

/-- The parts of the line do not get into each other's way: nothing comes behind the names of
users who are given flags, and what is taken does not come behind a password or a limit. -/
structure LaidOut : Prop where
  behind_users : modify.setUsermodes ≠ [] → ¬ modify.SetsPassword ∧ ¬ modify.SetsLimit
  behind_params : modify.setUsermodes ≠ [] ∨ modify.SetsPassword ∨ modify.SetsLimit →
    ¬ TakesSomething modify basicModeFlags

/-- The flags that a MODE gives to users and takes from them. -/
def userFlags : BitVec 32 := voice ||| rankFlags

/-- What the parser of the MODE command hands on: names and passwords are words, and every name
comes with some of the flags `v`, `h`, `o` and `O`. -/
structure FromWords : Prop where
  names : ∀ item ∈ modify.setUsermodes ++ modify.unsetUsermodes,
    IsWord (char ' ') item.1 ∧ item.2 ≠ 0 ∧ item.2 &&& ~~~userFlags = 0
  password : modify.password ≠ [] → IsWord (char ' ') modify.password

/-- What the line announces of the users, the password and the limit. -/
def announcements (setItems unsetItems : List (UInt8 × Bytes)) : List Announcement :=
  flagsRead false (setLetters modify basicModeFlags) ++ usersRead false setItems ++
    (if modify.SetsPassword then [.password modify.password] else []) ++
    (if modify.SetsLimit then [.limit (printInt modify.limit.toInt)] else []) ++
    flagsRead true (unsetLetters modify basicModeFlags) ++
    (if modify.UnsetsPassword then [.password []] else []) ++
    (if modify.UnsetsLimit then [.limit []] else []) ++ usersRead true unsetItems

end Layout

section Parsed

open ModeOrder

/-- A flag of a user that the parser reads. -/
def IsUserFlag (flag : BitVec 32) : Prop :=
  flag ≠ 0 ∧ flag &&& ~~~userFlags = 0

/-- An item whose name and password are words of the command. -/
def ItemFromWords : ModeItem → Prop
  | .userFlag _ flag name => IsWord (char ' ') name ∧ IsUserFlag flag
  | .password text => text ≠ [] → IsWord (char ' ') text
  | _ => True

theorem with_param_from_words {mode : UInt8} {item : Bytes → ModeItem} {params : List Bytes}
    (hparams : ∀ param ∈ params, IsWord (char ' ') param)
    (hitem : ∀ param, IsWord (char ' ') param → ItemFromWords (item param)) :
    ItemFromWords (withParam mode item params).1 ∧
      ∀ param ∈ (withParam mode item params).2, IsWord (char ' ') param := by
  cases params with
  | nil => exact ⟨trivial, by simp [withParam]⟩
  | cons param rest =>
      exact ⟨hitem param (hparams param (by simp)),
        fun other hother => hparams other (List.mem_cons_of_mem _ hother)⟩

theorem read_item_from_words (unset : Bool) (mode : UInt8) {params : List Bytes}
    (hparams : ∀ param ∈ params, IsWord (char ' ') param) :
    ItemFromWords (readItem unset mode params).1 ∧
      ∀ param ∈ (readItem unset mode params).2, IsWord (char ' ') param := by
  have huser : ∀ flag, IsUserFlag flag → ∀ param, IsWord (char ' ') param →
      ItemFromWords (.userFlag unset flag param) := fun _ hflag _ hword => ⟨hword, hflag⟩
  unfold readItem
  split_ifs
  · exact ⟨trivial, fun param hparam => hparams param (List.mem_of_mem_tail hparam)⟩
  · exact ⟨fun h => absurd rfl h, hparams⟩
  · exact with_param_from_words hparams fun _ hword _ => hword
  · exact ⟨trivial, hparams⟩
  · exact with_param_from_words hparams fun _ _ => show ItemFromWords (.limit _) from trivial
  · exact with_param_from_words hparams (huser voice ⟨by decide, by decide⟩)
  · exact with_param_from_words hparams (huser halfOp ⟨by decide, by decide⟩)
  · exact with_param_from_words hparams (huser op ⟨by decide, by decide⟩)
  · exact with_param_from_words hparams (huser owner ⟨by decide, by decide⟩)
  · split
    · exact ⟨trivial, hparams⟩
    · exact ⟨trivial, hparams⟩

theorem mode_items_from_words (unset : Bool) {params : List Bytes}
    (hparams : ∀ param ∈ params, IsWord (char ' ') param) (modeString : Bytes) :
    ∀ item ∈ modeItems unset params modeString, ItemFromWords item := by
  induction modeString generalizing unset params with
  | nil => simp [modeItems]
  | cons mode rest ih =>
      rw [modeItems]
      split_ifs
      · exact ih false hparams
      · exact ih true hparams
      · obtain ⟨hfirst, hlater⟩ := read_item_from_words unset mode hparams
        intro item hitem
        rcases List.mem_cons.mp hitem with rfl | hitem
        · exact hfirst
        · exact ih _ hlater item hitem

/-- A flag that is added under a name. -/
theorem mem_or_flag {name : Bytes} {flag : BitVec 32} {usermodes : FlagMap}
    {entry : Bytes × BitVec 32} (h : entry ∈ orFlag name flag usermodes) :
    entry ∈ usermodes ∨ entry = (name, flag) ∨
      ∃ flags, (name, flags) ∈ usermodes ∧ entry = (name, flags ||| flag) := by
  induction usermodes with
  | nil => exact .inr (.inl (List.mem_singleton.mp h))
  | cons first rest ih =>
      obtain ⟨other, flags⟩ := first
      rw [orFlag] at h
      split at h
      · rename_i heq
        subst heq
        rcases List.mem_cons.mp h with rfl | hrest
        · exact .inr (.inr ⟨flags, List.mem_cons_self, rfl⟩)
        · exact .inl (List.mem_cons_of_mem _ hrest)
      · split at h
        · rcases List.mem_cons.mp h with rfl | hrest
          · exact .inr (.inl rfl)
          · exact .inl hrest
        · rcases List.mem_cons.mp h with rfl | hrest
          · exact .inl List.mem_cons_self
          · rcases ih hrest with hold | hnew | ⟨before, hbefore, heq⟩
            · exact .inl (List.mem_cons_of_mem _ hold)
            · exact .inr (.inl hnew)
            · exact .inr (.inr ⟨before, List.mem_cons_of_mem _ hbefore, heq⟩)

/-- Entries whose names are words, with flags of the parser. -/
def EntriesFromWords (usermodes : FlagMap) : Prop :=
  ∀ entry ∈ usermodes, IsWord (char ' ') entry.1 ∧ IsUserFlag entry.2

theorem or_flag_from_words {name : Bytes} {flag : BitVec 32} {usermodes : FlagMap}
    (hname : IsWord (char ' ') name) (hflag : IsUserFlag flag)
    (h : EntriesFromWords usermodes) : EntriesFromWords (orFlag name flag usermodes) := by
  intro entry hentry
  rcases mem_or_flag hentry with hold | rfl | ⟨flags, hflags, rfl⟩
  · exact h entry hold
  · exact ⟨hname, hflag⟩
  · obtain ⟨-, hne, hwithin⟩ := h _ hflags
    refine ⟨hname, ?_, ?_⟩
    · exact fun hzero => hne (BitVec.or_eq_zero_iff.mp hzero).1
    · show (flags ||| flag) &&& ~~~userFlags = 0
      rw [BitVec.and_comm, BitVec.and_or_distrib_left, BitVec.and_comm, hwithin,
        BitVec.and_comm, hflag.2]
      rfl

/-- What the parser makes of the words of a command. -/
theorem requested_change_from_words (unsetLimit : BitVec 32) (command channelName : Bytes)
    {params : List Bytes} (hparams : ∀ param ∈ params, IsWord (char ' ') param) :
    FromWords (requestedChange unsetLimit command channelName params) := by
  cases params with
  | nil => exact ⟨by simp [requestedChange, ChannelModify.empty], fun h => absurd rfl h⟩
  | cons modeString params =>
      have hitems := mode_items_from_words false
        (fun param hparam => hparams param (List.mem_cons_of_mem _ hparam)) modeString
      rw [requested_change_eq]
      have hall : ∀ items : List ModeItem, (∀ item ∈ items, ItemFromWords item) →
          let modify := items.foldl collect (.empty unsetLimit)
          EntriesFromWords modify.setUsermodes ∧ EntriesFromWords modify.unsetUsermodes ∧
            (modify.password ≠ [] → IsWord (char ' ') modify.password) := by
        intro items hwords
        induction items using List.reverseRecOn with
        | nil =>
            exact ⟨fun _ h => absurd h List.not_mem_nil, fun _ h => absurd h List.not_mem_nil,
              fun h => absurd rfl h⟩
        | append_singleton items item ih =>
            obtain ⟨hset, hunset, hpassword⟩ :=
              ih fun first hfirst => hwords first (by simp [hfirst])
            have hitem := hwords item (by simp)
            rw [List.foldl_concat]
            cases item with
            | userFlag unset flag name =>
                cases unset with
                | false => exact ⟨or_flag_from_words hitem.1 hitem.2 hset, hunset, hpassword⟩
                | true => exact ⟨hset, or_flag_from_words hitem.1 hitem.2 hunset, hpassword⟩
            | password text => exact ⟨hset, hunset, hitem⟩
            | limit value => exact ⟨hset, hunset, hpassword⟩
            | channelFlag unset flag => cases unset <;> exact ⟨hset, hunset, hpassword⟩
            | missing mode =>
                simp only [collect]
                split_ifs <;> exact ⟨hset, hunset, hpassword⟩
            | other => exact ⟨hset, hunset, hpassword⟩
      obtain ⟨hset, hunset, hpassword⟩ := hall _ hitems
      refine ⟨fun item hitem => ?_, hpassword⟩
      rcases List.mem_append.mp hitem with hitem | hitem
      · exact hset item hitem
      · exact hunset item hitem

end Parsed

section Line

variable {env : Environment} {store : ChannelStore} {modify : ChannelModify}
  {basicModeFlags : BitVec 32}

/-- The guards of the two parts stop nothing. -/
theorem mode_message_eq :
    modeMessage modify basicModeFlags env store =
      signed (char '+')
          (setBody modify basicModeFlags (usermodesItems env store modify.setUsermodes)) ++
        setParams modify ++
        signed (char '-')
          (unsetBody modify basicModeFlags (usermodesItems env store modify.unsetUsermodes)) := by
  have hnone : ∀ flags, modeLetters 0#32 flags = [] := by
    intro flags
    simp [modeLetters, hasFlag]
  unfold modeMessage
  congr 1
  · split
    · rfl
    · rename_i hguard
      push Not at hguard
      obtain ⟨hflags, hpassword, hlimit, husers⟩ := hguard
      simp [setBody, setParams, setLetters, hflags, hnone, ChannelModify.SetsPassword,
        ChannelModify.SetsLimit, hpassword, hlimit, husers, signed]
  · split
    · rfl
    · rename_i hguard
      push Not at hguard
      obtain ⟨hflags, hpassword, hlimit, husers⟩ := hguard
      simp [unsetBody, unsetLetters, hflags, hnone, ChannelModify.UnsetsPassword,
        ChannelModify.UnsetsLimit, hpassword, hlimit, husers, signed]

/-- The letters of the channel and of users have no blank. -/
theorem blank_not_mem_letters (mask flags : BitVec 32) : char ' ' ∉ modeLetters mask flags :=
  fun h => (mode_letter h).2.2.2.2.2.2 rfl

theorem user_letter {item : Bytes × BitVec 32} {read : UInt8 × Bytes}
    (h : read ∈ usermodeItems item) :
    (read.1 = char 'v' ∨ read.1 = char 'o') ∧ read.2 = item.1 := by
  simp only [usermodeItems, List.mem_append] at h
  rcases h with h | h <;> split at h
  · rw [List.mem_singleton.mp h]
    exact ⟨.inl rfl, rfl⟩
  · cases h
  · rw [List.mem_singleton.mp h]
    exact ⟨.inr rfl, rfl⟩
  · cases h

/-- What is written for the users of a map: `v` and `o`, with their names. -/
theorem user_letters {usermodes : FlagMap} {read : UInt8 × Bytes}
    (h : read ∈ usermodesItems env store usermodes) :
    (read.1 = char 'v' ∨ read.1 = char 'o') ∧ ∃ item ∈ usermodes, read.2 = item.1 := by
  obtain ⟨item, hitem, hread⟩ := List.mem_flatMap.mp h
  exact ⟨(user_letter hread).1, item, List.mem_of_mem_filter hitem, (user_letter hread).2⟩

/-- The names behind the letters are the words that follow. -/
theorem words_names {items : List (UInt8 × Bytes)}
    (hnames : ∀ item ∈ items, IsWord (char ' ') item.2) (rest : Bytes) :
    keyStringToVector (items.flatMap (fun item => item.2 ++ [char ' ']) ++ rest) (char ' ') =
      items.map (·.2) ++ keyStringToVector rest (char ' ') := by
  induction items with
  | nil => rfl
  | cons item items ih =>
      rw [List.flatMap_cons, List.append_assoc, List.append_assoc, List.singleton_append,
        key_string_to_vector_cons (hnames item (by simp)),
        ih fun other hother => hnames other (by simp [hother])]
      rfl

/-- The first word of a line, which has letters and signs only. -/
theorem words_line {word : Bytes} (hword : IsWord (char ' ') word) {rest : Bytes}
    (hrest : rest = [] ∨ ∃ later, rest = char ' ' :: later) :
    keyStringToVector (word ++ rest) (char ' ') = word :: keyStringToVector rest (char ' ') := by
  rcases hrest with rfl | ⟨later, rfl⟩
  · rw [List.append_nil, key_string_to_vector_word hword]
    rfl
  · rw [key_string_to_vector_cons hword, key_string_to_vector_delim]

/-- What stands behind the users of the first part. -/
def behindUsers (modify : ChannelModify) (basicModeFlags : BitVec 32)
    (unsetItems : List (UInt8 × Bytes)) : Bytes :=
  (if modify.SetsPassword then [char 'k'] else []) ++
    (if modify.SetsLimit then [char 'l'] else []) ++ setParams modify ++
    signed (char '-') (unsetBody modify basicModeFlags unsetItems)

theorem behind_users_nil {unsetItems : List (UInt8 × Bytes)} :
    behindUsers modify basicModeFlags unsetItems = [] ↔
      ¬ modify.SetsPassword ∧ ¬ modify.SetsLimit ∧ ¬ TakesSomething modify basicModeFlags := by
  unfold behindUsers signed unsetBody TakesSomething setParams usermodesText
  by_cases hpassword : modify.SetsPassword <;> by_cases hlimit : modify.SetsLimit <;>
    by_cases hunset : modify.UnsetsPassword <;> by_cases hnone : modify.UnsetsLimit <;>
      by_cases hletters : unsetLetters modify basicModeFlags = [] <;>
        by_cases husers : modify.unsetUsermodes = [] <;>
          simp [hpassword, hlimit, hunset, hnone, hletters, husers]

/-- It begins with a letter or a sign. -/
theorem behind_users_word {unsetItems : List (UInt8 × Bytes)}
    (h : behindUsers modify basicModeFlags unsetItems ≠ []) :
    keyStringToVector (behindUsers modify basicModeFlags unsetItems) (char ' ') ≠ [] := by
  have hchars : char 'k' ≠ char ' ' ∧ char 'l' ≠ char ' ' ∧ char '-' ≠ char ' ' := by decide
  revert h
  unfold behindUsers setParams
  by_cases hpassword : modify.SetsPassword
  · intro _
    simp only [hpassword, if_true, List.cons_append, List.append_assoc]
    exact key_string_to_vector_ne_nil hchars.1 _
  by_cases hlimit : modify.SetsLimit
  · intro _
    simp only [hpassword, hlimit, if_true, if_false, List.nil_append, List.cons_append]
    exact key_string_to_vector_ne_nil hchars.2.1 _
  simp only [hpassword, hlimit, if_false, List.nil_append, List.append_nil, signed]
  split
  · intro h
    exact absurd rfl h
  · intro _
    exact key_string_to_vector_ne_nil hchars.2.2 _

/-- If users are given flags, whatever follows their names is a parameter too many. -/
theorem read_with_users (hwords : FromWords modify) (husers : modify.setUsermodes ≠ []) :
    readModeLine (modeMessage modify basicModeFlags env store) =
      (readLetters false [] (keyStringToVector (behindUsers modify basicModeFlags
        (usermodesItems env store modify.unsetUsermodes)) (char ' '))).map
        (flagsRead false (setLetters modify basicModeFlags) ++
          usersRead false (usermodesItems env store modify.setUsermodes) ++ ·) := by
  set items := usermodesItems env store modify.setUsermodes with hitems
  set later := behindUsers modify basicModeFlags
    (usermodesItems env store modify.unsetUsermodes) with hlater
  set letters := setLetters modify basicModeFlags with hletters
  have hline : modeMessage modify basicModeFlags env store =
      (char '+' :: (letters ++ items.map (·.1))) ++
        char ' ' :: (items.flatMap (fun item => item.2 ++ [char ' ']) ++ later) := by
    rw [mode_message_eq, hlater, behindUsers, setBody, ← hletters, ← hitems,
      if_pos (by simpa using husers), usermodesText, signed, if_neg (by simp)]
    simp only [List.append_assoc, List.cons_append]
  have hblank : ∀ item ∈ items, item.1 ≠ char ' ' := by
    intro item hitem
    rcases (user_letters hitem).1 with h | h <;> rw [h] <;> decide
  have hword : IsWord (char ' ') (char '+' :: (letters ++ items.map (·.1))) := by
    refine ⟨by simp, ?_⟩
    simp only [List.mem_cons, List.mem_append, List.mem_map, not_or]
    refine ⟨by decide, blank_not_mem_letters _ _, ?_⟩
    rintro ⟨item, hitem, heq⟩
    exact hblank item hitem heq
  have hnames : ∀ item ∈ items, IsWord (char ' ') item.2 := by
    intro item hitem
    obtain ⟨named, hnamed, heq⟩ := (user_letters hitem).2
    rw [heq]
    exact (hwords.names named (by simp [hnamed])).1
  have hmodes : ∀ letter ∈ letters,
      letter ∈ modeLetters modify.setModeFlags (~~~basicModeFlags) := fun _ h => h
  rw [readModeLine, hline, key_string_to_vector_cons hword, words_names hnames]
  simp only
  rw [readLetters, if_pos rfl, read_flags hmodes,
    ← List.append_nil (items.map (·.1)), read_users (fun item h => (user_letters h).1),
    Option.map_map]
  simp [Function.comp_def, ← hitems]

/-- The letters and the names of what is taken. -/
theorem unset_word (hwords : FromWords modify) :
    ∃ word rest : Bytes, unsetBody modify basicModeFlags
        (usermodesItems env store modify.unsetUsermodes) = word ++ rest ∧ char ' ' ∉ word ∧
      (rest = [] ∨ ∃ later, rest = char ' ' :: later) ∧
      keyStringToVector rest (char ' ') =
        (usermodesItems env store modify.unsetUsermodes).map (·.2) ∧
      (modify.unsetUsermodes = [] → rest = []) ∧
      word = unsetLetters modify basicModeFlags ++
        (if modify.UnsetsPassword then [char 'k'] else []) ++
        (if modify.UnsetsLimit then [char 'l'] else []) ++
        (usermodesItems env store modify.unsetUsermodes).map (·.1) := by
  set items := usermodesItems env store modify.unsetUsermodes with hitems
  have hnone : modify.unsetUsermodes = [] → items = [] := by
    intro hempty
    rw [hitems, hempty]
    rfl
  have hnames : ∀ item ∈ items, IsWord (char ' ') item.2 := by
    intro item hitem
    obtain ⟨named, hnamed, heq⟩ := (user_letters hitem).2
    rw [heq]
    exact (hwords.names named (by simp [hnamed])).1
  refine ⟨_, if modify.unsetUsermodes.length ≠ 0 then
    char ' ' :: items.flatMap fun item => item.2 ++ [char ' '] else [], ?_, ?_, ?_, ?_, ?_, rfl⟩
  · unfold unsetBody usermodesText
    by_cases hempty : modify.unsetUsermodes = []
    · simp [hempty, hnone hempty]
    · simp [hempty]
  · have hletters := blank_not_mem_letters modify.unsetModeFlags (addedFlags modify basicModeFlags)
    have husers : ∀ item ∈ items, item.1 ≠ char ' ' := by
      intro item hitem
      rcases (user_letters hitem).1 with h | h <;> rw [h] <;> decide
    simp only [List.mem_append, List.mem_map, not_or]
    refine ⟨⟨⟨hletters, ?_⟩, ?_⟩, ?_⟩
    · split <;> decide
    · split <;> decide
    · rintro ⟨item, hitem, heq⟩
      exact husers item hitem heq
  · split
    · exact .inr ⟨_, rfl⟩
    · exact .inl rfl
  · split
    · rw [key_string_to_vector_delim]
      have hall := words_names hnames []
      rwa [List.append_nil, show keyStringToVector [] (char ' ') = [] from rfl,
        List.append_nil] at hall
    · rename_i hempty
      rw [hnone (by simpa using hempty)]
      rfl
  · intro hempty
    rw [hempty]
    rfl

/-- The part of the line behind `-` is a word, which may stick to the one in front of it, and the
names behind that. -/
theorem unset_part (hwords : FromWords modify) :
    ∃ extra rest : Bytes, signed (char '-') (unsetBody modify basicModeFlags
        (usermodesItems env store modify.unsetUsermodes)) = extra ++ rest ∧ char ' ' ∉ extra ∧
      (rest = [] ∨ ∃ later, rest = char ' ' :: later) ∧
      keyStringToVector rest (char ' ') =
        (usermodesItems env store modify.unsetUsermodes).map (·.2) ∧
      (extra = [] ↔ ¬ TakesSomething modify basicModeFlags) ∧ (extra = [] → rest = []) ∧
      ∀ unset params, readLetters unset extra params =
        readLetters true (unsetLetters modify basicModeFlags ++
          (if modify.UnsetsPassword then [char 'k'] else []) ++
          (if modify.UnsetsLimit then [char 'l'] else []) ++
          (usermodesItems env store modify.unsetUsermodes).map (·.1)) params := by
  obtain ⟨word, rest, hbody, hblank, hrest, hnames, -, hword⟩ :=
    @unset_word env store modify basicModeFlags hwords
  have hempty : word ++ rest = [] ↔ ¬ TakesSomething modify basicModeFlags := by
    rw [← hbody]
    unfold unsetBody TakesSomething usermodesText
    by_cases hunset : modify.UnsetsPassword <;> by_cases hnone : modify.UnsetsLimit <;>
      by_cases hletters : unsetLetters modify basicModeFlags = [] <;>
        by_cases husers : modify.unsetUsermodes = [] <;> simp [hunset, hnone, hletters, husers]
  refine ⟨if word ++ rest = [] then [] else char '-' :: word, rest, ?_, ?_, hrest, hnames, ?_, ?_,
    ?_⟩
  · rw [hbody, signed]
    split
    · rename_i h
      rw [(List.append_eq_nil_iff.mp h).2]
      rfl
    · rfl
  · split
    · simp
    · have hminus : char ' ' ≠ char '-' := by decide
      simp [hminus, hblank]
  · rw [← hempty]
    split
    · rename_i h
      exact iff_of_true rfl h
    · rename_i h
      exact iff_of_false (by simp) h
  · split
    · rename_i h
      exact fun _ => (List.append_eq_nil_iff.mp h).2
    · intro h
      cases h
  · intro unset params
    rw [← hword]
    split
    · rename_i h
      rw [(List.append_eq_nil_iff.mp h).1]
      cases params <;> rfl
    · rfl

/-- If the channel is given a password or a limit, what is taken sticks to the last of these. -/
theorem read_with_params (hwords : FromWords modify) (husers : modify.setUsermodes = [])
    (hparams : modify.SetsPassword ∨ modify.SetsLimit) :
    ∃ extra : Bytes, (extra = [] ↔ ¬ TakesSomething modify basicModeFlags) ∧
      readModeLine (modeMessage modify basicModeFlags env store) =
        (readLetters false [] ((usermodesItems env store modify.unsetUsermodes).map (·.2))).map
          (flagsRead false (setLetters modify basicModeFlags) ++
            (if modify.SetsPassword then
              [.password (if modify.SetsLimit then modify.password else modify.password ++ extra)]
            else []) ++
            (if modify.SetsLimit then [.limit (printInt modify.limit.toInt ++ extra)] else []) ++
            ·) := by
  obtain ⟨extra, rest, hpart, hblank, hrest, hnames, hextra, -, -⟩ :=
    @unset_part env store modify basicModeFlags hwords
  refine ⟨extra, hextra, ?_⟩
  set letters := setLetters modify basicModeFlags with hletters
  set limit := printInt modify.limit.toInt with hlimit
  set first := char '+' :: (letters ++ (if modify.SetsPassword then [char 'k'] else []) ++
    if modify.SetsLimit then [char 'l'] else []) with hfirst
  have hline : modeMessage modify basicModeFlags env store =
      first ++ setParams modify ++ (extra ++ rest) := by
    have hbody : setBody modify basicModeFlags (usermodesItems env store modify.setUsermodes) =
        letters ++ (if modify.SetsPassword then [char 'k'] else []) ++
          if modify.SetsLimit then [char 'l'] else [] := by
      simp [setBody, husers, hletters]
    rw [mode_message_eq, hbody, signed, if_neg ?_, hpart, hfirst]
    rcases hparams with h | h <;> simp [h]
  have hword : IsWord (char ' ') first := by
    refine ⟨by simp [hfirst], ?_⟩
    have hchars : char ' ' ≠ char '+' ∧ char ' ' ≠ char 'k' ∧ char ' ' ≠ char 'l' := by decide
    have hnot := blank_not_mem_letters modify.setModeFlags (~~~basicModeFlags)
    rw [hfirst]
    simp only [List.mem_cons, List.mem_append, not_or]
    refine ⟨hchars.1, ⟨hnot, ?_⟩, ?_⟩
    · split <;> simp [hchars]
    · split <;> simp [hchars]
  have hlast : ∀ word : Bytes, IsWord (char ' ') word → keyStringToVector
      (word ++ (extra ++ rest)) (char ' ') =
        (word ++ extra) :: (usermodesItems env store modify.unsetUsermodes).map (·.2) := by
    intro word hword
    have hjoined : IsWord (char ' ') (word ++ extra) := by
      refine ⟨by simp [hword.1], ?_⟩
      simp [hword.2, hblank]
    rw [← List.append_assoc, words_line hjoined hrest, hnames]
  have hlimitWord : IsWord (char ' ') limit := by
    refine ⟨?_, print_int_not_mem (by decide) (by decide) _⟩
    rw [hlimit, printInt]
    split
    · simp
    · exact print_nat_ne_nil _
  have hwordsLine : keyStringToVector (modeMessage modify basicModeFlags env store) (char ' ') =
      first :: ((if modify.SetsPassword then
          [if modify.SetsLimit then modify.password else modify.password ++ extra] else []) ++
        (if modify.SetsLimit then [limit ++ extra] else []) ++
        (usermodesItems env store modify.unsetUsermodes).map (·.2)) := by
    rw [hline, setParams]
    by_cases hpassword : modify.SetsPassword
    · have hpasswordWord := hwords.password hpassword.2
      by_cases hset : modify.SetsLimit
      · simp only [hpassword, hset, if_true, List.append_assoc, List.cons_append]
        rw [key_string_to_vector_cons hword, key_string_to_vector_cons hpasswordWord,
          hlast _ hlimitWord]
        rfl
      · simp only [hpassword, hset, if_true, if_false, List.append_assoc, List.cons_append,
          List.nil_append]
        rw [key_string_to_vector_cons hword, hlast _ hpasswordWord]
    · have hset : modify.SetsLimit := hparams.resolve_left hpassword
      simp only [hpassword, hset, if_true, if_false, List.append_assoc, List.cons_append,
        List.nil_append]
      rw [key_string_to_vector_cons hword, hlast _ hlimitWord]
  have hmodes : ∀ letter ∈ letters,
      letter ∈ modeLetters modify.setModeFlags (~~~basicModeFlags) := fun _ h => h
  rw [readModeLine, hwordsLine]
  simp only
  rw [hfirst, readLetters, if_pos rfl, List.append_assoc, read_flags hmodes]
  have hread := @read_set_params
    ((usermodesItems env store modify.unsetUsermodes).map (·.2)) modify.SetsPassword
    modify.SetsLimit _ _ (if modify.SetsLimit then modify.password else modify.password ++ extra)
    (limit ++ extra) []
  rw [List.append_nil] at hread
  rw [hread, Option.map_map]
  simp [Function.comp_def]

/-- Otherwise the line has the letters of what is given and of what is taken, and then the names. -/
theorem read_plain (hwords : FromWords modify) (husers : modify.setUsermodes = [])
    (hpassword : ¬ modify.SetsPassword) (hlimit : ¬ modify.SetsLimit) :
    readModeLine (modeMessage modify basicModeFlags env store) =
      some (flagsRead false (setLetters modify basicModeFlags) ++
        flagsRead true (unsetLetters modify basicModeFlags) ++
        (if modify.UnsetsPassword then [.password []] else []) ++
        (if modify.UnsetsLimit then [.limit []] else []) ++
        usersRead true (usermodesItems env store modify.unsetUsermodes)) := by
  obtain ⟨extra, rest, hpart, hblank, hrest, hnames, -, hnone, hread⟩ :=
    @unset_part env store modify basicModeFlags hwords
  set letters := setLetters modify basicModeFlags with hletters
  set items := usermodesItems env store modify.unsetUsermodes with hitems
  have hline : modeMessage modify basicModeFlags env store =
      (signed (char '+') letters ++ extra) ++ rest := by
    rw [mode_message_eq, hpart]
    simp [setBody, setParams, husers, hpassword, hlimit, hletters]
  have hmodes : ∀ letter ∈ letters,
      letter ∈ modeLetters modify.setModeFlags (~~~basicModeFlags) := fun _ h => h
  have hunset : ∀ letter ∈ unsetLetters modify basicModeFlags, letter ∈
      modeLetters modify.unsetModeFlags (addedFlags modify basicModeFlags) := fun _ h => h
  -- the letters are read in the same way, whether there is a line or not
  have hall : readLetters false (signed (char '+') letters ++ extra) (items.map (·.2)) =
      some (flagsRead false letters ++ flagsRead true (unsetLetters modify basicModeFlags) ++
        (if modify.UnsetsPassword then [.password []] else []) ++
        (if modify.UnsetsLimit then [.limit []] else []) ++ usersRead true items) := by
    rw [(@read_signs false _ letters extra).1, read_flags hmodes, hread, List.append_assoc,
      List.append_assoc, read_flags hunset, ← List.append_assoc, read_unset_params,
      ← List.append_nil (items.map (·.1)), ← List.append_nil (items.map (·.2)),
      read_users fun item h => (user_letters h).1, read_no_letters, if_pos rfl]
    simp [← hitems]
  by_cases hempty : signed (char '+') letters ++ extra = []
  · have hnothing := hnone (List.append_eq_nil_iff.mp hempty).2
    have hnoNames : items.map (·.2) = [] := by
      rw [← hnames, hnothing]
      rfl
    rw [hempty, hnoNames] at hall
    rw [hline, hempty, hnothing]
    exact hall
  · have hword : IsWord (char ' ') (signed (char '+') letters ++ extra) := by
      refine ⟨hempty, ?_⟩
      have hplus : char ' ' ≠ char '+' := by decide
      have hnot := blank_not_mem_letters modify.setModeFlags (~~~basicModeFlags)
      rw [List.mem_append, not_or, signed]
      refine ⟨?_, hblank⟩
      split
      · simp
      · simp only [List.mem_cons, not_or]
        exact ⟨hplus, hnot⟩
    rw [readModeLine, hline, words_line hword hrest, hnames]
    exact hall

/-- A line that is laid out well is read as it is meant. -/
theorem mode_line_read (hwords : FromWords modify) (hlaid : LaidOut modify basicModeFlags) :
    readModeLine (modeMessage modify basicModeFlags env store) =
      some (announcements modify basicModeFlags (usermodesItems env store modify.setUsermodes)
        (usermodesItems env store modify.unsetUsermodes)) := by
  have hnoItems : usermodesItems env store [] = [] := rfl
  by_cases husers : modify.setUsermodes = []
  · by_cases hparams : modify.SetsPassword ∨ modify.SetsLimit
    · obtain ⟨extra, hextra, hread⟩ := @read_with_params env store modify
        basicModeFlags hwords husers hparams
      have htakes := hlaid.behind_params (.inr hparams)
      have hnothing := hextra.mpr htakes
      simp only [TakesSomething, not_or, not_not] at htakes
      obtain ⟨hletters, hpassword, hlimit, hunset⟩ := htakes
      rw [hread, hunset, hnoItems, List.map_nil, read_no_letters, if_pos rfl]
      simp [announcements, husers, hnoItems, hnothing, hletters, hpassword, hlimit, usersRead,
        flagsRead]
    · obtain ⟨hpassword, hlimit⟩ := not_or.mp hparams
      rw [read_plain hwords husers hpassword hlimit]
      simp [announcements, husers, hnoItems, hpassword, hlimit, usersRead]
  · obtain ⟨hpassword, hlimit⟩ := hlaid.behind_users husers
    have htakes := hlaid.behind_params (.inl husers)
    rw [read_with_users hwords husers, behind_users_nil.mpr ⟨hpassword, hlimit, htakes⟩]
    simp only [TakesSomething, not_or, not_not] at htakes
    obtain ⟨hletters, hunsetPassword, hunsetLimit, hunset⟩ := htakes
    show Option.map _ (some []) = _
    simp [announcements, hunset, hnoItems, hletters, hpassword, hlimit, hunsetPassword,
      hunsetLimit, usersRead, flagsRead]

/-- A line that is not laid out well is no MODE line, or it announces a password or a limit with
something at its end. -/
theorem mode_line_misread (hwords : FromWords modify) (hlaid : ¬ LaidOut modify basicModeFlags)
    {line : List Announcement}
    (hread : readModeLine (modeMessage modify basicModeFlags env store) = some line) :
    ∃ extra : Bytes, extra ≠ [] ∧
      ((modify.SetsLimit ∧ .limit (printInt modify.limit.toInt ++ extra) ∈ line) ∨
        (modify.SetsPassword ∧ .password (modify.password ++ extra) ∈ line)) := by
  by_cases husers : modify.setUsermodes = []
  · by_cases hparams : modify.SetsPassword ∨ modify.SetsLimit
    · obtain ⟨extra, hextra, hline⟩ := @read_with_params env store modify
        basicModeFlags hwords husers hparams
      have htakes : TakesSomething modify basicModeFlags := by
        by_contra hnone
        exact hlaid ⟨fun h => absurd husers h, fun _ => hnone⟩
      refine ⟨extra, fun h => hextra.mp h htakes, ?_⟩
      rw [hline] at hread
      obtain ⟨later, -, rfl⟩ := Option.map_eq_some_iff.mp hread
      by_cases hlimit : modify.SetsLimit
      · exact .inl ⟨hlimit, by simp [hlimit]⟩
      · have hpassword := hparams.resolve_right hlimit
        exact .inr ⟨hpassword, by simp [hlimit, hpassword]⟩
    · refine absurd ⟨fun h => absurd husers h, fun h => ?_⟩ hlaid
      rcases h with h | h
      · exact absurd husers h
      · exact absurd h hparams
  · have hbehind : behindUsers modify basicModeFlags
        (usermodesItems env store modify.unsetUsermodes) ≠ [] := by
      intro hnone
      obtain ⟨hpassword, hlimit, htakes⟩ := behind_users_nil.mp hnone
      exact hlaid ⟨fun _ => ⟨hpassword, hlimit⟩, fun _ => htakes⟩
    rw [read_with_users hwords husers, read_no_letters, if_neg (behind_users_word hbehind)] at hread
    cases hread

end Line

end OpenSpy.Peerchat
