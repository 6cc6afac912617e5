import OpenSpy.Peerchat.ChannelModes

/-!
# The order of a mode string

A mode string is read from left to right, but the request that is made of it keeps no order: it
has the flags that are given and those that are taken, one password and one limit. Below, the
items of a mode string are applied one after another to what a channel shows of its modes, and
`mode_in_order_iff` says when the request comes to the same.
-/

namespace OpenSpy.Peerchat.ModeOrder

open Bytes ChannelStore UserChannelFlag

/-- An item of a mode string, with its parameter. `-k` has the empty password and `-l` the limit
0. -/
inductive ModeItem where
  | userFlag (unset : Bool) (flag : BitVec 32) (name : Bytes)
  | password (text : Bytes)
  | limit (value : BitVec 32)
  | channelFlag (unset : Bool) (flag : BitVec 32)
  | missing (mode : UInt8)
  | other
  deriving DecidableEq, Repr

/-- An item with the next parameter, if there is one. -/
def withParam (mode : UInt8) (item : Bytes → ModeItem) : List Bytes → ModeItem × List Bytes
  | [] => (.missing mode, [])
  | param :: rest => (item param, rest)

/-- The item of a mode that is not a sign, and the parameters behind it. Bans are not items of
the channel. -/
def readItem (unset : Bool) (mode : UInt8) (params : List Bytes) : ModeItem × List Bytes :=
  if mode = char 'b' then (.other, params.tail)
  else if mode = char 'k' then
    if unset then (.password [], params) else withParam mode .password params
  else if mode = char 'l' then
    if unset then (.limit 0, params)
    else withParam mode (fun text => .limit (BitVec.ofInt 32 (atoi text))) params
  else if mode = char 'v' then withParam mode (.userFlag unset voice) params
  else if mode = char 'h' then withParam mode (.userFlag unset halfOp) params
  else if mode = char 'o' then withParam mode (.userFlag unset op) params
  else if mode = char 'O' then withParam mode (.userFlag unset owner) params
  else
    match channelModeFlagMap.find? (·.2 == mode) with
    | none => (.other, params)
    | some (flag, _) => (.channelFlag unset flag, params)

/-- The items of a mode string. -/
def modeItems (unset : Bool) (params : List Bytes) : Bytes → List ModeItem
  | [] => []
  | mode :: rest =>
      if mode = char '+' then modeItems false params rest
      else if mode = char '-' then modeItems true params rest
      else (readItem unset mode params).1 :: modeItems unset (readItem unset mode params).2 rest

/-- What a channel shows of its modes. There is no password if it is empty, and no limit if it
is 0. -/
@[ext] structure ModeView where
  modeflags : BitVec 32
  password : Bytes
  limit : BitVec 32
  userFlags : Int → BitVec 32

/-- The view of a channel in the store. -/
def viewOf (store : ChannelStore) (channelId : BitVec 32) : ModeView :=
  let channel := (store.channel channelId).getD .empty
  ⟨channel.modeflags, channel.password, channel.limit, lookupUserChannelModeFlags store channelId⟩

section Items

variable (userId : Bytes → Int)

/-- One item is applied. A name without a user changes nothing. -/
def applyItem (view : ModeView) : ModeItem → ModeView
  | .userFlag unset flag name =>
      if userId name = 0 then view
      else
        { view with
          userFlags := Function.update view.userFlags (userId name)
            (changeFlags unset (view.userFlags (userId name)) flag) }
  | .password text => { view with password := cString text }
  | .limit value => { view with limit := value }
  | .channelFlag unset flag => { view with modeflags := changeFlags unset view.modeflags flag }
  | .missing _ | .other => view

/-- The items are applied one after another. -/
def applyItems (view : ModeView) (items : List ModeItem) : ModeView :=
  items.foldl (applyItem userId) view

/-- The password of an item. -/
def ModeItem.password? : ModeItem → Option Bytes
  | .password text => some text
  | _ => none

/-- The limit of an item. -/
def ModeItem.limit? : ModeItem → Option (BitVec 32)
  | .limit value => some value
  | _ => none

/-- An item takes a flag from a user, or gives it. -/
def ModeItem.change? (user : Int) (flag : BitVec 32) : ModeItem → Option Bool
  | .userFlag unset changed name => if userId name = user ∧ changed = flag then some unset else none
  | _ => none

/-- The last password of the items. -/
def lastPassword (items : List ModeItem) : Option Bytes :=
  (items.filterMap ModeItem.password?).getLast?

/-- The last limit of the items. -/
def lastLimit (items : List ModeItem) : Option (BitVec 32) :=
  (items.filterMap ModeItem.limit?).getLast?

/-- The takings of a flag from a user, and the givings, in their order. -/
def changesOf (user : Int) (flag : BitVec 32) (items : List ModeItem) : List Bool :=
  items.filterMap (ModeItem.change? userId user flag)

/-- The order of the items does not matter: if `+k` lacks its password, another item has one or
the channel has none; if `+l` lacks its limit, another item has one; and a flag that is taken
from a user is not given to him behind that. -/
def OrderFree (password : Bytes) (items : List ModeItem) : Prop :=
  (.missing (char 'k') ∈ items → lastPassword items = none → password = []) ∧
    (.missing (char 'l') ∈ items → lastLimit items ≠ none) ∧
      ∀ user ≠ 0, ∀ flag, true ∈ changesOf userId user flag items →
        (changesOf userId user flag items).getLast? = some true

end Items

/-- What an item adds to the request. -/
def collect (modify : ChannelModify) : ModeItem → ChannelModify
  | .userFlag false flag name =>
      { modify with setUsermodes := orFlag name flag modify.setUsermodes }
  | .userFlag true flag name =>
      { modify with unsetUsermodes := orFlag name flag modify.unsetUsermodes }
  | .password text => { modify with updatePassword := true, password := text }
  | .limit value => { modify with updateLimit := true, limit := value }
  | .channelFlag false flag =>
      { modify with
        setModeFlags := modify.setModeFlags ||| flag
        unsetModeFlags := modify.unsetModeFlags &&& ~~~flag }
  | .channelFlag true flag =>
      { modify with
        setModeFlags := modify.setModeFlags &&& ~~~flag
        unsetModeFlags := modify.unsetModeFlags ||| flag }
  -- the letter without its parameter still sets the flag of the update
  | .missing mode =>
      if mode = char 'k' then { modify with updatePassword := true }
      else if mode = char 'l' then { modify with updateLimit := true }
      else modify
  | .other => modify

/-- The request that a parser has made so far. -/
def requestOf (parser : ModeParser) : ChannelModify :=
  { parser.modify with
    setModeFlags := parser.setFlags
    unsetModeFlags := parser.unsetFlags }

section Parser

variable {data params : List Bytes} {parser : ModeParser}

/-- A parser step reads an item: it keeps the sign, goes on behind the item's parameter, and adds
the item to the request. -/
def Reads (data : List Bytes) (parser next : ModeParser) (item : ModeItem × List Bytes) : Prop :=
  next.set = parser.set ∧ data.drop (next.lastOffset + 1) = item.2 ∧
    requestOf next = collect (requestOf parser) item.1

/-- The next parameter of the command. -/
theorem param_eq (hparams : data.drop (parser.lastOffset + 1) = params) :
    data[parser.lastOffset + 1]? = params.head? ∧
      data.drop (parser.lastOffset + 1 + 1) = params.tail := by
  subst hparams
  exact ⟨(List.head?_drop).symm, by simp⟩

theorem reads_user_flag (hparams : data.drop (parser.lastOffset + 1) = params)
    (flag : BitVec 32) {mode : UInt8} (hpassword : mode ≠ char 'k') (hlimit : mode ≠ char 'l') :
    Reads data parser (parseUserFlag data flag parser)
      (withParam mode (.userFlag (!parser.set) flag) params) := by
  obtain ⟨hhead, htail⟩ := param_eq hparams
  obtain ⟨set, setFlags, unsetFlags, lastOffset, modify, banMasks, lookup⟩ := parser
  simp only [parseUserFlag, hhead]
  cases params with
  | nil => exact ⟨rfl, htail, by simp [withParam, collect, hpassword, hlimit, requestOf]⟩
  | cons name rest => cases set <;> exact ⟨rfl, htail, rfl⟩

theorem reads_password (hparams : data.drop (parser.lastOffset + 1) = params) :
    Reads data parser (parsePassword data parser)
      (if !parser.set then (.password [], params)
        else withParam (char 'k') .password params) := by
  obtain ⟨hhead, htail⟩ := param_eq hparams
  obtain ⟨set, setFlags, unsetFlags, lastOffset, modify, banMasks, lookup⟩ := parser
  cases set with
  | false => exact ⟨rfl, hparams, rfl⟩
  | true =>
      simp only [parsePassword, hhead, if_true]
      cases params <;> exact ⟨rfl, htail, rfl⟩

theorem reads_limit (hparams : data.drop (parser.lastOffset + 1) = params) :
    Reads data parser (parseLimit data parser)
      (if !parser.set then (.limit 0, params)
        else withParam (char 'l') (fun text => .limit (BitVec.ofInt 32 (atoi text))) params) := by
  obtain ⟨hhead, htail⟩ := param_eq hparams
  obtain ⟨set, setFlags, unsetFlags, lastOffset, modify, banMasks, lookup⟩ := parser
  cases set with
  | false => exact ⟨rfl, hparams, rfl⟩
  | true =>
      simp only [parseLimit, hhead, if_true]
      cases params <;> exact ⟨rfl, htail, rfl⟩

theorem reads_ban (hparams : data.drop (parser.lastOffset + 1) = params) :
    Reads data parser (parseBan data parser) (.other, params.tail) := by
  obtain ⟨hhead, htail⟩ := param_eq hparams
  simp only [parseBan, hhead]
  cases params <;> exact ⟨rfl, htail, rfl⟩

theorem reads_channel_flag (hparams : data.drop (parser.lastOffset + 1) = params)
    (mode : UInt8) :
    Reads data parser (parseChannelFlag mode parser)
      (match channelModeFlagMap.find? (·.2 == mode) with
        | none => (.other, params)
        | some (flag, _) => (.channelFlag (!parser.set) flag, params)) := by
  obtain ⟨set, setFlags, unsetFlags, lastOffset, modify, banMasks, lookup⟩ := parser
  unfold parseChannelFlag
  cases channelModeFlagMap.find? (·.2 == mode) with
  | none => exact ⟨rfl, hparams, rfl⟩
  | some entry => cases set <;> exact ⟨rfl, hparams, rfl⟩

/-- The body of the loop reads one item, if the mode is not a sign. -/
theorem reads_mode (hparams : data.drop (parser.lastOffset + 1) = params) {mode : UInt8}
    (hplus : mode ≠ char '+') (hminus : mode ≠ char '-') :
    Reads data parser (parseMode data parser mode) (readItem (!parser.set) mode params) := by
  unfold parseMode readItem
  rw [if_neg hplus, if_neg hminus]
  by_cases hban : mode = char 'b'
  · rw [if_pos hban, if_pos hban]
    exact reads_ban hparams
  rw [if_neg hban, if_neg hban]
  by_cases hpassword : mode = char 'k'
  · rw [if_pos hpassword, if_pos hpassword, hpassword]
    exact reads_password hparams
  rw [if_neg hpassword, if_neg hpassword]
  by_cases hlimit : mode = char 'l'
  · rw [if_pos hlimit, if_pos hlimit, hlimit]
    exact reads_limit hparams
  rw [if_neg hlimit, if_neg hlimit]
  split_ifs
  · exact reads_user_flag hparams voice hpassword hlimit
  · exact reads_user_flag hparams halfOp hpassword hlimit
  · exact reads_user_flag hparams op hpassword hlimit
  · exact reads_user_flag hparams owner hpassword hlimit
  · exact reads_channel_flag hparams mode

/-- The loop collects the items of the mode string. -/
theorem parse_collects (hparams : data.drop (parser.lastOffset + 1) = params)
    (modeString : Bytes) :
    requestOf (modeString.foldl (parseMode data) parser) =
      (modeItems (!parser.set) params modeString).foldl collect (requestOf parser) := by
  induction modeString generalizing parser params with
  | nil => rfl
  | cons mode rest ih =>
      rw [List.foldl_cons, modeItems]
      split_ifs with hplus hminus
      · subst hplus
        exact ih hparams
      · subst hminus
        exact ih hparams
      · obtain ⟨hset, hnext, hrequest⟩ := reads_mode hparams hplus hminus
        rw [ih hnext, hset, hrequest, List.foldl_cons]

end Parser

/-- The request of a MODE command is collected from its items. -/
theorem requested_change_eq (unsetLimit : BitVec 32) (command channelName modeString : Bytes)
    (params : List Bytes) :
    requestedChange unsetLimit command channelName (modeString :: params) =
      (modeItems false params modeString).foldl collect (.empty unsetLimit) :=
  @parse_collects _ _ ⟨true, 0, 0, 2, .empty unsetLimit, [], false⟩ rfl modeString

section Collected

/-- The last of what a function finds in a list. -/
theorem last_concat {α β : Type*} (f : α → Option β) (l : List α) (a : α) :
    ((l ++ [a]).filterMap f).getLast? = (f a).or (l.filterMap f).getLast? := by
  rw [List.filterMap_append]
  cases ha : f a with
  | none => simp [ha]
  | some value => simp [ha]

/-- A loop that overwrites a field with what it finds in an element leaves what it found last. -/
theorem foldl_last {σ α β : Type*} {step : σ → α → σ} (field : σ → β) {f : α → Option β}
    (hstep : ∀ s a, field (step s a) = (f a).getD (field s)) (s : σ) (l : List α) :
    field (l.foldl step s) = (l.filterMap f).getLast?.getD (field s) := by
  induction l using List.reverseRecOn with
  | nil => rfl
  | append_singleton l a ih =>
      rw [List.foldl_concat, hstep, ih, last_concat]
      cases f a with
      | none => rfl
      | some value => rfl

/-- A loop that sets a flag at some elements. -/
theorem foldl_flag {σ α : Type*} {step : σ → α → σ} (flag : σ → Bool) {sets : α → Bool}
    (hstep : ∀ s a, flag (step s a) = (sets a || flag s)) (s : σ) (l : List α) :
    flag (l.foldl step s) = (l.any sets || flag s) := by
  induction l generalizing s with
  | nil => rfl
  | cons a l ih => rw [List.foldl_cons, ih, hstep, List.any_cons, Bool.or_left_comm, Bool.or_assoc]

/-- Some item has no parameter where one is due, or some has one. -/
theorem any_missing_or {β : Type*} (mode : UInt8) (f : ModeItem → Option β)
    (items : List ModeItem) :
    (items.any fun item => item = .missing mode || (f item).isSome) = true ↔
      .missing mode ∈ items ∨ (items.filterMap f).getLast? ≠ none := by
  simp only [List.any_eq_true, Bool.or_eq_true, decide_eq_true_eq, ne_eq, List.getLast?_eq_none_iff,
    List.filterMap_eq_nil_iff, not_forall, and_or_left, exists_or, exists_eq_right,
    Option.isSome_iff_ne_none, exists_prop]

/-- The password of the request is the last one, and it is changed if some item of it is there,
with its parameter or without. -/
theorem collected_password (unsetLimit : BitVec 32) (items : List ModeItem) :
    (items.foldl collect (.empty unsetLimit)).password = (lastPassword items).getD [] ∧
      ((items.foldl collect (.empty unsetLimit)).updatePassword = true ↔
        .missing (char 'k') ∈ items ∨ lastPassword items ≠ none) := by
  have hpassword : ∀ modify item,
      (collect modify item).password = item.password?.getD modify.password := by
    intro modify item
    cases item with
    | userFlag unset flag name => cases unset <;> rfl
    | channelFlag unset flag => cases unset <;> rfl
    | missing mode =>
        simp only [collect]
        split_ifs <;> rfl
    | _ => rfl
  have hupdate : ∀ modify item, (collect modify item).updatePassword =
      ((item = .missing (char 'k') || item.password?.isSome) || modify.updatePassword) := by
    intro modify item
    cases item with
    | userFlag unset flag name => cases unset <;> simp [collect, ModeItem.password?]
    | channelFlag unset flag => cases unset <;> simp [collect, ModeItem.password?]
    | missing mode =>
        simp only [collect]
        split_ifs with hk hl <;> simp [ModeItem.password?, hk]
    | _ => simp [collect, ModeItem.password?]
  refine ⟨foldl_last ChannelModify.password hpassword _ items, ?_⟩
  rw [foldl_flag ChannelModify.updatePassword hupdate _ items]
  show (_ || false) = true ↔ _
  rw [Bool.or_false]
  exact any_missing_or (char 'k') ModeItem.password? items

/-- So it is with the limit. -/
theorem collected_limit (unsetLimit : BitVec 32) (items : List ModeItem) :
    (items.foldl collect (.empty unsetLimit)).limit = (lastLimit items).getD unsetLimit ∧
      ((items.foldl collect (.empty unsetLimit)).updateLimit = true ↔
        .missing (char 'l') ∈ items ∨ lastLimit items ≠ none) := by
  have hlimit : ∀ modify item, (collect modify item).limit = item.limit?.getD modify.limit := by
    intro modify item
    cases item with
    | userFlag unset flag name => cases unset <;> rfl
    | channelFlag unset flag => cases unset <;> rfl
    | missing mode =>
        simp only [collect]
        split_ifs <;> rfl
    | _ => rfl
  have hupdate : ∀ modify item, (collect modify item).updateLimit =
      ((item = .missing (char 'l') || item.limit?.isSome) || modify.updateLimit) := by
    intro modify item
    cases item with
    | userFlag unset flag name => cases unset <;> simp [collect, ModeItem.limit?]
    | channelFlag unset flag => cases unset <;> simp [collect, ModeItem.limit?]
    | missing mode =>
        have hkl : char 'k' ≠ char 'l' := by decide
        simp only [collect]
        split_ifs with hk hl
        · simp [ModeItem.limit?, hk, hkl]
        · simp [ModeItem.limit?, hl]
        · simp [ModeItem.limit?, hl]
    | _ => simp [collect, ModeItem.limit?]
  refine ⟨foldl_last ChannelModify.limit hlimit _ items, ?_⟩
  rw [foldl_flag ChannelModify.updateLimit hupdate _ items]
  show (_ || false) = true ↔ _
  rw [Bool.or_false]
  exact any_missing_or (char 'l') ModeItem.limit? items

variable (userId : Bytes → Int) (view : ModeView) (items : List ModeItem)

/-- One after another, the last password stays. -/
theorem applied_password :
    (applyItems userId view items).password =
      ((lastPassword items).map cString).getD view.password := by
  have hstep : ∀ view item, (applyItem userId view item).password =
      (item.password?.map cString).getD view.password := by
    intro view item
    cases item with
    | userFlag unset flag name =>
        simp only [applyItem]
        split_ifs <;> rfl
    | _ => rfl
  rw [applyItems, foldl_last ModeView.password hstep, lastPassword, ← List.getLast?_map,
    List.map_filterMap]

/-- And the last limit. -/
theorem applied_limit :
    (applyItems userId view items).limit = (lastLimit items).getD view.limit := by
  have hstep : ∀ view item,
      (applyItem userId view item).limit = item.limit?.getD view.limit := by
    intro view item
    cases item with
    | userFlag unset flag name =>
        simp only [applyItem]
        split_ifs <;> rfl
    | _ => rfl
  exact foldl_last ModeView.limit hstep view items

/-- The flags of the channel are given and taken as the masks of the request say. -/
theorem applied_modeflags (unsetLimit : BitVec 32) :
    (applyItems userId view items).modeflags =
      changeFlags true (changeFlags false view.modeflags
        (items.foldl collect (.empty unsetLimit)).setModeFlags)
        (items.foldl collect (.empty unsetLimit)).unsetModeFlags := by
  induction items using List.reverseRecOn with
  | nil =>
      show view.modeflags = changeFlags true (changeFlags false view.modeflags 0) 0
      rw [change_flags_zero, change_flags_zero]
  | append_singleton items item ih =>
      rw [applyItems, List.foldl_concat, ← applyItems, List.foldl_concat]
      cases item with
      | userFlag unset flag name =>
          simp only [applyItem]
          split_ifs <;> cases unset <;> exact ih
      | password text => exact ih
      | limit value => exact ih
      | channelFlag unset flag =>
          ext bit hbit
          cases unset <;> simp only [applyItem, ih, collect, changeFlags, if_true,
            Bool.false_eq_true, if_false, BitVec.getElem_or, BitVec.getElem_and,
            BitVec.getElem_not] <;> cases flag[bit] <;> simp
      | missing mode =>
          simp only [applyItem, collect]
          split_ifs <;> exact ih
      | other => exact ih

end Collected

/-- The flags of a channel that MODE knows. -/
def KnownFlags (flags : BitVec 32) : Prop :=
  ∀ bit, flags.getLsbD bit = true → ∃ entry ∈ channelModeFlagMap, entry.1.getLsbD bit = true

/-- The items of a mode string change the flags of a channel that MODE knows, and one flag of a
user at a time. -/
def ModeItem.Known : ModeItem → Prop
  | .userFlag _ flag _ => ∃ bit < 32, flag = BitVec.twoPow 32 bit
  | .channelFlag _ flag => KnownFlags flag
  | _ => True

theorem with_param_known {mode : UInt8} {item : Bytes → ModeItem} (h : ∀ param, (item param).Known)
    (params : List Bytes) : (withParam mode item params).1.Known := by
  cases params with
  | nil => trivial
  | cons param rest => exact h param

theorem user_flag_known (unset : Bool) {bit : Nat} (hbit : bit < 32) (name : Bytes) :
    (ModeItem.userFlag unset (BitVec.twoPow 32 bit) name).Known :=
  ⟨bit, hbit, rfl⟩

theorem read_item_known (unset : Bool) (mode : UInt8) (params : List Bytes) :
    (readItem unset mode params).1.Known := by
  unfold readItem
  split_ifs
  · trivial
  · trivial
  · exact with_param_known (fun text => show (ModeItem.password text).Known from trivial) params
  · trivial
  · exact with_param_known (fun text => show (ModeItem.limit _).Known from trivial) params
  · exact with_param_known (fun _ => user_flag_known unset (by decide) _) params
  · exact with_param_known (fun _ => user_flag_known unset (by decide) _) params
  · exact with_param_known (fun _ => user_flag_known unset (by decide) _) params
  · exact with_param_known (fun _ => user_flag_known unset (by decide) _) params
  · cases hfind : channelModeFlagMap.find? (·.2 == mode) with
    | none => trivial
    | some entry => exact fun bit hbit => ⟨entry, List.mem_of_find?_eq_some hfind, hbit⟩

theorem mode_items_known (unset : Bool) (params : List Bytes) (modeString : Bytes) :
    ∀ item ∈ modeItems unset params modeString, item.Known := by
  induction modeString generalizing unset params with
  | nil => simp [modeItems]
  | cons mode rest ih =>
      rw [modeItems]
      split_ifs
      · exact ih false params
      · exact ih true params
      · intro item hitem
        rcases List.mem_cons.mp hitem with rfl | hitem
        · exact read_item_known unset mode params
        · exact ih _ _ item hitem

/-- The masks of the request have flags that MODE knows. -/
theorem collected_known (unsetLimit : BitVec 32) {items : List ModeItem}
    (hknown : ∀ item ∈ items, item.Known) :
    KnownFlags (items.foldl collect (.empty unsetLimit)).setModeFlags ∧
      KnownFlags (items.foldl collect (.empty unsetLimit)).unsetModeFlags := by
  induction items using List.reverseRecOn with
  | nil => constructor <;> intro bit hbit <;> simp [ChannelModify.empty] at hbit
  | append_singleton items item ih =>
      obtain ⟨hset, hunset⟩ := ih fun first hfirst => hknown first (by simp [hfirst])
      have hitem := hknown item (by simp)
      rw [List.foldl_concat]
      cases item with
      | userFlag unset flag name => cases unset <;> exact ⟨hset, hunset⟩
      | password text => exact ⟨hset, hunset⟩
      | limit value => exact ⟨hset, hunset⟩
      | channelFlag unset flag =>
          cases unset with
          | false =>
              refine ⟨fun bit hbit => ?_, fun bit hbit => ?_⟩
              · rw [collect, BitVec.getLsbD_or, Bool.or_eq_true] at hbit
                exact hbit.elim (hset bit) (hitem bit)
              · rw [collect, BitVec.getLsbD_and, Bool.and_eq_true] at hbit
                exact hunset bit hbit.1
          | true =>
              refine ⟨fun bit hbit => ?_, fun bit hbit => ?_⟩
              · rw [collect, BitVec.getLsbD_and, Bool.and_eq_true] at hbit
                exact hset bit hbit.1
              · rw [collect, BitVec.getLsbD_or, Bool.or_eq_true] at hbit
                exact hbit.elim (hunset bit) (hitem bit)
      | missing mode =>
          simp only [collect]
          split_ifs <;> exact ⟨hset, hunset⟩
      | other => exact ⟨hset, hunset⟩

/-- The loop over the known flags gives or takes those of a mask. -/
theorem known_flags_fold (unset : Bool) (mask flags : BitVec 32)
    (known : List (BitVec 32 × UInt8))
    (hknown : ∀ entry ∈ known, ∃ bit < 32, entry.1 = BitVec.twoPow 32 bit) {bit : Nat}
    (hlt : bit < 32) :
    (known.foldl (fun flags entry =>
        if hasFlag mask entry.1 then changeFlags unset flags entry.1 else flags) flags).getLsbD
          bit =
      if mask.getLsbD bit = true ∧ ∃ entry ∈ known, entry.1.getLsbD bit = true then !unset
      else flags.getLsbD bit := by
  induction known generalizing flags with
  | nil => simp
  | cons entry rest ih =>
      obtain ⟨other, hother, hentry⟩ := hknown entry List.mem_cons_self
      have hbit : entry.1.getLsbD bit = decide (bit = other) := by
        rw [hentry, BitVec.getLsbD_twoPow]
        simp [hother, eq_comm]
      have hstep : (if hasFlag mask entry.1 then changeFlags unset flags entry.1
          else flags).getLsbD bit =
            if mask.getLsbD bit = true ∧ bit = other then !unset else flags.getLsbD bit := by
        rw [hentry, has_flag_two_pow _ _ hother]
        by_cases heq : bit = other
        · subst heq
          cases hmask : mask.getLsbD bit with
          | false => simp
          | true => cases unset <;> simp [changeFlags, hother]
        · have hne : ¬ other = bit := fun h => heq h.symm
          simp only [heq, and_false, if_false]
          split_ifs with hmask
          · cases unset with
            | false => simp [changeFlags, BitVec.getLsbD_twoPow, hne]
            | true => simp [changeFlags, heq, hlt]
          · rfl
      rw [List.foldl_cons, ih _ fun entry hmem => hknown entry (List.mem_cons_of_mem _ hmem), hstep]
      simp only [List.mem_cons, exists_eq_or_imp, hbit, decide_eq_true_eq]
      set later := ∃ entry ∈ rest, entry.1.getLsbD bit = true
      have hsplit : mask.getLsbD bit = true ∧ (bit = other ∨ later) ↔
          (mask.getLsbD bit = true ∧ later) ∨ (mask.getLsbD bit = true ∧ bit = other) := by
        rw [and_or_left, or_comm]
      -- an entry behind this one would write the same value again
      by_cases hlater : mask.getLsbD bit = true ∧ later
      · rw [if_pos hlater, if_pos (hsplit.mpr (.inl hlater))]
      · rw [if_neg hlater, if_congr (hsplit.trans (or_iff_right hlater)) rfl rfl]

/-- Over the whole map, a mask of known flags is given or taken at once. -/
theorem channel_flags_fold (unset : Bool) {mask : BitVec 32} (hmask : KnownFlags mask)
    (flags : BitVec 32) :
    channelModeFlagMap.foldl (fun flags entry =>
        if hasFlag mask entry.1 then changeFlags unset flags entry.1 else flags) flags =
      changeFlags unset flags mask := by
  have hall : channelModeFlagMap.all (fun entry =>
      (List.range 32).any fun bit => entry.1 == BitVec.twoPow 32 bit) = true := by decide
  have hknown : ∀ entry ∈ channelModeFlagMap, ∃ bit < 32, entry.1 = BitVec.twoPow 32 bit := by
    intro entry hmem
    simpa using List.all_eq_true.mp hall entry hmem
  refine BitVec.eq_of_getLsbD_eq fun bit hlt => ?_
  rw [known_flags_fold unset mask flags channelModeFlagMap hknown hlt,
    if_congr (and_iff_left_of_imp (hmask bit)) rfl rfl]
  cases unset
  · simp only [changeFlags, Bool.false_eq_true, if_false, BitVec.getLsbD_or, Bool.not_false]
    cases mask.getLsbD bit <;> simp
  · simp only [changeFlags, if_true, BitVec.getLsbD_and, BitVec.getLsbD_not, hlt, decide_true,
      Bool.true_and, Bool.not_true]
    cases mask.getLsbD bit <;> simp

/-- So the flags of the channel are changed as the masks of the request say. -/
theorem update_basic_flags_eq {modify : ChannelModify} (hset : KnownFlags modify.setModeFlags)
    (hunset : KnownFlags modify.unsetModeFlags) (flags : BitVec 32) :
    updateBasicFlags modify flags =
      changeFlags true (changeFlags false flags modify.setModeFlags) modify.unsetModeFlags := by
  rw [← channel_flags_fold false hset, ← channel_flags_fold true hunset]
  rfl

section Users

variable (env : Environment) (store : ChannelStore)

/-- The id of the user of a name, or 0. -/
abbrev idOf (name : Bytes) : Int :=
  (getUserSummaryByName env store name).id

/-- A flag that is added under a name is added for its user. -/
theorem named_flags_or_flag (user : Int) (name : Bytes) (flag : BitVec 32) (usermodes : FlagMap) :
    namedFlags env store user (orFlag name flag usermodes) =
      namedFlags env store user usermodes ||| if idOf env store name = user then flag else 0 := by
  induction usermodes with
  | nil =>
      have hnil : namedFlags env store user [] = 0 := rfl
      rw [orFlag, named_flags_cons, hnil, BitVec.or_comm]
  | cons entry rest ih =>
      obtain ⟨first, flags⟩ := entry
      rw [orFlag]
      by_cases heq : name = first
      · subst heq
        rw [if_pos rfl, named_flags_cons, named_flags_cons]
        by_cases huser : idOf env store name = user
        · rw [if_pos huser, if_pos huser, if_pos huser]
          show flags ||| flag ||| _ = flags ||| _ ||| flag
          rw [BitVec.or_assoc, BitVec.or_comm flag, BitVec.or_assoc]
        · rw [if_neg huser, if_neg huser, if_neg huser]
          exact BitVec.or_zero.symm
      rw [if_neg heq]
      by_cases hlt : name < first
      · rw [if_pos hlt, named_flags_cons, BitVec.or_comm]
      · rw [if_neg hlt, named_flags_cons, named_flags_cons, ih, BitVec.or_assoc]

/-- The bits of one flag. -/
theorem two_pow_bit {bit other : Nat} (hother : other < 32) :
    (BitVec.twoPow 32 other).getLsbD bit = decide (other = bit) := by
  simp [BitVec.getLsbD_twoPow, hother]

/-- A known change of a user's flags is one of the changes of a flag if it is for the user and of
this flag. -/
theorem change_eq (userId : Bytes → Int) (user : Int) (unset : Bool) (name : Bytes)
    {bit other : Nat} (hother : other < 32) :
    (ModeItem.userFlag unset (BitVec.twoPow 32 other) name).change? userId user
        (BitVec.twoPow 32 bit) =
      if userId name = user ∧ other = bit then some unset else none := by
  have hflag : BitVec.twoPow 32 other = BitVec.twoPow 32 bit ↔ other = bit := by
    refine ⟨fun h => ?_, fun h => by rw [h]⟩
    have hget := congrArg (fun flags => flags.getLsbD other) h
    rw [two_pow_bit hother] at hget
    simpa [BitVec.getLsbD_twoPow, hother, eq_comm] using hget
  simp only [ModeItem.change?, hflag]

theorem changes_concat (userId : Bytes → Int) (user : Int) (flag : BitVec 32)
    (items : List ModeItem) (item : ModeItem) :
    changesOf userId user flag (items ++ [item]) =
      changesOf userId user flag items ++ (item.change? userId user flag).toList := by
  rw [changesOf, List.filterMap_append, ← changesOf]
  cases hchange : item.change? userId user flag <;> simp [hchange]

/-- The request gives a user the flags that some item gives him, and takes those that some item
takes from him. -/
theorem collected_users (unsetLimit : BitVec 32) (user : Int) (bit : Nat)
    {items : List ModeItem} (hknown : ∀ item ∈ items, item.Known) :
    (namedFlags env store user
          (items.foldl collect (.empty unsetLimit)).setUsermodes).getLsbD bit =
        decide (false ∈ changesOf (idOf env store) user (BitVec.twoPow 32 bit) items) ∧
      (namedFlags env store user
          (items.foldl collect (.empty unsetLimit)).unsetUsermodes).getLsbD bit =
        decide (true ∈ changesOf (idOf env store) user (BitVec.twoPow 32 bit) items) := by
  induction items using List.reverseRecOn with
  | nil => simp [ChannelModify.empty, namedFlags, changesOf]
  | append_singleton items item ih =>
      have hprevious := ih fun first hfirst => hknown first (by simp [hfirst])
      have hitem := hknown item (by simp)
      rw [List.foldl_concat, changes_concat]
      cases item with
      | userFlag unset flag name =>
          obtain ⟨other, hother, rfl⟩ := hitem
          have hbit : (if idOf env store name = user then BitVec.twoPow 32 other
              else 0).getLsbD bit = decide (idOf env store name = user ∧ other = bit) := by
            split_ifs with huser <;> simp [huser, two_pow_bit hother]
          rw [change_eq _ _ _ _ hother]
          -- the bit is changed by this item, or as by those before it
          by_cases hchange : idOf env store name = user ∧ other = bit
          · obtain ⟨huser, rfl⟩ := hchange
            cases unset <;> simp only [collect, named_flags_or_flag, BitVec.getLsbD_or, hbit,
              hprevious] <;> simp [huser]
          · cases unset <;> simp only [collect, named_flags_or_flag, BitVec.getLsbD_or, hbit,
              hprevious, hchange] <;> simp
      | password text => simpa [collect, ModeItem.change?] using hprevious
      | limit value => simpa [collect, ModeItem.change?] using hprevious
      | channelFlag unset flag =>
          cases unset <;> simpa [collect, ModeItem.change?] using hprevious
      | missing mode =>
          simp only [collect]
          split_ifs <;> simpa [ModeItem.change?] using hprevious
      | other => simpa [collect, ModeItem.change?] using hprevious

/-- One after another, the last change of a flag of a user stays. -/
theorem applied_users (view : ModeView) {user : Int} (huser : user ≠ 0) {bit : Nat}
    (hbit : bit < 32) (userId : Bytes → Int) {items : List ModeItem}
    (hknown : ∀ item ∈ items, item.Known) :
    ((applyItems userId view items).userFlags user).getLsbD bit =
      (((changesOf userId user (BitVec.twoPow 32 bit) items).getLast?).map (!·)).getD
        ((view.userFlags user).getLsbD bit) := by
  induction items using List.reverseRecOn with
  | nil => rfl
  | append_singleton items item ih =>
      have hprevious := ih fun first hfirst => hknown first (by simp [hfirst])
      have hitem := hknown item (by simp)
      rw [applyItems, List.foldl_concat, ← applyItems, changesOf, last_concat, ← changesOf]
      cases item with
      | userFlag unset flag name =>
          obtain ⟨other, hother, rfl⟩ := hitem
          rw [change_eq _ _ _ _ hother]
          by_cases hchange : userId name = user ∧ other = bit
          · obtain ⟨hname, rfl⟩ := hchange
            cases unset <;> simp [applyItem, hname, huser, changeFlags, hother]
          · rw [if_neg hchange, Option.none_or, ← hprevious]
            simp only [applyItem]
            split_ifs with hzero
            · rfl
            · by_cases hname : user = userId name
              · have hne : other ≠ bit := fun heq => hchange ⟨hname.symm, heq⟩
                rw [← hname]
                cases unset <;> simp [changeFlags, hbit, Ne.symm hne]
              · simp [hname]
      | password text => exact hprevious
      | limit value => exact hprevious
      | channelFlag unset flag => exact hprevious
      | missing mode => exact hprevious
      | other => exact hprevious

/-- No item is for the user without an id. -/
theorem applied_nobody (userId : Bytes → Int) (view : ModeView) (items : List ModeItem) :
    (applyItems userId view items).userFlags 0 = view.userFlags 0 := by
  induction items using List.reverseRecOn with
  | nil => rfl
  | append_singleton items item ih =>
      rw [applyItems, List.foldl_concat, ← applyItems]
      cases item with
      | userFlag unset flag name =>
          simp only [applyItem]
          split_ifs with hzero
          · exact ih
          · exact (Function.update_of_ne (Ne.symm hzero) _ _).trans ih
      | password text => exact ih
      | limit value => exact ih
      | channelFlag unset flag => exact ih
      | missing mode => exact ih
      | other => exact ih

end Users

/-- Only a flag that is one bit is changed. -/
theorem changed_flag {userId : Bytes → Int} {user : Int} {flag : BitVec 32}
    {items : List ModeItem} (hknown : ∀ item ∈ items, item.Known) {unset : Bool}
    (h : unset ∈ changesOf userId user flag items) : ∃ bit < 32, flag = BitVec.twoPow 32 bit := by
  obtain ⟨item, hitem, hchange⟩ := List.mem_filterMap.mp h
  have hone := hknown item hitem
  cases item with
  | userFlag unset changed name =>
      simp only [ModeItem.change?] at hchange
      split_ifs at hchange with heq
      exact heq.2 ▸ hone
  | password text => cases hchange
  | limit value => cases hchange
  | channelFlag unset flag => cases hchange
  | missing mode => cases hchange
  | other => cases hchange

/-- The last change is a taking if there is one, exactly if the flag is as if all givings came
before all takings. -/
theorem last_change_iff (changes : List Bool) (flag : Bool) :
    ((flag || decide (false ∈ changes)) && !decide (true ∈ changes)) =
        (changes.getLast?.map (!·)).getD flag ↔
      (true ∈ changes → changes.getLast? = some true) := by
  cases hlast : changes.getLast? with
  | none => simp [List.getLast?_eq_none_iff.mp hlast]
  | some last =>
      have hmem : last ∈ changes := List.mem_of_getLast? hlast
      cases last with
      | false => by_cases htrue : true ∈ changes <;> simp [hmem, htrue]
      | true => simp [hmem]

section Perform

variable (env : Environment) (unsetLimit : BitVec 32) {peer : ChatPeer} (channelName : Bytes)

/-- Giving or taking flags of users leaves the channels alone. -/
theorem channels_set_usermodes (channelId : BitVec 32) (unset : Bool) (usermodes : FlagMap)
    (store : ChannelStore) :
    (handleSetUsermodes env channelId unset usermodes store).channel = store.channel := by
  induction usermodes generalizing store with
  | nil => rfl
  | cons item usermodes ih =>
      refine (ih _).trans ?_
      unfold handleSetUsermode
      simp only
      split <;> rfl

/-- What a request that passes the checks makes of a channel. -/
theorem view_of_success (modify : ChannelModify) (store : ChannelStore)
    (hsuccess : (performUpdateChannelModes env peer channelName modify store).2 = .success) :
    let channelId := (getChannelSummaryByName env store channelName).channelId
    let before := viewOf store channelId
    viewOf (performUpdateChannelModes env peer channelName modify store).1 channelId =
      { modeflags := updateBasicFlags modify before.modeflags
        password := if modify.updatePassword then cString modify.password else before.password
        limit := if modify.updateLimit then modify.limit else before.limit
        userFlags := fun user =>
          if user = 0 then before.userFlags 0
          else
            changeFlags true (changeFlags false (before.userFlags user)
              (namedFlags env store user modify.setUsermodes))
              (namedFlags env store user modify.unsetUsermodes) } := by
  intro channelId before
  set given := handleSetUsermodes env channelId false modify.setUsermodes store with hgiven
  set taken := handleSetUsermodes env channelId true modify.unsetUsermodes given with htaken
  have hchannels : taken.channel = store.channel :=
    (channels_set_usermodes env channelId true _ given).trans
      (channels_set_usermodes env channelId false _ store)
  have hrun : (performUpdateChannelModes env peer channelName modify store).1 =
      { taken with
        channel := Function.update taken.channel channelId
          (some (updateChannelHash env peer modify
            ((taken.channel channelId).getD .empty))) } := by
    revert hsuccess
    simp only [performUpdateChannelModes]
    split
    · intro hnone
      cases hnone
    · split
      · intro hrefused
        cases hrefused
      · exact fun _ => rfl
  have hhash : ∀ channel, (updateChannelHash env peer modify channel).modeflags =
        updateBasicFlags modify channel.modeflags ∧
      (updateChannelHash env peer modify channel).password =
        (if modify.updatePassword then cString modify.password else channel.password) ∧
      (updateChannelHash env peer modify channel).limit =
        if modify.updateLimit then modify.limit else channel.limit := by
    intro channel
    unfold updateChannelHash
    simp only
    split_ifs <;> exact ⟨rfl, rfl, rfl⟩
  obtain ⟨hmodeflags, hpassword, hlimit⟩ := hhash ((taken.channel channelId).getD .empty)
  have husers : lookupUserChannelModeFlags taken channelId = fun user =>
      if user = 0 then lookupUserChannelModeFlags store channelId 0
      else
        changeFlags true (changeFlags false (lookupUserChannelModeFlags store channelId user)
          (namedFlags env store user modify.setUsermodes))
          (namedFlags env store user modify.unsetUsermodes) := by
    funext user
    split_ifs with huser
    · rw [huser, htaken, set_usermodes_zero, hgiven, set_usermodes_zero]
    · have hnames : namedFlags env given user modify.unsetUsermodes =
          namedFlags env store user modify.unsetUsermodes := by
        simp only [namedFlags, hgiven, names_set_usermodes]
      rw [htaken, set_usermodes_flags env channelId true _ given huser, hnames, hgiven,
        set_usermodes_flags env channelId false _ store huser]
  rw [hrun]
  simp only [viewOf, Function.update_self, Option.getD_some, hmodeflags, hpassword, hlimit]
  rw [hchannels]
  refine ModeView.ext rfl rfl rfl ?_
  exact husers

/-- With the privilege to override, the request is carried out on a channel that is there. -/
theorem perform_success (hoverride : peer.hasPrivilege operOverride = true)
    (modify : ChannelModify) (store : ChannelStore)
    (hchannel : (getChannelSummaryByName env store channelName).channelId ≠ 0) :
    (performUpdateChannelModes env peer channelName modify store).2 = .success := by
  have hallowed : ∀ flags, checkActionPermissions peer flags 0 halfOp = true := by
    intro flags
    rw [checkActionPermissions, hoverride, if_pos rfl]
  have hchange : ∀ flags, checkChannelUserModeChange env store peer channelName flags
      modify.setUsermodes modify.unsetUsermodes = true := by
    intro flags
    simp only [checkChannelUserModeChange, hoverride, if_true]
  simp only [performUpdateChannelModes, hallowed, hchange]
  rw [if_neg hchannel]
  rfl

/-- The view that a request with these items leaves behind. -/
theorem view_of_items (hoverride : peer.hasPrivilege operOverride = true) (store : ChannelStore)
    (command modeString : Bytes) (params : List Bytes)
    (hchannel : (getChannelSummaryByName env store channelName).channelId ≠ 0) :
    let channelId := (getChannelSummaryByName env store channelName).channelId
    let items := modeItems false params modeString
    let before := viewOf store channelId
    viewOf (runMode env unsetLimit peer command channelName (modeString :: params) store)
        channelId =
      { modeflags := (applyItems (idOf env store) before items).modeflags
        password :=
          if .missing (char 'k') ∈ items ∨ lastPassword items ≠ none then
            cString ((lastPassword items).getD [])
          else before.password
        limit :=
          if .missing (char 'l') ∈ items ∨ lastLimit items ≠ none then
            (lastLimit items).getD unsetLimit
          else before.limit
        userFlags := fun user =>
          if user = 0 then before.userFlags 0
          else
            changeFlags true (changeFlags false (before.userFlags user)
              (namedFlags env store user (items.foldl collect (.empty unsetLimit)).setUsermodes))
              (namedFlags env store user
                (items.foldl collect (.empty unsetLimit)).unsetUsermodes) } := by
  intro channelId items before
  obtain ⟨hpassword, hupdatePassword⟩ := collected_password unsetLimit items
  obtain ⟨hlimit, hupdateLimit⟩ := collected_limit unsetLimit items
  obtain ⟨hset, hunset⟩ := collected_known unsetLimit (mode_items_known false params modeString)
  rw [run_mode_flags, view_of_success env channelName _ store
      (perform_success env channelName hoverride _ store hchannel),
    requested_change_eq, update_basic_flags_eq hset hunset,
    ← applied_modeflags (idOf env store)]
  refine ModeView.ext rfl ?_ ?_ rfl
  · exact (if_congr hupdatePassword (by rw [hpassword]) rfl)
  · exact (if_congr hupdateLimit hlimit rfl)

/-- The password is that of the last item if and only if a missing one does not count. -/
theorem password_same_iff (userId : Bytes → Int) (before : ModeView) (items : List ModeItem) :
    (if .missing (char 'k') ∈ items ∨ lastPassword items ≠ none then
        cString ((lastPassword items).getD []) else before.password) =
      (applyItems userId before items).password ↔
        (.missing (char 'k') ∈ items → lastPassword items = none → before.password = []) := by
  rw [applied_password]
  cases lastPassword items with
  | none =>
      by_cases hmissing : .missing (char 'k') ∈ items
      · simp [hmissing, cString]
      · simp [hmissing]
  | some text => simp

/-- The limit is that of the last item, whatever is in the memory of the limit, if and only if
it is not missing. -/
theorem limit_same_iff (userId : Bytes → Int) (before : ModeView) (items : List ModeItem) :
    (∀ unsetLimit, (if .missing (char 'l') ∈ items ∨ lastLimit items ≠ none then
        (lastLimit items).getD unsetLimit else before.limit) =
      (applyItems userId before items).limit) ↔
        (.missing (char 'l') ∈ items → lastLimit items ≠ none) := by
  rw [applied_limit]
  cases lastLimit items with
  | none =>
      by_cases hmissing : .missing (char 'l') ∈ items
      · simp only [hmissing, true_or, if_true, Option.getD_none, ne_eq, not_true_eq_false,
          imp_false, iff_false]
        intro hall
        -- the memory may hold any limit, and one differs from that of the channel
        have hflip := hall (before.limit + 1)
        simp at hflip
      · simp [hmissing]
  | some value => simp

/-- The flags of a user are those that the items leave if and only if no flag is given after it
is taken. -/
theorem user_flags_same_iff (store : ChannelStore) (before : ModeView) {items : List ModeItem}
    (hknown : ∀ item ∈ items, item.Known) {user : Int} (huser : user ≠ 0) :
    changeFlags true (changeFlags false (before.userFlags user)
        (namedFlags env store user (items.foldl collect (.empty unsetLimit)).setUsermodes))
        (namedFlags env store user (items.foldl collect (.empty unsetLimit)).unsetUsermodes) =
      (applyItems (idOf env store) before items).userFlags user ↔
    ∀ flag, true ∈ changesOf (idOf env store) user flag items →
      (changesOf (idOf env store) user flag items).getLast? = some true := by
  have hbits : ∀ bit < 32,
      (changeFlags true (changeFlags false (before.userFlags user)
        (namedFlags env store user (items.foldl collect (.empty unsetLimit)).setUsermodes))
        (namedFlags env store user
          (items.foldl collect (.empty unsetLimit)).unsetUsermodes)).getLsbD bit =
      (((before.userFlags user).getLsbD bit ||
        decide (false ∈ changesOf (idOf env store) user (BitVec.twoPow 32 bit) items)) &&
        !decide (true ∈ changesOf (idOf env store) user (BitVec.twoPow 32 bit) items)) := by
    intro bit hlt
    obtain ⟨hgiven, htaken⟩ := collected_users env store unsetLimit user bit hknown
    simp only [changeFlags, if_true, Bool.false_eq_true, if_false, BitVec.getLsbD_and,
      BitVec.getLsbD_or, BitVec.getLsbD_not, hlt, decide_true, Bool.true_and]
    rw [hgiven, htaken]
  constructor
  · intro heq flag htaken
    obtain ⟨bit, hlt, rfl⟩ := changed_flag hknown htaken
    have hbit := hbits bit hlt
    rw [heq, applied_users before huser hlt (idOf env store) hknown] at hbit
    exact (last_change_iff _ _).mp hbit.symm htaken
  · intro hlast
    refine BitVec.eq_of_getLsbD_eq fun bit hlt => ?_
    rw [hbits bit hlt, applied_users before huser hlt (idOf env store) hknown]
    exact (last_change_iff _ _).mpr (hlast _)

/-- A MODE command of an operator who may override leaves a channel as the items of its mode
string would one after another, whatever is in the memory of the limit, if and only if their
order does not matter. -/
theorem mode_in_order_iff (hoverride : peer.hasPrivilege operOverride = true)
    (store : ChannelStore) (command modeString : Bytes) (params : List Bytes)
    (hchannel : (getChannelSummaryByName env store channelName).channelId ≠ 0) :
    let channelId := (getChannelSummaryByName env store channelName).channelId
    let items := modeItems false params modeString
    (∀ unsetLimit, viewOf (runMode env unsetLimit peer command channelName (modeString :: params)
        store) channelId = applyItems (idOf env store) (viewOf store channelId) items) ↔
      OrderFree (idOf env store) (viewOf store channelId).password items := by
  intro channelId items
  set before := viewOf store channelId with hbefore
  have hview := fun unsetLimit =>
    view_of_items env unsetLimit channelName hoverride store command modeString params hchannel
  have hpassword := password_same_iff (idOf env store) before items
  have hlimit := limit_same_iff (idOf env store) before items
  have hflags := fun unsetLimit user (huser : user ≠ 0) =>
    user_flags_same_iff env unsetLimit store before (mode_items_known false params modeString)
      huser
  constructor
  · intro hall
    have hparts := fun unsetLimit =>
      ModeView.ext_iff.mp ((hview unsetLimit).symm.trans (hall unsetLimit))
    refine ⟨hpassword.mp (hparts 0).2.1, hlimit.mp fun unsetLimit => (hparts unsetLimit).2.2.1,
      fun user huser => (hflags 0 user huser).mp ?_⟩
    have huserFlags := congrFun (hparts 0).2.2.2 user
    simpa only [huser, if_false] using huserFlags
  · rintro ⟨hfreePassword, hfreeLimit, hfreeUsers⟩ unsetLimit
    refine (hview unsetLimit).trans (ModeView.ext rfl (hpassword.mpr hfreePassword)
      (hlimit.mpr hfreeLimit unsetLimit) (funext fun user => ?_))
    by_cases huser : user = 0
    · subst huser
      exact (applied_nobody (idOf env store) before items).symm
    · simp only [huser, if_false]
      exact (hflags unsetLimit user huser).mpr (hfreeUsers user huser)

end Perform

/-- An operator who may override has joined a channel. -/
def operatorStore : ChannelStore :=
  (MemberTask.join (chatPeer 1 (ascii "alice") 32) ⟨ascii "#a", [], 0⟩).run quietEnvironment
    twoUsers

/-- The order of one item does not matter. -/
theorem voice_in_order :
    viewOf (runMode quietEnvironment 0 (chatPeer 1 (ascii "alice") 32) (ascii "MODE")
        (ascii "#a") [ascii "+v", ascii "alice"] operatorStore)
        (getChannelSummaryByName quietEnvironment operatorStore (ascii "#a")).channelId =
      applyItems (idOf quietEnvironment operatorStore)
        (viewOf operatorStore
          (getChannelSummaryByName quietEnvironment operatorStore (ascii "#a")).channelId)
        (modeItems false [ascii "alice"] (ascii "+v")) := by
  have hitems : modeItems false [ascii "alice"] (ascii "+v") =
      [.userFlag false voice (ascii "alice")] := by decide
  refine (mode_in_order_iff quietEnvironment (ascii "#a") (by decide) operatorStore (ascii "MODE")
    (ascii "+v") [ascii "alice"] (by decide)).mpr ?_ 0
  rw [hitems]
  refine ⟨by decide, by decide, fun user _ flag htaken => ?_⟩
  obtain ⟨item, hitem, hchange⟩ := List.mem_filterMap.mp htaken
  rw [List.mem_singleton.mp hitem] at hchange
  simp [ModeItem.change?] at hchange

/-- A flag that is taken and given again is gone. -/
theorem op_taken_and_given_lost :
    ¬ ∀ store, ReachableStore store → ∀ (env : Environment) (unsetLimit : BitVec 32)
      (peer : ChatPeer) (command channelName modeString : Bytes) (params : List Bytes),
      peer.hasPrivilege operOverride = true →
      (getChannelSummaryByName env store channelName).channelId ≠ 0 →
      viewOf (runMode env unsetLimit peer command channelName (modeString :: params) store)
          (getChannelSummaryByName env store channelName).channelId =
        applyItems (idOf env store)
          (viewOf store (getChannelSummaryByName env store channelName).channelId)
          (modeItems false params modeString) := by
  intro h
  have hview := h operatorStore (.task quietEnvironment _ (.start _ _)) quietEnvironment 0
    (chatPeer 1 (ascii "alice") 32) (ascii "MODE") (ascii "#a") (ascii "-o+o")
    [ascii "alice", ascii "alice"] (by decide) (by decide)
  have hflags := congrArg (fun view => hasFlag (view.userFlags 1) op) hview
  exact absurd hflags (by decide)

end OpenSpy.Peerchat.ModeOrder
