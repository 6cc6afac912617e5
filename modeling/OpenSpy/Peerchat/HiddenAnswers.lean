import OpenSpy.Peerchat.Occasions

/-!
# Answers about hidden members

The replies to NAMES, WHO and LIST are made from the members who are not invisible. A GETCKEY of all
users is ended for an invisible member, too, and WHOIS tests the flags of the peer that asks.
-/

namespace OpenSpy.Peerchat

open Bytes Redis UserChannelFlag ChannelMode ChannelStore

/-- The channel without its invisible members. -/
def ChannelSummary.hideInvisible (summary : ChannelSummary) : ChannelSummary :=
  { summary with users := summary.users.filter fun user => !hasFlag user.modeflags invisible }

section Answers

variable {env : Environment} {viewer : Viewer} {backing : Backing} {member : ChatPeer}
  {channelId : BitVec 32}

/-- A member who is passed over anyway may be left out. -/
theorem filter_hidden (seeInvisible : Bool) (hsee : seeInvisible = false)
    (basicModeFlags : BitVec 32) (users : List ChannelUserSummary) :
    (users.filter fun user => !hasFlag user.modeflags invisible).filter
        (!memberHidden viewer seeInvisible basicModeFlags ·) =
      users.filter (!memberHidden viewer seeInvisible basicModeFlags ·) := by
  rw [List.filter_filter]
  refine List.filter_congr fun user _ => ?_
  subst hsee
  cases hflag : hasFlag user.modeflags invisible <;> simp [memberHidden, hflag]

theorem on_names_hide_invisible (hprivilege : viewer.peer.hasPrivilege operInvisible = false)
    (summary : ChannelSummary) :
    onNamesFetchChannelInfo env viewer summary.hideInvisible =
      onNamesFetchChannelInfo env viewer summary := by
  simp only [onNamesFetchChannelInfo, ChannelSummary.hideInvisible, filter_hidden _ hprivilege]

theorem on_who_hide_invisible (name : Bytes) (summary : ChannelSummary) :
    onWhoFetchChannelInfo env viewer name summary.hideInvisible =
      onWhoFetchChannelInfo env viewer name summary := by
  simp only [onWhoFetchChannelInfo, ChannelSummary.hideInvisible, filter_hidden false rfl]

theorem list_count_hide_invisible (hprivilege : viewer.peer.hasPrivilege operInvisible = false)
    (summary : ChannelSummary) :
    getListUserCount viewer summary.hideInvisible = getListUserCount viewer summary := by
  simp [getListUserCount, ChannelSummary.hideInvisible, hprivilege]

theorem on_list_hide_invisible (hprivilege : viewer.peer.hasPrivilege operInvisible = false)
    (specialInfo : Bool) (summaries : List ChannelSummary) :
    onListChannels env viewer specialInfo (summaries.map (·.hideInvisible)) =
      onListChannels env viewer specialInfo summaries := by
  have hshows : listShows viewer ∘ (·.hideInvisible) = listShows viewer := by
    funext summary
    simp only [Function.comp_apply, listShows, list_count_hide_invisible hprivilege]
    rfl
  rw [onListChannels, onListChannels, List.filter_map, List.map_map, hshows]
  refine congrArg (fun lines => _ :: (lines ++ _)) (List.map_congr_left fun summary _ => ?_)
  simp only [Function.comp_apply, list_count_hide_invisible hprivilege]
  rfl

/-- The lines of GETCKEY are those of the members who are not hidden. -/
theorem get_c_key_lines_hide_invisible
    (hprivilege : viewer.peer.hasPrivilege operInvisible = false) (summary : ChannelSummary)
    (numeric : Bytes) (keys : List (Bytes × Bytes)) :
    summary.hideInvisible.users.flatMap
        (onGetCKey env viewer backing summary.hideInvisible numeric keys) =
      summary.users.flatMap (onGetCKey env viewer backing summary numeric keys) := by
  have hline : ∀ user, hasFlag user.modeflags invisible →
      onGetCKey env viewer backing summary numeric keys user = [] := by
    intro user hflag
    simp [onGetCKey, memberHidden, hflag, hprivilege]
  show (summary.users.filter fun user => !hasFlag user.modeflags invisible).flatMap
    (onGetCKey env viewer backing summary numeric keys) = _
  induction summary.users with
  | nil => rfl
  | cons user users ih =>
      by_cases hflag : hasFlag user.modeflags invisible
      · rw [List.filter_cons_of_neg (by simp [hflag]), List.flatMap_cons, hline user hflag, ih]
        rfl
      · rw [List.filter_cons_of_pos (by simp [hflag]), List.flatMap_cons, List.flatMap_cons, ih]

/-- The flags of others, and those in other channels, stay. -/
theorem flags_without_member {id : BitVec 32} {userId : Int}
    (hnot : ¬ (id = channelId ∧ userId = member.details.id)) :
    lookupUserChannelModeFlags (removeMember backing.store member.details.id channelId 0) id
      userId = lookupUserChannelModeFlags backing.store id userId := by
  rw [removeMember, lookup_delete, if_neg hnot]
  rfl

/-- The members without the user. -/
theorem users_without_member (id : BitVec 32) :
    getChannelUsers env (removeMember backing.store member.details.id channelId 0) id =
      (getChannelUsers env backing.store id).filter fun user =>
        ¬ (id = channelId ∧ user.userId = member.details.id) := by
  unfold getChannelUsers
  rw [List.filter_comm, List.filter_map (p := fun user : ChannelUserSummary =>
    decide ¬ (id = channelId ∧ user.userId = member.details.id))]
  refine congrArg (List.filter _) ?_
  by_cases hid : id = channelId
  · subst hid
    have husers : (removeMember backing.store member.details.id id 0).channelUsers id =
        (backing.store.channelUsers id).filter (· ≠ member.details.id) := by
      simp [removeMember, deleteChannelUser, zrem]
    rw [husers]
    have hsame : (backing.store.channelUsers id).filter (· ≠ member.details.id) =
        (backing.store.channelUsers id).filter ((fun user : ChannelUserSummary =>
          decide ¬ (id = id ∧ user.userId = member.details.id)) ∘ fun userId =>
            (⟨id, userId, lookupUserChannelModeFlags backing.store id userId,
              lookupUserById env backing.store userId⟩ : ChannelUserSummary)) := by
      refine List.filter_congr fun userId _ => ?_
      simp
    rw [← hsame]
    refine List.map_congr_left fun userId hmem => ?_
    have hne : userId ≠ member.details.id := by simpa using (List.mem_filter.mp hmem).2
    rw [flags_without_member fun h => hne h.2]
    rfl
  · have husers : (removeMember backing.store member.details.id channelId 0).channelUsers id =
        backing.store.channelUsers id := by
      simp [removeMember, deleteChannelUser, hid]
    rw [husers, List.filter_eq_self.mpr (by simp [hid])]
    refine List.map_congr_left fun userId _ => ?_
    rw [flags_without_member fun h => hid h.1]
    rfl

section Hidden

variable (h : HiddenMember backing.store member channelId)

include h

/-- Without its invisible members a channel is the same. -/
theorem hide_without_member (id : BitVec 32) :
    (lookupChannelById env (backing.withoutMember channelId member.details.id).store
        id).hideInvisible = (lookupChannelById env backing.store id).hideInvisible := by
  have husers : (lookupChannelById env (backing.withoutMember channelId member.details.id).store
      id).users = (getChannelUsers env backing.store id).filter fun user =>
        ¬ (id = channelId ∧ user.userId = member.details.id) := users_without_member id
  have hvisible : (lookupChannelById env (backing.withoutMember channelId member.details.id).store
        id).users.filter (fun user => !hasFlag user.modeflags invisible) =
      (getChannelUsers env backing.store id).filter fun user =>
        !hasFlag user.modeflags invisible := by
    rw [husers, List.filter_filter]
    refine List.filter_congr fun user huser => ?_
    obtain ⟨userId, -, rfl⟩ := List.mem_map.mp (List.mem_of_mem_filter huser)
    by_cases hhere : id = channelId ∧ userId = member.details.id
    · obtain ⟨rfl, rfl⟩ := hhere
      simp [h.isInvisible]
    · simp [hhere]
  rw [ChannelSummary.hideInvisible, hvisible]
  rfl

theorem hide_channel_without (name : Bytes) :
    ((backing.withoutMember channelId member.details.id).channel env name).hideInvisible =
      (backing.channel env name).hideInvisible := by
  have hid : getChannelIdByName (backing.withoutMember channelId member.details.id).store
      (name.map toLower) = getChannelIdByName backing.store (name.map toLower) := rfl
  rw [Backing.channel, Backing.channel, getChannelSummaryByName, getChannelSummaryByName, hid]
  simp only
  split
  · exact hide_without_member h _
  · rfl

theorem answer_names (hprivilege : viewer.peer.hasPrivilege operInvisible = false) (name : Bytes) :
    answer env viewer (backing.withoutMember channelId member.details.id) (.names name) =
      answer env viewer backing (.names name) := by
  rw [answer, answer, ← on_names_hide_invisible hprivilege, hide_channel_without h,
    on_names_hide_invisible hprivilege]

theorem answer_who (target : Bytes) :
    answer env viewer (backing.withoutMember channelId member.details.id) (.who target) =
      answer env viewer backing (.who target) := by
  rw [answer, answer, replyWho, replyWho, ← on_who_hide_invisible, hide_channel_without h,
    on_who_hide_invisible]
  rfl

theorem answer_list (hprivilege : viewer.peer.hasPrivilege operInvisible = false)
    (arguments : List Bytes) :
    answer env viewer (backing.withoutMember channelId member.details.id) (.list arguments) =
      answer env viewer backing (.list arguments) := by
  have hlisted : ∀ key, ((backing.withoutMember channelId member.details.id).listedChannel env
        (listArguments arguments).1 key).map (·.hideInvisible) =
      (backing.listedChannel env (listArguments arguments).1 key).map (·.hideInvisible) := by
    intro key
    have hhidden := @hide_channel_without env backing member channelId h (key.drop 12)
    have hid : ((backing.withoutMember channelId member.details.id).channel env
        (key.drop 12)).hideInvisible.channelId =
          (backing.channel env (key.drop 12)).hideInvisible.channelId := by rw [hhidden]
    have hname : ((backing.withoutMember channelId member.details.id).channel env
        (key.drop 12)).hideInvisible.channelName =
          (backing.channel env (key.drop 12)).hideInvisible.channelName := by rw [hhidden]
    exact listed_channel_map hhidden hid hname rfl
  rw [answer, answer, replyList, replyList, ← on_list_hide_invisible hprivilege,
    list_loop_map hlisted rfl _ _ rfl, on_list_hide_invisible hprivilege]
  rfl

/-- GETCKEY differs if the end of the list is there for the member alone. -/
theorem answer_get_c_key_iff (hprivilege : viewer.peer.hasPrivilege operInvisible = false)
    (channelTarget numeric kvText : Bytes) :
    answer env viewer backing (.getCKey channelTarget numeric kvText) =
        answer env viewer (backing.withoutMember channelId member.details.id)
          (.getCKey channelTarget numeric kvText) ↔
      ¬ Occasion.Shows env viewer member channelId backing
        (.getCKey channelTarget numeric kvText) := by
  have hhidden := @hide_channel_without env backing member channelId h channelTarget
  have hlines : ((backing.withoutMember channelId member.details.id).channel env
        channelTarget).users.flatMap (onGetCKey env viewer
          (backing.withoutMember channelId member.details.id)
          ((backing.withoutMember channelId member.details.id).channel env channelTarget) numeric
          (requestedKeys kvText)) =
      (backing.channel env channelTarget).users.flatMap (onGetCKey env viewer backing
        (backing.channel env channelTarget) numeric (requestedKeys kvText)) := by
    refine (get_c_key_lines_hide_invisible hprivilege _ numeric _).symm.trans ?_
    rw [hhidden]
    exact get_c_key_lines_hide_invisible hprivilege (backing.channel env channelTarget) numeric _
  have hid : ((backing.withoutMember channelId member.details.id).channel env
      channelTarget).hideInvisible.channelId =
        (backing.channel env channelTarget).hideInvisible.channelId := by rw [hhidden]
  have hname : ((backing.withoutMember channelId member.details.id).channel env
      channelTarget).hideInvisible.channelName =
        (backing.channel env channelTarget).hideInvisible.channelName := by rw [hhidden]
  have husers : ((backing.withoutMember channelId member.details.id).channel env
        channelTarget).users =
      (backing.channel env channelTarget).users.filter fun user =>
        ¬ ((backing.channel env channelTarget).channelId = channelId ∧
          user.userId = member.details.id) := by
    have hsame : getChannelIdByName (backing.withoutMember channelId member.details.id).store
        (channelTarget.map toLower) =
          getChannelIdByName backing.store (channelTarget.map toLower) := rfl
    rw [Backing.channel, Backing.channel, getChannelSummaryByName, getChannelSummaryByName, hsame]
    simp only
    split
    · exact users_without_member _
    · rfl
  simp only [answer, replyGetCKeyAll, Occasion.Shows]
  rw [hlines, show ((backing.withoutMember channelId member.details.id).channel env
    channelTarget).channelId = (backing.channel env channelTarget).channelId from hid,
    show ((backing.withoutMember channelId member.details.id).channel env
      channelTarget).channelName = (backing.channel env channelTarget).channelName from hname]
  by_cases hzero : (backing.channel env channelTarget).channelId = 0
  · rw [if_pos (.inl hzero), if_pos (.inl hzero)]
    exact iff_of_true rfl fun hshows => h.channel (hshows.1.symm.trans hzero)
  · by_cases hempty : (backing.channel env channelTarget).users = []
    · have hother : ((backing.withoutMember channelId member.details.id).channel env
          channelTarget).users = [] := by rw [husers, hempty, List.filter_nil]
      rw [if_pos (.inr hempty), if_pos (.inr hother)]
      exact iff_of_true rfl fun hshows => hshows.2.1 hempty
    · rw [if_neg (not_or.mpr ⟨hzero, hempty⟩)]
      by_cases hall : ((backing.withoutMember channelId member.details.id).channel env
          channelTarget).users = []
      · rw [if_pos (.inr hall)]
        refine iff_of_false (by simp) (not_not.mpr ?_)
        rw [husers, List.filter_eq_nil_iff] at hall
        have honly : ∀ user ∈ (backing.channel env channelTarget).users,
            (backing.channel env channelTarget).channelId = channelId ∧
              user.userId = member.details.id := by
          intro user huser
          simpa using hall user huser
        obtain ⟨first, hfirst⟩ := List.exists_mem_of_ne_nil _ hempty
        exact ⟨(honly first hfirst).1, hempty, fun user huser => (honly user huser).2⟩
      · rw [if_neg (not_or.mpr ⟨hzero, hall⟩)]
        refine iff_of_true rfl fun hshows => hall ?_
        rw [husers, List.filter_eq_nil_iff]
        intro user huser
        simp [hshows.1, hshows.2.2 user huser]

end Hidden

/-- The length of what is left without an element. -/
theorem length_flat_map_filter_ne {α β : Type*} [DecidableEq α] (f : α → List β) (a : α)
    (elements : List α) : (elements.flatMap f).length =
      ((elements.filter (· ≠ a)).flatMap f).length + elements.count a * (f a).length := by
  induction elements with
  | nil => simp
  | cons element elements ih =>
      by_cases heq : element = a
      · subst heq
        rw [List.flatMap_cons, List.length_append, ih, List.filter_cons_of_neg (by simp),
          List.count_cons_self, Nat.add_mul]
        omega
      · rw [List.flatMap_cons, List.length_append, ih, List.filter_cons_of_pos (by simp [heq]),
          List.flatMap_cons, List.length_append, List.count_cons_of_ne heq]
        omega

/-- An element that stands for nothing may be left out. -/
theorem flat_map_filter_ne {α β : Type*} [DecidableEq α] {f : α → List β} {a : α}
    {elements : List α} (h : a ∈ elements → f a = []) :
    (elements.filter (· ≠ a)).flatMap f = elements.flatMap f := by
  induction elements with
  | nil => rfl
  | cons element elements ih =>
      have hrest := ih fun hmem => h (List.mem_cons_of_mem element hmem)
      by_cases heq : element = a
      · subst heq
        rw [List.filter_cons_of_neg (by simp), hrest, List.flatMap_cons, h List.mem_cons_self,
          List.nil_append]
      · rw [List.filter_cons_of_pos (by simp [heq]), List.flatMap_cons, hrest, List.flatMap_cons]

/-- The text of all channels in a reply to WHOIS, and that of one. -/
def whoisNames (viewer : Viewer) (channelSummaries : List ChannelSummary) : Bytes :=
  ((channelSummaries.filter (whoisShows viewer)).map (·.channelName)).flatMap
    fun channelName => channelName ++ [char ' ']

def whoisName (env : Environment) (viewer : Viewer) (store : ChannelStore) (id : BitVec 32) :
    Bytes :=
  if whoisShows viewer (lookupChannelById env store id) then
    (lookupChannelById env store id).channelName ++ [char ' ']
  else []

theorem whois_names_eq (channelIds : List (BitVec 32)) :
    whoisNames viewer (channelIds.map (lookupChannelById env backing.store)) =
      channelIds.flatMap (whoisName env viewer backing.store) := by
  induction channelIds with
  | nil => rfl
  | cons id channelIds ih =>
      rw [List.map_cons, List.flatMap_cons, ← ih, whoisName, whoisNames]
      by_cases hshows : whoisShows viewer (lookupChannelById env backing.store id)
      · rw [List.filter_cons_of_pos hshows, if_pos hshows]
        rfl
      · rw [List.filter_cons_of_neg hshows, if_neg hshows]
        rfl

/-- WHOIS with more names is another reply. -/
theorem on_whois_names {name : Bytes} {summary : UserSummary} (hid : summary.id ≠ 0)
    {channelSummaries others : List ChannelSummary}
    (hlength : (whoisNames viewer channelSummaries).length ≠ (whoisNames viewer others).length) :
    onWhoisFetchUser env viewer name summary channelSummaries ≠
      onWhoisFetchUser env viewer name summary others := by
  unfold whoisNames at hlength
  unfold onWhoisFetchUser
  rw [if_neg hid, if_neg hid]
  simp only
  generalize ((channelSummaries.filter (whoisShows viewer)).map (·.channelName)).flatMap
    (fun channelName => channelName ++ [char ' ']) = names at hlength
  generalize ((others.filter (whoisShows viewer)).map (·.channelName)).flatMap
    (fun channelName => channelName ++ [char ' ']) = otherNames at hlength
  intro hsame
  have hlines := List.append_cancel_right
    (List.append_cancel_right (List.cons.inj hsame).2)
  by_cases hnames : names = []
  · rw [if_pos hnames] at hlines
    by_cases hother : otherNames = []
    · exact hlength (by rw [hnames, hother])
    · rw [if_neg hother] at hlines
      cases hlines
  · rw [if_neg hnames] at hlines
    by_cases hother : otherNames = []
    · rw [if_pos hother] at hlines
      cases hlines
    · rw [if_neg hother, List.cons_eq_cons, send_numeric_inj] at hlines
      have hdrop := congrArg List.length hlines.1
      rw [List.length_dropLast, List.length_dropLast] at hdrop
      have hpos := List.length_pos_of_ne_nil hnames
      have hotherPos := List.length_pos_of_ne_nil hother
      omega

theorem on_whois_congr {name : Bytes} {summary : UserSummary}
    {channelSummaries others : List ChannelSummary}
    (hnames : whoisNames viewer channelSummaries = whoisNames viewer others) :
    onWhoisFetchUser env viewer name summary channelSummaries =
      onWhoisFetchUser env viewer name summary others := by
  unfold whoisNames at hnames
  unfold onWhoisFetchUser
  simp only [hnames]

/-- WHOIS shows the channel if the viewer is told about it. -/
theorem answer_whois_iff (huser : member.details.id ≠ 0) (name : Bytes) :
    answer env viewer backing (.whois name) =
        answer env viewer (backing.withoutMember channelId member.details.id) (.whois name) ↔
      ¬ Occasion.Shows env viewer member channelId backing (.whois name) := by
  have hlookup : getUserSummaryByName env
      (backing.withoutMember channelId member.details.id).store name =
        getUserSummaryByName env backing.store name := rfl
  have hname : whoisName env viewer (backing.withoutMember channelId member.details.id).store =
      whoisName env viewer backing.store := rfl
  simp only [answer, replyWhois, hlookup, Occasion.Shows]
  by_cases hfound : (getUserSummaryByName env backing.store name).id = member.details.id
  · have hid : (getUserSummaryByName env backing.store name).id ≠ 0 := by rwa [hfound]
    have hhashes : (backing.withoutMember channelId member.details.id).userHashes
        member.details.id = zrem (backing.userHashes member.details.id) channelId := by
      simp [Backing.withoutMember]
    by_cases hshown : channelId ∈ backing.userHashes member.details.id ∧
        whoisShows viewer (lookupChannelById env backing.store channelId)
    · refine iff_of_false (on_whois_names hid ?_) (not_not.mpr ⟨hfound, hshown⟩)
      have hcount := length_flat_map_filter_ne (whoisName env viewer backing.store) channelId
        (backing.userHashes member.details.id)
      have hpos := List.count_pos_iff.mpr hshown.1
      have htext : 0 < (whoisName env viewer backing.store channelId).length := by
        rw [whoisName, if_pos hshown.2]
        simp
      have hmore := Nat.mul_pos hpos htext
      rw [Backing.channelsOf, Backing.channelsOf, whois_names_eq, whois_names_eq, hname, hfound,
        hhashes, zrem]
      omega
    · refine iff_of_true (on_whois_congr ?_) fun h => hshown h.2
      have hnothing : channelId ∈ backing.userHashes member.details.id →
          whoisName env viewer backing.store channelId = [] := by
        intro hmem
        rw [whoisName, if_neg fun h => hshown ⟨hmem, h⟩]
      rw [Backing.channelsOf, Backing.channelsOf, whois_names_eq, whois_names_eq, hname, hfound,
        hhashes, zrem, flat_map_filter_ne hnothing]
  · have hhashes : (backing.withoutMember channelId member.details.id).userHashes
        (getUserSummaryByName env backing.store name).id =
          backing.userHashes (getUserSummaryByName env backing.store name).id := by
      simp only [Backing.withoutMember, Function.update_of_ne hfound]
    refine iff_of_true (on_whois_congr ?_) fun h => hfound h.1
    rw [Backing.channelsOf, Backing.channelsOf, whois_names_eq, whois_names_eq, hname, hhashes]

end Answers

end OpenSpy.Peerchat
