import OpenSpy.Peerchat.ModeText
import OpenSpy.Peerchat.Replies

/-!
# The password of a channel

LIST and GETCHANKEY show that a channel has a password, and not which one. What a peer is sent
with one password is compared with what it is sent with another: all replies are made from the
channel with its password hidden, except the one to a MODE without modes.
`password_stays_iff` says when a peer can tell the passwords apart.
-/

namespace OpenSpy.Peerchat

open Bytes UserChannelFlag ChannelStore

/-- A channel of the store, or one that only the web service knows. -/
inductive ChannelPlace where
  | stored (channelId : BitVec 32)
  | persistent (channelMask : Bytes)

/-- A channel of the store has a password. -/
def ChannelStore.withPassword (store : ChannelStore) (channelId : BitVec 32) (password : Bytes) :
    ChannelStore :=
  { store with
    channel := fun id => (store.channel id).map fun channel =>
      if id = channelId then { channel with password := password } else channel }

/-- A channel has a password, and everything else is as it was. -/
def Backing.withPassword (backing : Backing) (place : ChannelPlace) (password : Bytes) : Backing :=
  match place with
  | .stored channelId => { backing with store := backing.store.withPassword channelId password }
  | .persistent channelMask =>
      { backing with
        persistent := backing.persistent.map fun record =>
          if record.channelMask = channelMask then { record with password := password }
          else record }

/-- What a peer asks for or receives: a reply, a message that is published, or the message for a
MODE that gives the channel its password, among other changes. -/
inductive Observation where
  | mode (name : Bytes)
  | list (arguments : List Bytes)
  | getChanKey (channelTarget numeric kvText : Bytes)
  | who (target : Bytes)
  | names (name : Bytes)
  | whois (name : Bytes)
  | published (message : Published)
  | passwordSet (requesterId : Int) (modify : ChannelModify)

section Observed

variable (env : Environment) (viewer : Viewer) (backing : Backing)

/-- The message of `Perform_UpdateChannelModes` about the modes. -/
def modeNotice (store : ChannelStore) (channelId : BitVec 32) (requesterId : Int)
    (modify : ChannelModify) : List Published :=
  let basicModeFlags := (lookupChannelById env store channelId).basicModeFlags
  let message := modeMessage modify basicModeFlags env store
  if message = [] then []
  else [.channelMessage (.plain (ascii "MODE") channelId (.userId requesterId) message)]

/-- What a peer is sent while the channel has a password. -/
def observe (place : ChannelPlace) (password : Bytes) : Observation → List Received
  | .mode name =>
      (onModeFetchChannelInfo env viewer
        ((backing.withPassword place password).channel env name)).map .packet
  | .list arguments =>
      (replyList env viewer (backing.withPassword place password) arguments).map .packet
  | .getChanKey channelTarget numeric kvText =>
      (onGetChanKey env viewer (backing.withPassword place password) numeric kvText
        ((backing.withPassword place password).channel env channelTarget)).map .packet
  | .who target => (replyWho env viewer (backing.withPassword place password) target).map .packet
  | .names name =>
      (onNamesFetchChannelInfo env viewer
        ((backing.withPassword place password).channel env name)).map .packet
  | .whois name => (replyWhois env viewer (backing.withPassword place password) name).map .packet
  | .published message => deliver env viewer (backing.withPassword place password).store message
  | .passwordSet requesterId modify =>
      match place with
      | .stored channelId =>
          let store := backing.store.withPassword channelId password
          (modeNotice env store channelId requesterId
            { modify with updatePassword := true, password := password }).flatMap
            (deliver env viewer store)
      | .persistent _ => []

/-- The password is part of what a peer is sent: it asks for the modes of the channel, or it is
told about the new password because it is in the channel as far as it knows. -/
def Observation.Shows (place : ChannelPlace) : Observation → Prop
  | mode name =>
      match place with
      | .stored channelId =>
          channelId ≠ 0 ∧ getChannelIdByName backing.store (name.map toLower) = channelId
      | .persistent _ => False
  | passwordSet _ _ =>
      match place with
      | .stored channelId =>
          channelId ≠ 0 ∧ viewer.peer.inChannel channelId ∧ ¬ viewer.peer.isQuiet
      | .persistent _ => False
  | _ => False

end Observed

/-- The channel with its password hidden: only whether it has one is left. -/
def ChannelSummary.hidePassword (summary : ChannelSummary) : ChannelSummary :=
  { summary with password := if summary.password = [] then [] else ascii "1" }

section Hidden

variable {env : Environment} {viewer : Viewer} {backing : Backing}

/-- The replies to NAMES, WHO and WHOIS do not use the password. -/
theorem on_names_hidden (summary : ChannelSummary) :
    onNamesFetchChannelInfo env viewer summary.hidePassword =
      onNamesFetchChannelInfo env viewer summary :=
  rfl

theorem on_who_hidden (name : Bytes) (summary : ChannelSummary) :
    onWhoFetchChannelInfo env viewer name summary.hidePassword =
      onWhoFetchChannelInfo env viewer name summary :=
  rfl

theorem on_whois_hidden (name : Bytes) (summary : UserSummary)
    (channelSummaries : List ChannelSummary) :
    onWhoisFetchUser env viewer name summary (channelSummaries.map (·.hidePassword)) =
      onWhoisFetchUser env viewer name summary channelSummaries := by
  have hshown : ((channelSummaries.map (·.hidePassword)).filter (whoisShows viewer)).map
        (·.channelName) =
      (channelSummaries.filter (whoisShows viewer)).map (·.channelName) := by
    rw [List.filter_map, List.map_map]
    rfl
  rw [onWhoisFetchUser, onWhoisFetchUser, hshown]

/-- A hidden password is there or not as the password is. -/
theorem hide_password_nil (summary : ChannelSummary) :
    summary.hidePassword.password = [] ↔ summary.password = [] := by
  by_cases h : summary.password = []
  · simp [ChannelSummary.hidePassword, h]
  · have hone : ascii "1" ≠ [] := by decide
    simp [ChannelSummary.hidePassword, h, hone]

/-- LIST and GETCHANKEY use whether there is a password. -/
theorem special_info_hidden (summary : ChannelSummary) :
    getChannelSpecialInfo summary.hidePassword = getChannelSpecialInfo summary := by
  simp only [getChannelSpecialInfo, hide_password_nil]
  rfl

theorem on_list_hidden (specialInfo : Bool) (summaries : List ChannelSummary) :
    onListChannels env viewer specialInfo (summaries.map (·.hidePassword)) =
      onListChannels env viewer specialInfo summaries := by
  have hline : ∀ summary : ChannelSummary,
      (if specialInfo then getChannelSpecialInfo summary.hidePassword
        else summary.hidePassword.topic) =
      if specialInfo then getChannelSpecialInfo summary else summary.topic := by
    intro summary
    rw [special_info_hidden]
    rfl
  rw [onListChannels, onListChannels, List.filter_map, List.map_map]
  refine congrArg (fun lines => _ :: (lines ++ _)) (List.map_congr_left fun summary _ => ?_)
  show sendNumeric env viewer 322 (_ ++ if specialInfo then _ else _) true [] true = _
  rw [hline]
  rfl

theorem overrides_hidden (summary : ChannelSummary) :
    handleOverrides summary.hidePassword = handleOverrides summary := by
  funext name
  simp only [handleOverrides, hide_password_nil]
  rfl

theorem on_get_chan_key_hidden (numeric kvText : Bytes) (summary : ChannelSummary) :
    onGetChanKey env viewer backing numeric kvText summary.hidePassword =
      onGetChanKey env viewer backing numeric kvText summary := by
  have hinject : injectOverrides summary.hidePassword = injectOverrides summary := by
    funext searchString
    rw [injectOverrides, overrides_hidden]
    rfl
  have hwildcard : lookupChannelWildcard backing summary.hidePassword =
      lookupChannelWildcard backing summary := by
    funext searchString
    rw [lookupChannelWildcard, hinject]
    rfl
  have htexts : channelKeyTexts backing summary.hidePassword = channelKeyTexts backing summary := by
    funext keys
    rw [channelKeyTexts, overrides_hidden, hwildcard]
    rfl
  rw [onGetChanKey, htexts]
  rfl

end Hidden

section TwoPasswords

variable {env : Environment} {viewer : Viewer} {backing : Backing} {store : ChannelStore}
  {place : ChannelPlace} {channelId : BitVec 32} {p q : Bytes}

/-- Channels are found by their names as before. -/
theorem channel_id_with_password (name : Bytes) :
    getChannelIdByName (store.withPassword channelId p) name = getChannelIdByName store name := by
  unfold getChannelIdByName
  rw [show (store.withPassword channelId p).channelname = store.channelname from rfl]
  cases store.channelname (cString name) with
  | none => rfl
  | some id => simp [ChannelStore.withPassword]

/-- A channel that is found by its name is there. -/
theorem channel_is_some {name : Bytes} (h : getChannelIdByName store name ≠ 0) :
    (store.channel (getChannelIdByName store name)).isSome := by
  unfold getChannelIdByName at h ⊢
  cases hname : store.channelname (cString name) with
  | none => simp [hname] at h
  | some id =>
      by_cases hsome : (store.channel id).isSome
      · simp only [hsome, if_true]
      · simp [hname, hsome] at h

/-- A channel has the password, or is as before. -/
theorem lookup_with_password (id : BitVec 32) :
    lookupChannelById env (store.withPassword channelId p) id =
      if id = channelId ∧ (store.channel id).isSome then
        { lookupChannelById env store id with password := p }
      else lookupChannelById env store id := by
  have husers : getChannelUsers env (store.withPassword channelId p) id =
      getChannelUsers env store id := rfl
  unfold lookupChannelById
  rw [husers]
  cases hchannel : store.channel id with
  | none => simp [ChannelStore.withPassword, hchannel]
  | some channel =>
      by_cases hid : id = channelId
      · subst hid
        simp [ChannelStore.withPassword, hchannel]
      · simp [ChannelStore.withPassword, hchannel, hid]

/-- Users are found as before. -/
theorem user_with_password (name : Bytes) :
    getUserSummaryByName env (backing.withPassword place p).store name =
      getUserSummaryByName env (backing.withPassword place q).store name := by
  cases place <;> rfl

section NotEmpty

variable (hp : p ≠ []) (hq : q ≠ [])

include hp hq

/-- With the password hidden, the two channels are the same. -/
theorem hide_lookup (id : BitVec 32) :
    (lookupChannelById env (store.withPassword channelId p) id).hidePassword =
      (lookupChannelById env (store.withPassword channelId q) id).hidePassword := by
  rw [lookup_with_password, lookup_with_password]
  split
  · simp [ChannelSummary.hidePassword, hp, hq]
  · rfl

theorem hide_channel (name : Bytes) :
    ((backing.withPassword place p).channel env name).hidePassword =
      ((backing.withPassword place q).channel env name).hidePassword := by
  cases place with
  | persistent channelMask => rfl
  | stored channelId =>
      show (getChannelSummaryByName env (backing.store.withPassword channelId p) name).hidePassword =
        (getChannelSummaryByName env (backing.store.withPassword channelId q) name).hidePassword
      rw [getChannelSummaryByName, getChannelSummaryByName, channel_id_with_password,
        channel_id_with_password]
      simp only
      split
      · exact hide_lookup hp hq _
      · rfl

theorem hide_channels_of (userId : Int) :
    ((backing.withPassword place p).channelsOf env userId).map (·.hidePassword) =
      ((backing.withPassword place q).channelsOf env userId).map (·.hidePassword) := by
  cases place with
  | persistent channelMask => rfl
  | stored channelId =>
      rw [Backing.channelsOf, Backing.channelsOf, List.map_map, List.map_map]
      exact List.map_congr_left fun id _ => hide_lookup hp hq id

theorem reply_who_with_password (target : Bytes) :
    replyWho env viewer (backing.withPassword place p) target =
      replyWho env viewer (backing.withPassword place q) target := by
  unfold replyWho
  rw [← on_who_hidden, hide_channel hp hq, on_who_hidden, @user_with_password env backing place p q]

theorem reply_whois_with_password (name : Bytes) :
    replyWhois env viewer (backing.withPassword place p) name =
      replyWhois env viewer (backing.withPassword place q) name := by
  unfold replyWhois
  simp only
  rw [← on_whois_hidden, hide_channels_of hp hq, on_whois_hidden,
    @user_with_password env backing place p q]

theorem get_chan_key_with_password (channelTarget numeric kvText : Bytes) :
    onGetChanKey env viewer (backing.withPassword place p) numeric kvText
        ((backing.withPassword place p).channel env channelTarget) =
      onGetChanKey env viewer (backing.withPassword place q) numeric kvText
        ((backing.withPassword place q).channel env channelTarget) := by
  rw [← on_get_chan_key_hidden, hide_channel hp hq, on_get_chan_key_hidden]
  cases place <;> rfl

/-- A channel is listed with both passwords or with neither. -/
theorem hide_listed_channel (mask key : Bytes) :
    ((backing.withPassword place p).listedChannel env mask key).map (·.hidePassword) =
      ((backing.withPassword place q).listedChannel env mask key).map (·.hidePassword) := by
  have hhidden := @hide_channel env backing place p q hp hq (key.drop 12)
  have hkeys : (backing.withPassword place p).channelKeys =
      (backing.withPassword place q).channelKeys := by
    cases place <;> rfl
  exact listed_channel_map hhidden (congrArg (·.channelId) hhidden)
    (congrArg (·.channelName) hhidden) hkeys

theorem hide_non_existent (mask : Bytes) :
    ((backing.withPassword place p).nonExistentChannels mask).map (·.hidePassword) =
      ((backing.withPassword place q).nonExistentChannels mask).map (·.hidePassword) := by
  cases place with
  | stored channelId => rfl
  | persistent channelMask =>
      have hmatches : ∀ password : Bytes, (fun record => listMatches mask record.groupname
            record.channelMask) ∘ (fun record : ChanpropsRecord =>
          if record.channelMask = channelMask then { record with password := password }
          else record) =
          fun record => listMatches mask record.groupname record.channelMask := by
        intro password
        funext record
        simp only [Function.comp_apply]
        split <;> rfl
      simp only [Backing.nonExistentChannels, Backing.withPassword, List.filter_map, List.map_map,
        hmatches]
      refine List.map_congr_left fun record _ => ?_
      simp only [Function.comp_apply]
      split
      · simp [chanPropsToChannelSummary, ChannelSummary.hidePassword, hp, hq]
      · rfl

theorem reply_list_with_password (arguments : List Bytes) :
    replyList env viewer (backing.withPassword place p) arguments =
      replyList env viewer (backing.withPassword place q) arguments := by
  have hnames : (backing.withPassword place p).channelNames =
      (backing.withPassword place q).channelNames := by
    cases place <;> rfl
  unfold replyList
  rw [← on_list_hidden, list_loop_map (hide_listed_channel hp hq _) (hide_non_existent hp hq _) _ _
    rfl, on_list_hidden, hnames]

/-- No message that is published has the password of the channel in what is sent for it. -/
theorem deliver_with_password (message : Published) :
    deliver env viewer (store.withPassword channelId p) message =
      deliver env viewer (store.withPassword channelId q) message := by
  have hname : ∀ id, (lookupChannelById env (store.withPassword channelId p) id).channelName =
      (lookupChannelById env (store.withPassword channelId q) id).channelName :=
    fun id => congrArg (·.channelName) (@hide_lookup env store channelId p q hp hq id)
  have hsender : Sender.resolve env (store.withPassword channelId p) =
      Sender.resolve env (store.withPassword channelId q) := by
    funext sender
    cases sender <;> rfl
  cases message with
  | channelMessage message =>
      have hreaches : channelMessageReaches env viewer (store.withPassword channelId p) message =
          channelMessageReaches env viewer (store.withPassword channelId q) message := by
        rw [channelMessageReaches, channelMessageReaches, hsender]
        rfl
      simp only [deliver, onChannelMessage, hname, hsender, hreaches]
  | userBroadcast broadcast => simp only [deliver, onChannelBroadcast, hsender]
  | setChannelUserKeys channelId userId keys =>
      simp only [deliver, hname]
      rfl
  | setChannelKeys channelId keys => simp only [deliver, hname]

end NotEmpty

end TwoPasswords

section Shown

variable {env : Environment} {viewer : Viewer} {store : ChannelStore} {channelId : BitVec 32}

/-- The line of the modes shows the password. -/
theorem channel_mode_text_inj (summary : ChannelSummary) {p q : Bytes} (hp : p ≠ []) (hq : q ≠ []) :
    channelModeText { summary with password := p } =
      channelModeText { summary with password := q } ↔ p = q := by
  simp [channelModeText, hp, hq]

/-- The message for a new password has the password between what is the same for all. -/
theorem mode_message_password (modify : ChannelModify) (basicModeFlags : BitVec 32) :
    ∃ before after, ∀ (channelId : BitVec 32) (password : Bytes), password ≠ [] →
      modeMessage { modify with updatePassword := true, password := password } basicModeFlags env
        (store.withPassword channelId password) = before ++ char ' ' :: password ++ after := by
  have hsets : ∀ password : Bytes, password ≠ [] → ({ modify with
      updatePassword := true, password := password } : ChannelModify).SetsPassword := by
    intro password hpassword
    exact ⟨rfl, hpassword⟩
  have hkeeps : ∀ password : Bytes, password ≠ [] → ¬ ({ modify with
      updatePassword := true, password := password } : ChannelModify).UnsetsPassword := by
    intro password hpassword h
    exact hpassword h.2
  refine ⟨signed (char '+') (setLetters modify basicModeFlags ++
      (if modify.setUsermodes.length ≠ 0 then
        usermodesText (usermodesItems env store modify.setUsermodes) else []) ++ [char 'k'] ++
      if modify.SetsLimit then [char 'l'] else []),
    (if modify.SetsLimit then char ' ' :: printInt modify.limit.toInt else []) ++
      signed (char '-') (unsetLetters modify basicModeFlags ++
        (if modify.UnsetsLimit then [char 'l'] else []) ++
        if modify.unsetUsermodes.length ≠ 0 then
          usermodesText (usermodesItems env store modify.unsetUsermodes) else []),
    fun channelId password hpassword => ?_⟩
  have hset := hsets password hpassword
  have hkeep := hkeeps password hpassword
  unfold modeMessage setBody setParams unsetBody
  simp only [hset, hkeep, if_true, if_false, true_or, or_true, List.append_assoc, List.append_nil]
  rfl

/-- The message about the modes reaches who is in the channel as far as he knows. -/
theorem mode_notice_reaches (source : Sender) (message : Bytes) :
    channelMessageReaches env viewer store (.plain (ascii "MODE") channelId source message) =
      viewer.peer.inChannel channelId := by
  have hallowed : ascii "MODE" ∈ allowedThrough := by decide
  have hpart : (ascii "MODE" == ascii "PART") = false := by decide
  simp [channelMessageReaches, ChannelMessage.plain, ChatPeer.inChannel, hallowed, hpart]

/-- What is sent for it. -/
theorem on_mode_notice (source : Sender) (message : Bytes) :
    onChannelMessage env viewer store (.plain (ascii "MODE") channelId source message) =
      if channelId ≠ 0 ∧ viewer.peer.inChannel channelId then
        (sendMessage env viewer (ascii "MODE") message (source.resolve env store)
          (lookupChannelById env store channelId).channelName [] true).map .packet
      else [] := by
  have hjoin : ¬ (ascii "MODE" = ascii "JOIN") := by decide
  rw [onChannelMessage, mode_notice_reaches]
  simp [ChannelMessage.plain, hjoin, UserSummary.empty]

/-- A message with more text is another one, unless the peer is quiet. -/
theorem send_message_inj {messageType messageContent other : Bytes} {source : UserSummary}
    {toName target : Bytes} {noColon : Bool} (hcontent : messageContent ≠ []) (hother : other ≠ []) :
    sendMessage env viewer messageType messageContent source toName target noColon =
        sendMessage env viewer messageType other source toName target noColon ↔
      viewer.peer.isQuiet ∨ messageContent = other := by
  unfold sendMessage
  by_cases hquiet : viewer.peer.isQuiet
  · simp [hquiet]
  · simp [hquiet, hcontent, hother]

end Shown

section Main

variable {env : Environment} {viewer : Viewer} {backing : Backing}

/-- The reply to a MODE of the channel tells the passwords apart, and no reply to another. -/
theorem observe_mode_iff (place : ChannelPlace) {p q : Bytes} (hp : p ≠ []) (hq : q ≠ [])
    (name : Bytes) :
    observe env viewer backing place p (.mode name) =
        observe env viewer backing place q (.mode name) ↔
      p = q ∨ ¬ Observation.Shows viewer backing place (.mode name) := by
  cases place with
  | persistent channelMask => exact iff_of_true rfl (.inr id)
  | stored channelId =>
      have hinj : Function.Injective Received.packet := fun _ _ h => Received.packet.inj h
      rw [observe, observe, (List.map_injective_iff.mpr hinj).eq_iff]
      show onModeFetchChannelInfo env viewer (getChannelSummaryByName env
          (backing.store.withPassword channelId p) name) = onModeFetchChannelInfo env viewer
            (getChannelSummaryByName env (backing.store.withPassword channelId q) name) ↔ _
      rw [getChannelSummaryByName, getChannelSummaryByName, channel_id_with_password,
        channel_id_with_password]
      simp only [Observation.Shows]
      by_cases hzero : getChannelIdByName backing.store (name.map toLower) = 0
      · rw [if_neg (not_not.mpr hzero), hzero]
        exact iff_of_true rfl (.inr fun h => h.1 h.2.symm)
      have hsome := channel_is_some hzero
      rw [if_pos hzero, if_pos hzero, lookup_with_password, lookup_with_password]
      by_cases hsame : getChannelIdByName backing.store (name.map toLower) = channelId
      · have hshows : channelId ≠ 0 ∧
            getChannelIdByName backing.store (name.map toLower) = channelId :=
          ⟨hsame ▸ hzero, hsame⟩
        have hid : ∀ password : Bytes, ({ lookupChannelById env backing.store
            (getChannelIdByName backing.store (name.map toLower)) with
              password := password } : ChannelSummary).channelId ≠ 0 := fun _ => hzero
        rw [if_pos ⟨hsame, hsome⟩, if_pos ⟨hsame, hsome⟩, or_iff_left (not_not.mpr hshows),
          onModeFetchChannelInfo, onModeFetchChannelInfo, if_pos (hid p), if_pos (hid q),
          List.cons_eq_cons, send_numeric_inj, channel_mode_text_inj _ hp hq]
        exact and_iff_left rfl
      · rw [if_neg fun h => hsame h.1, if_neg fun h => hsame h.1]
        exact iff_of_true rfl (.inr fun h => hsame h.2)

/-- The message for a new password tells the passwords apart if it reaches the peer. -/
theorem observe_password_set_iff (place : ChannelPlace) {p q : Bytes} (hp : p ≠ []) (hq : q ≠ [])
    (requesterId : Int) (modify : ChannelModify) :
    observe env viewer backing place p (.passwordSet requesterId modify) =
        observe env viewer backing place q (.passwordSet requesterId modify) ↔
      p = q ∨ ¬ Observation.Shows viewer backing place (.passwordSet requesterId modify) := by
  cases place with
  | persistent channelMask => exact iff_of_true rfl (.inr id)
  | stored channelId =>
      have hflags : (lookupChannelById env (backing.store.withPassword channelId p)
          channelId).basicModeFlags = (lookupChannelById env (backing.store.withPassword channelId q)
            channelId).basicModeFlags :=
        congrArg (·.basicModeFlags) (@hide_lookup env backing.store channelId p q hp hq channelId)
      obtain ⟨before, after, htext⟩ := @mode_message_password env backing.store modify
        (lookupChannelById env (backing.store.withPassword channelId q) channelId).basicModeFlags
      have hne : ∀ password : Bytes, before ++ char ' ' :: password ++ after ≠ [] := by simp
      have hinj : Function.Injective Received.packet := fun _ _ h => Received.packet.inj h
      simp only [observe, modeNotice, hflags, htext channelId p hp, htext channelId q hq,
        if_neg (hne _), List.flatMap_cons, List.flatMap_nil, List.append_nil]
      rw [deliver_with_password hp hq, deliver, deliver, on_mode_notice, on_mode_notice]
      by_cases hreached : channelId ≠ 0 ∧ viewer.peer.inChannel channelId
      · rw [if_pos hreached, if_pos hreached, (List.map_injective_iff.mpr hinj).eq_iff,
          send_message_inj (hne p) (hne q), List.append_left_inj, List.append_right_inj,
          List.cons_inj_right]
        constructor
        · rintro (hquiet | hsame)
          · exact .inr fun h => h.2.2 hquiet
          · exact .inl hsame
        · rintro (hsame | hnot)
          · exact .inr hsame
          · by_contra hneither
            rw [not_or] at hneither
            exact hnot ⟨hreached.1, hreached.2, hneither.1⟩
      · rw [if_neg hreached, if_neg hreached]
        exact iff_of_true rfl (.inr fun h => hreached ⟨h.1, h.2.1⟩)

/-- A peer is sent the same for two passwords of a channel exactly if they are the same password,
or it does not ask for the modes of the channel and is not told about the new password. -/
theorem password_stays_iff (env : Environment) (viewer : Viewer) (backing : Backing)
    (place : ChannelPlace) {p q : Bytes} (hp : p ≠ []) (hq : q ≠ []) (seen : Observation) :
    observe env viewer backing place p seen = observe env viewer backing place q seen ↔
      p = q ∨ ¬ seen.Shows viewer backing place := by
  cases seen with
  | mode name => exact observe_mode_iff place hp hq name
  | list arguments =>
      refine iff_of_true ?_ (.inr id)
      rw [observe, observe, reply_list_with_password hp hq]
  | getChanKey channelTarget numeric kvText =>
      refine iff_of_true ?_ (.inr id)
      rw [observe, observe, get_chan_key_with_password hp hq]
  | who target =>
      refine iff_of_true ?_ (.inr id)
      rw [observe, observe, reply_who_with_password hp hq]
  | names name =>
      refine iff_of_true ?_ (.inr id)
      rw [observe, observe, ← on_names_hidden, hide_channel hp hq, on_names_hidden]
  | whois name =>
      refine iff_of_true ?_ (.inr id)
      rw [observe, observe, reply_whois_with_password hp hq]
  | published message =>
      refine iff_of_true ?_ (.inr id)
      cases place with
      | stored channelId => exact deliver_with_password hp hq message
      | persistent channelMask => rfl
  | passwordSet requesterId modify => exact observe_password_set_iff place hp hq requesterId modify

end Main

/-- A server on which Alice is in the channel `#a`, which has the id 1. -/
def passwordBacking : Backing where
  store :=
    (performUserJoinChannel quietEnvironment (chatPeer 1 (ascii "alice") 32)
      ⟨ascii "#a", [], 0⟩ twoUsers).1
  channelKeys := fun _ => ⟨fun _ => none, fun _ => []⟩
  channelUserKeys := fun _ _ => ⟨fun _ => none, fun _ => []⟩
  strayUserKeys := fun _ _ => ⟨fun _ => none, fun _ => []⟩
  userHashes := fun userId => if userId = 1 then [1] else []
  channelNames := [some [ascii "channelname_#a"]]
  persistent := []

/-- LIST with `k` shows the visitor no difference between two passwords. -/
theorem list_hides_password :
    observe quietEnvironment ⟨chatPeer 7 (ascii "eve") 0, []⟩ passwordBacking (.stored 1)
        (ascii "one") (.list [ascii "k"]) =
      observe quietEnvironment ⟨chatPeer 7 (ascii "eve") 0, []⟩ passwordBacking (.stored 1)
        (ascii "two") (.list [ascii "k"]) :=
  (password_stays_iff quietEnvironment ⟨chatPeer 7 (ascii "eve") 0, []⟩ passwordBacking (.stored 1)
    (by decide) (by decide) (.list [ascii "k"])).mpr (.inr id)

/-- The visitor asks for the modes of `#a` and is sent its password. -/
theorem mode_shows_password :
    ¬ ∀ (env : Environment) (viewer : Viewer) (backing : Backing) (channelId : BitVec 32)
      (p q : Bytes), p ≠ [] → q ≠ [] → viewer.peer.details.operflags = 0 →
      ¬ viewer.peer.inChannel channelId →
      ¬ backing.store.IsMember channelId viewer.peer.details.id → ∀ seen,
      observe env viewer backing (.stored channelId) p seen =
        observe env viewer backing (.stored channelId) q seen := by
  intro h
  have hsame := h quietEnvironment ⟨chatPeer 7 (ascii "eve") 0, []⟩ passwordBacking 1 (ascii "one")
    (ascii "two") (by decide) (by decide) rfl (by decide) (by unfold IsMember; decide)
    (.mode (ascii "#a"))
  exact absurd hsame (by decide)

end OpenSpy.Peerchat
