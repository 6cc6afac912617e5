import OpenSpy.Peerchat.HiddenAnswers

/-!
# Invisible members

What a peer is sent for what an invisible member does: the messages about his membership come to
nobody without the flag `EUserChannelFlag_Invisible`, as far as the task or the peer that handles
the message knows that he is invisible. `no_trace_iff` says on which occasions a peer is sent the
same as if he were not a member.
-/

namespace OpenSpy.Peerchat

open Bytes Redis UserChannelFlag ChannelMode ChannelStore

section Messages

variable {env : Environment} {viewer : Viewer} {store other : ChannelStore}
  {channelId : BitVec 32} {message : ChannelMessage}

/-- One of several flags. -/
theorem has_flag_or (flags flag others : BitVec 32) :
    hasFlag flags (flag ||| others) = (hasFlag flags flag || hasFlag flags others) := by
  have hzero : flags &&& (flag ||| others) = 0 ↔ flags &&& flag = 0 ∧ flags &&& others = 0 := by
    rw [BitVec.and_or_distrib_left]
    exact BitVec.or_eq_zero_iff
  rw [Bool.eq_iff_iff]
  simp only [hasFlag, bne_iff_ne, Bool.or_eq_true, ne_eq, hzero, not_and_or]

/-- A message to the channel is handled alike where users, channels and, unless the message goes
out for invisible users, too, the flags in the channel are the same. -/
theorem on_channel_message_congr (huser : store.user = other.user)
    (hchannel : store.channel = other.channel)
    (hflags : message.type ∈ allowedThrough ∨
      lookupUserChannelModeFlags store message.toChannelId =
        lookupUserChannelModeFlags other message.toChannelId) :
    onChannelMessage env viewer store message = onChannelMessage env viewer other message := by
  have hlookup : lookupUserById env store = lookupUserById env other := by
    funext userId
    simp only [lookupUserById, huser]
  have hresolve : Sender.resolve env store = Sender.resolve env other := by
    funext sender
    cases sender with
    | userId id => exact congrFun hlookup id
    | summary text => rfl
  have hname : (lookupChannelById env store message.toChannelId).channelName =
      (lookupChannelById env other message.toChannelId).channelName := by
    simp only [lookupChannelById, hchannel]
  have hreaches : channelMessageReaches env viewer store message =
      channelMessageReaches env viewer other message := by
    simp only [channelMessageReaches, hresolve]
    cases hflags with
    | inl hallowed => simp [hallowed]
    | inr hflags => rw [hflags]
  simp only [onChannelMessage, hresolve, hname, hreaches]

/-- When nothing comes of a message to a channel. -/
theorem on_channel_message_nil (hzero : message.toChannelId ≠ 0) :
    onChannelMessage env viewer store message = [] ↔
      (channelMessageReaches env viewer store message →
        (viewer.peer.isQuiet ∨
          ¬ (message.onlyVisibleTo = 0 ∨ message.onlyVisibleTo = viewer.peer.details.id)) ∧
        ¬ (message.type = ascii "JOIN" ∧
          (message.source.resolve env store).id = viewer.peer.details.id)) := by
  unfold onChannelMessage
  by_cases hreaches : channelMessageReaches env viewer store message
  · simp only [hzero, hreaches, ne_eq, not_false_eq_true, and_self, if_true, true_implies,
      List.append_eq_nil_iff]
    refine and_congr ?_ ?_
    · by_cases hvisible : message.onlyVisibleTo = 0 ∨ message.onlyVisibleTo = viewer.peer.details.id
      · by_cases hquiet : viewer.peer.isQuiet <;> simp [hvisible, sendMessage, hquiet]
      · simp [hvisible]
    · split <;> simp_all
  · simp [hreaches]

end Messages

section Events

variable {env : Environment} {viewer : Viewer} {store : ChannelStore} {member : ChatPeer}
  {channelId : BitVec 32}

/-- A JOIN is passed on to those who may see the user whom its summary stands for. -/
theorem join_reaches : channelMessageReaches env viewer store (joinMessage member channelId) =
    ((!hasFlag (lookupUserChannelModeFlags store channelId (decoded env member).id) invisible ||
      viewer.peer.hasPrivilege operInvisible) && viewer.peer.inChannel channelId) := by
  have hallowed : allowedThrough.contains (ascii "JOIN") = false := by decide
  have hpart : (ascii "JOIN" == ascii "PART") = false := by decide
  show ((allowedThrough.contains (ascii "JOIN") || _ || _) &&
    ((_ && (_ || true)) || (_ && (ascii "JOIN" == ascii "PART"))) && (true || _) && (_ || true)) = _
  rw [hallowed, hpart]
  simp [ChatPeer.inChannel, decoded, joinMessage, ChannelMessage.plain, sentSummary, Sender.resolve]

/-- What the server tells the channel when somebody comes in. -/
theorem server_message_nil (hprivilege : viewer.peer.hasPrivilege operInvisible = false)
    (hchannel : channelId ≠ 0) {type : Bytes} (htype : type ∈ [ascii "NOTICE", ascii "MODE"])
    (text : Bytes) (hidden : Bool) :
    onChannelMessage env viewer store
        { ChannelMessage.plain type channelId (.userId (-1)) text with
          requiredOperFlags := if hidden then operInvisible else 0 } = [] ↔
      ¬ (hidden = false ∧ viewer.peer.inChannel channelId ∧ ¬ viewer.peer.isQuiet) := by
  have hallowed : type ∈ allowedThrough := by
    revert htype
    simp only [List.mem_cons, List.not_mem_nil, or_false, allowedThrough]
    tauto
  have hpart : (type == ascii "PART") = false ∧ type ≠ ascii "JOIN" := by
    simp only [List.mem_cons, List.not_mem_nil, or_false] at htype
    obtain rfl | rfl := htype <;> decide
  rw [on_channel_message_nil hchannel]
  cases hidden with
  | true =>
      have hoper : (operInvisible == 0#32) = false := by decide
      simp [channelMessageReaches, ChannelMessage.plain, hprivilege, hoper]
  | false =>
      simp [channelMessageReaches, ChannelMessage.plain, hallowed, hpart, ChatPeer.inChannel]

/-- The entry message of a channel is for the member alone. -/
theorem entry_message_nil (hother : viewer.peer.details.id ≠ member.details.id)
    (huser : member.details.id ≠ 0) (hchannel : channelId ≠ 0) (source : Sender) (text : Bytes) :
    onChannelMessage env viewer store
      { ChannelMessage.plain (ascii "NOTICE") channelId source text with
        onlyVisibleTo := member.details.id } = [] := by
  have hjoin : ¬ (ascii "NOTICE" = ascii "JOIN") := by decide
  rw [on_channel_message_nil hchannel]
  exact fun _ => ⟨.inr fun h => h.elim huser fun heq => hother heq.symm, fun h => hjoin h.1⟩

theorem flat_map_if_nil {α β : Type*} {f : α → List β} {p : Prop} [Decidable p] {element : α} :
    (if p then [element] else []).flatMap f = [] ↔ (p → f element = []) := by
  split <;> simp [*]

/-- The events of a JOIN show a rank. -/
theorem join_events_nil (hprivilege : viewer.peer.hasPrivilege operInvisible = false)
    (hother : viewer.peer.details.id ≠ member.details.id) (huser : member.details.id ≠ 0)
    (hchannel : channelId ≠ 0) :
    (joinEventsPublished env member channelId store).flatMap (deliver env viewer store) = [] ↔
      ¬ (¬ hasFlag (initialFlags member channelId) invisible ∧
        hasFlag (initialFlags member channelId) (voice ||| (halfOp ||| op ||| owner)) ∧
        viewer.peer.inChannel channelId ∧ ¬ viewer.peer.isQuiet) := by
  have hnotice := fun text => @server_message_nil env viewer store channelId hprivilege hchannel
    (ascii "NOTICE") (by simp) text (hasFlag (initialFlags member channelId) invisible)
  have hmode := fun text => @server_message_nil env viewer store channelId hprivilege hchannel
    (ascii "MODE") (by simp) text (hasFlag (initialFlags member channelId) invisible)
  have hentry := @entry_message_nil env viewer store member channelId hother huser hchannel
  rw [has_flag_or]
  unfold joinEventsPublished
  simp only [List.flatMap_append, List.append_eq_nil_iff]
  have hend : (if (lookupChannelById env store channelId).entrymsg = [] then []
      else [Published.channelMessage { ChannelMessage.plain (ascii "NOTICE") channelId
        (sentSummary (serverUserSummary env)) (lookupChannelById env store channelId).entrymsg with
          onlyVisibleTo := member.details.id }]).flatMap (deliver env viewer store) = [] := by
    split
    · rfl
    · rw [List.flatMap_singleton]
      exact hentry _ _
  rw [and_iff_left hend, flat_map_if_nil, flat_map_if_nil, flat_map_if_nil]
  simp only [deliver, hnotice, hmode]
  cases hasFlag (initialFlags member channelId) invisible <;>
    cases hasFlag (initialFlags member channelId) voice <;> simp +contextual

/-- A member asks for the events when his own JOIN is passed on to him. -/
theorem join_events_mem (hchannel : channelId ≠ 0) :
    .joinEvents channelId ∈ onChannelMessage env ⟨member, []⟩ store (joinMessage member channelId) ↔
      member.inChannel channelId ∧ (decoded env member).id = member.details.id ∧
        (hasFlag (lookupUserChannelModeFlags store channelId (decoded env member).id) invisible →
          member.hasPrivilege operInvisible) := by
  have hto : (joinMessage member channelId).toChannelId = channelId := rfl
  have htype : (joinMessage member channelId).type = ascii "JOIN" := rfl
  have hsource : (joinMessage member channelId).source.resolve env store = decoded env member := rfl
  unfold onChannelMessage
  simp only [join_reaches, hto, htype, hsource]
  have hne : ¬ channelId = 0#32 := hchannel
  cases member.inChannel channelId <;>
    cases hasFlag (lookupUserChannelModeFlags store channelId (decoded env member).id) invisible <;>
    cases member.hasPrivilege operInvisible <;> simp [hne]

/-- A message that is for peers with the flag `EUserChannelFlag_Invisible` comes to no other peer,
except for a PART that is taken for its own. -/
theorem hidden_reaches {message : ChannelMessage} (hto : message.toChannelId = channelId)
    (hrequired : message.requiredChanUserModes = invisible)
    (hflag : hasFlag (viewer.peer.channelFlags channelId) invisible = false)
    (hreaches : channelMessageReaches env viewer store message) :
    message.type = ascii "PART" ∧
      (message.source.resolve env store).id = viewer.peer.details.id := by
  have hinvisible : (invisible == 0#32) = false := by decide
  simp only [channelMessageReaches, hto, hrequired, hflag, Bool.and_eq_true, Bool.or_eq_true,
    beq_iff_eq] at hreaches
  obtain ⟨⟨⟨-, hgoes⟩, -⟩, -⟩ := hreaches
  rcases hgoes with ⟨-, hmode⟩ | ⟨hown, htype⟩
  · rcases hmode with hmode | hmode
    · cases hmode
    · rw [hmode] at hinvisible
      cases hinvisible
  · exact ⟨htype, hown⟩

theorem hidden_nil {message : ChannelMessage} (hchannel : channelId ≠ 0)
    (hto : message.toChannelId = channelId)
    (hrequired : message.requiredChanUserModes = invisible)
    (hflag : hasFlag (viewer.peer.channelFlags channelId) invisible = false)
    (htype : message.type ≠ ascii "PART") :
    onChannelMessage env viewer store message = [] :=
  (on_channel_message_nil (hto ▸ hchannel)).mpr fun hreaches =>
    absurd (hidden_reaches hto hrequired hflag hreaches).1 htype

/-- The notice about an invisible user does not come to such a peer. -/
theorem invisible_notice_nil (hchannel : channelId ≠ 0)
    (hflag : hasFlag (viewer.peer.channelFlags channelId) invisible = false) (modeflags : BitVec 32)
    (details : UserSummary) (event : Bytes) :
    (invisibleNotice modeflags channelId details event).flatMap (deliver env viewer store) = [] := by
  unfold invisibleNotice
  have htype : ascii "NOTICE" ≠ ascii "PART" := by decide
  by_cases hmode : hasFlag modeflags invisible
  · rw [if_pos hmode, List.flatMap_singleton]
    exact hidden_nil hchannel rfl (if_pos hmode) hflag htype
  · rw [if_neg hmode]
    rfl

/-- The PART of an invisible user comes to those who take it for their own. -/
theorem hidden_part_nil (hchannel : channelId ≠ 0)
    (hprivilege : viewer.peer.hasPrivilege operInvisible = false)
    (hflag : hasFlag (viewer.peer.channelFlags channelId) invisible = false) {modeflags : BitVec 32}
    (hmode : hasFlag modeflags invisible) (text : Bytes) :
    deliver env viewer store (hiddenMessage modeflags
        (.plain (ascii "PART") channelId (sentSummary member.details) text)) = [] ↔
      ¬ ((decoded env member).id = viewer.peer.details.id ∧
        ¬ hasFlag (lookupUserChannelModeFlags store channelId viewer.peer.details.id) invisible ∧
        ¬ viewer.peer.isQuiet) := by
  have hallowed : allowedThrough.contains (ascii "PART") = false := by decide
  have hjoin : ¬ ascii "PART" = ascii "JOIN" := by decide
  have hinvisible : ¬ invisible = 0#32 := by decide
  have hsource : (sentSummary member.details).resolve env store = decoded env member := rfl
  rw [hiddenMessage, deliver, on_channel_message_nil hchannel, if_pos hmode]
  simp only [channelMessageReaches, ChannelMessage.plain, hsource, hallowed, hjoin, hflag,
    hprivilege]
  by_cases hown : (decoded env member).id = viewer.peer.details.id
  · simp [hown]
  · simp [hown, hinvisible]

/-- The flags after a PART of the member. -/
theorem part_flags (channelName : Bytes) (otherId : BitVec 32) (userId : Int) :
    lookupUserChannelModeFlags (performUserPartChannel env member channelName store).1 otherId
        userId =
      if otherId = (getChannelSummaryByName env store channelName).channelId ∧
          userId = member.details.id ∧ otherId ≠ 0 ∧
          hasFlag (lookupUserChannelModeFlags store otherId member.details.id) isInChannel
      then 0 else lookupUserChannelModeFlags store otherId userId := by
  unfold performUserPartChannel
  simp only
  split
  · rename_i hchannel
    split
    · rename_i hmember
      rw [(same_members_remove _ _ _ _ _).flags, removeMember, lookup_delete]
      refine if_congr ⟨?_, ?_⟩ rfl rfl
      · rintro ⟨rfl, rfl⟩
        exact ⟨rfl, rfl, hchannel, hmember⟩
      · rintro ⟨hid, huser, -⟩
        exact ⟨hid, huser⟩
    · rename_i hmember
      rw [if_neg]
      rintro ⟨rfl, -, -, hin⟩
      exact hmember hin
  · rename_i hchannel
    rw [if_neg]
    rintro ⟨rfl, -, hzero, -⟩
    exact hchannel hzero

/-- What a SETCKEY publishes. -/
theorem set_c_key_published (channelTarget userTarget kvText : Bytes) :
    (performSetChannelUserKeys env member channelTarget userTarget kvText (.ofStore store)).2 =
      match setCKeyTarget env member channelTarget userTarget store with
      | none => []
      | some (channelId, userId) =>
          if broadcastKeys kvText = [] then []
          else [.setChannelUserKeys channelId userId (kvString (broadcastKeys kvText))] := by
  unfold performSetChannelUserKeys
  rw [show (KeyState.ofStore store).store = store from rfl]
  cases setCKeyTarget env member channelTarget userTarget store <;> rfl

/-- The channel of a SETCKEY is the one that it names. -/
theorem set_c_key_channel {channelTarget userTarget : Bytes} {found : BitVec 32 × Int}
    (h : setCKeyTarget env member channelTarget userTarget store = some found) :
    found.1 = (getChannelSummaryByName env store channelTarget).channelId := by
  unfold setCKeyTarget at h
  simp only at h
  split at h
  · cases h
  · split at h
    · split at h
      · rw [← Option.some.inj h]
      · cases h
    · cases h

/-- A channel counts for a QUIT or NICK if it is named. -/
theorem shares_channel_iff (hprivilege : viewer.peer.hasPrivilege operInvisible = false)
    (known : List (BitVec 32)) : sharesChannel viewer (broadcastChannels member known) ↔
      sharesChannel viewer (broadcastChannels member (known.filter (· ≠ channelId))) ∨
        (channelId ∈ known ∧ viewer.peer.inChannel channelId ∧
          ¬ hasFlag (member.channelFlags channelId) invisible) := by
  simp only [sharesChannel, broadcastChannels, List.any_map, List.any_eq_true, Function.comp_apply,
    hprivilege, Bool.or_false, Bool.and_eq_true, Bool.not_eq_true', Bool.not_eq_true,
    List.mem_filter, decide_eq_true_eq]
  constructor
  · rintro ⟨id, hknown, hshares⟩
    by_cases hid : id = channelId
    · subst hid
      exact .inr ⟨hknown, hshares⟩
    · exact .inl ⟨id, ⟨hknown, hid⟩, hshares⟩
  · rintro (⟨id, ⟨hknown, -⟩, hshares⟩ | ⟨hknown, hshares⟩)
    · exact ⟨id, hknown, hshares⟩
    · exact ⟨channelId, hknown, hshares⟩

/-- A QUIT or NICK shows the channel if it comes to the viewer for this channel alone. -/
theorem broadcast_same_iff (hprivilege : viewer.peer.hasPrivilege operInvisible = false)
    (other : ChannelStore) (type text : Bytes) (known : List (BitVec 32)) :
    onChannelBroadcast env viewer store
        ⟨type, sentSummary member.details, broadcastChannels member known, text, true⟩ =
      onChannelBroadcast env viewer other
        ⟨type, sentSummary member.details,
          broadcastChannels member (known.filter (· ≠ channelId)), text, true⟩ ↔
      ¬ BroadcastShows env viewer member channelId known := by
  have hsource : ∀ store, (sentSummary member.details).resolve env store = decoded env member :=
    fun _ => rfl
  have hshares := @shares_channel_iff viewer member channelId hprivilege known
  simp only [onChannelBroadcast, hsource, true_and, BroadcastShows]
  by_cases hown : viewer.peer.details.id = (decoded env member).id
  · simp [hown]
  · by_cases hrest : sharesChannel viewer (broadcastChannels member (known.filter (· ≠ channelId)))
    · rw [if_pos (.inr (hshares.mpr (.inl hrest))), if_pos (.inr hrest)]
      exact iff_of_true rfl fun hshows => hshows.2.2.2.2.1 hrest
    · by_cases hhere : channelId ∈ known ∧ viewer.peer.inChannel channelId ∧
          ¬ hasFlag (member.channelFlags channelId) invisible
      · rw [if_pos (.inr (hshares.mpr (.inr hhere))), if_neg (not_or.mpr ⟨hown, hrest⟩)]
        by_cases hquiet : viewer.peer.isQuiet
        · simp [sendMessage, hquiet]
        · refine iff_of_false (by simp [sendMessage, hquiet]) (not_not.mpr ?_)
          exact ⟨hhere.1, hhere.2.1, hhere.2.2, fun heq => hown heq.symm, hrest, hquiet⟩
      · have hnone : ¬ sharesChannel viewer (broadcastChannels member known) :=
          fun hall => (hshares.mp hall).elim hrest hhere
        rw [if_neg (not_or.mpr ⟨hown, hnone⟩), if_neg (not_or.mpr ⟨hown, hrest⟩)]
        exact iff_of_true rfl fun hshows => hhere ⟨hshows.1, hshows.2.1, hshows.2.2.1⟩

section Membership

variable {backing : Backing} (h : HiddenMember backing.store member channelId)
  (o : Ordinary viewer member channelId)

include h o

/-- The JOIN shows, or the rank does. -/
theorem join_nil_iff : eventSeen env viewer member channelId backing.store .join = [] ↔
    ¬ Occasion.Shows env viewer member channelId backing .join := by
  have hall : (joinMessage member channelId).onlyVisibleTo = 0 := rfl
  have htype : (joinMessage member channelId).type = ascii "JOIN" := rfl
  have hsource : (joinMessage member channelId).source.resolve env backing.store =
    decoded env member := rfl
  have hself : onChannelMessage env viewer backing.store (joinMessage member channelId) = [] ↔
      ¬ (viewer.peer.inChannel channelId ∧
        JoinShows env viewer member channelId backing.store) := by
    rw [on_channel_message_nil h.channel, join_reaches, o.privilege, hall, htype, hsource, JoinShows]
    simp only [Bool.or_false, Bool.and_eq_true, Bool.not_eq_true', Bool.not_eq_true, true_or,
      not_true_eq_false, or_false, true_and]
    tauto
  have hevents : (if .joinEvents channelId ∈
        onChannelMessage env ⟨member, []⟩ backing.store (joinMessage member channelId)
      then joinEventsPublished env member channelId backing.store
      else []).flatMap (deliver env viewer backing.store) = [] ↔
      ¬ (viewer.peer.inChannel channelId ∧
        RankShows env viewer member channelId backing.store) := by
    have hrank := @join_events_nil env viewer backing.store member channelId o.privilege o.other
      h.user h.channel
    unfold RankShows
    by_cases hmem : .joinEvents channelId ∈
        onChannelMessage env ⟨member, []⟩ backing.store (joinMessage member channelId)
    · rw [if_pos hmem, hrank]
      rw [join_events_mem h.channel] at hmem
      obtain ⟨hin, hown, hsees⟩ := hmem
      refine not_congr ⟨?_, ?_⟩
      · rintro ⟨hflag, hranked, hviewer, hquiet⟩
        exact ⟨hviewer, hin, hown, hsees, hflag, hranked, hquiet⟩
      · rintro ⟨hviewer, -, -, -, hflag, hranked, hquiet⟩
        exact ⟨hflag, hranked, hviewer, hquiet⟩
    · rw [if_neg hmem]
      rw [join_events_mem h.channel] at hmem
      exact iff_of_true rfl fun hshows => hmem ⟨hshows.2.1, hshows.2.2.1, hshows.2.2.2.1⟩
  rw [eventSeen, joinPublished, List.flatMap_cons, List.append_eq_nil_iff, deliver, hself, hevents,
    Occasion.Shows, ← not_or, ← and_or_left]

/-- A PART shows to a viewer for whom the member is taken by mistake. -/
theorem part_nil_iff (channelName message : Bytes)
    (hname : (getChannelSummaryByName env backing.store channelName).channelId = channelId) :
    eventSeen env viewer member channelId backing.store (.part channelName message) = [] ↔
      ¬ Occasion.Shows env viewer member channelId backing (.part channelName message) := by
  have hpublished : partPublished env member channelName message backing.store =
      invisibleNotice (lookupUserChannelModeFlags backing.store channelId member.details.id)
          channelId member.details (ascii " PARTED CHANNEL") ++
        [hiddenMessage (lookupUserChannelModeFlags backing.store channelId member.details.id)
          (.plain (ascii "PART") channelId (sentSummary member.details) message)] := by
    unfold partPublished
    simp only [hname]
    rw [if_pos ⟨h.channel, h.isMember⟩]
  simp only [eventSeen, Occasion.Shows, hname, true_and]
  rw [hpublished, List.flatMap_append, List.append_eq_nil_iff,
    and_iff_right (invisible_notice_nil h.channel o.flag _ _ _), List.flatMap_singleton,
    hidden_part_nil h.channel o.privilege o.flag h.isInvisible, part_flags,
    if_neg fun heq => o.other heq.2.1]

/-- A member who is kicked does not show. -/
theorem kicked_nil (kicker : ChatPeer) (channelName target message : Bytes)
    (hname : (getChannelSummaryByName env backing.store channelName).channelId = channelId)
    (htarget : (getUserSummaryByName env backing.store target).id = member.details.id) :
    eventSeen env viewer member channelId backing.store
      (.kick kicker channelName target message) = [] := by
  have htype : ascii "KICK" ≠ ascii "PART" := by decide
  unfold eventSeen kickPublished
  simp only [hname, htarget]
  split
  · rw [List.flatMap_append, invisible_notice_nil h.channel o.flag, List.nil_append,
      List.flatMap_singleton]
    exact hidden_nil h.channel rfl (if_pos h.isInvisible) o.flag htype
  · rfl

theorem privmsg_nil_iff (channelName message : Bytes)
    (hname : (getChannelSummaryByName env backing.store channelName).channelId = channelId) :
    eventSeen env viewer member channelId backing.store (.privmsg channelName message) = [] ↔
      ¬ Occasion.Shows env viewer member channelId backing (.privmsg channelName message) := by
  have hallowed : allowedThrough.contains (ascii "PRIVMSG") = false := by decide
  have hjoin : ¬ ascii "PRIVMSG" = ascii "JOIN" := by decide
  have hpart : (ascii "PRIVMSG" == ascii "PART") = false := by decide
  simp only [eventSeen, privmsgPublished, Occasion.Shows, hname, true_and]
  by_cases hsends : checkUserCanSendMessage
      (getChannelSummaryByName env backing.store channelName) member
  · rw [if_pos ⟨h.channel, hsends⟩, List.flatMap_singleton, deliver,
      on_channel_message_nil h.channel]
    simp only [channelMessageReaches, ChannelMessage.plain, Sender.resolve, hallowed, hjoin, hpart,
      o.privilege, hsends, ChatPeer.inChannel]
    simp only [Bool.false_or, Bool.or_false, Bool.not_eq_true', Bool.and_eq_true, beq_self_eq_true,
      Bool.or_true, Bool.and_true, Bool.and_false, Bool.not_eq_true, true_or, not_true_eq_false,
      false_and, not_false_eq_true, and_true, or_false, not_and, and_imp, true_implies,
      beq_eq_false_iff_ne, Bool.not_eq_false]
    exact ⟨fun hnil hin hne hflag => hnil hflag hin hne,
      fun hnil hflag hin hne => hnil hin hne hflag⟩
  · rw [if_neg fun hboth => hsends hboth.2]
    exact iff_of_true rfl fun hshows => hsends hshows.1

theorem set_c_key_nil_iff (channelTarget userTarget kvText : Bytes)
    (hname : (getChannelSummaryByName env backing.store channelTarget).channelId = channelId) :
    eventSeen env viewer member channelId backing.store
        (.setCKey channelTarget userTarget kvText) = [] ↔
      ¬ Occasion.Shows env viewer member channelId backing
        (.setCKey channelTarget userTarget kvText) := by
  simp only [eventSeen, set_c_key_published, Occasion.Shows]
  cases htarget : setCKeyTarget env member channelTarget userTarget backing.store with
  | none => exact iff_of_true rfl (by simp)
  | some found =>
      obtain ⟨foundId, userId⟩ := found
      have hfound : foundId = channelId := (set_c_key_channel htarget).trans hname
      subst hfound
      by_cases hkeys : broadcastKeys kvText = []
      · simp [hkeys]
      · by_cases hin : viewer.peer.inChannel foundId
        · simp [hin, hkeys, deliver]
        · simp [hin, hkeys, deliver]

end Membership

section Elsewhere

variable {other : ChannelStore} {otherId : BitVec 32}

/-- Two stores in which the users and channels are the same. -/
structure SameNames (store other : ChannelStore) : Prop where
  user : store.user = other.user
  usernick : store.usernick = other.usernick
  channel : store.channel = other.channel
  channelname : store.channelname = other.channelname

theorem SameNames.symm (h : SameNames store other) : SameNames other store :=
  ⟨h.user.symm, h.usernick.symm, h.channel.symm, h.channelname.symm⟩

theorem same_names_remove (userId : Int) :
    SameNames (removeMember store userId channelId 0) store :=
  ⟨rfl, rfl, rfl, rfl⟩

theorem SameNames.channel_id (h : SameNames store other) (env : Environment) (name : Bytes) :
    (getChannelSummaryByName env store name).channelId =
      (getChannelSummaryByName env other name).channelId := by
  rw [channel_id_by_name, channel_id_by_name, getChannelIdByName, getChannelIdByName, h.channel,
    h.channelname]

theorem SameNames.basic_mode_flags (h : SameNames store other) (env : Environment) (name : Bytes) :
    (getChannelSummaryByName env store name).basicModeFlags =
      (getChannelSummaryByName env other name).basicModeFlags := by
  have hid := h.channel_id env name
  rw [channel_id_by_name, channel_id_by_name] at hid
  simp only [getChannelSummaryByName, hid]
  split
  · simp only [lookupChannelById, h.channel]
  · rfl

theorem SameNames.user_by_name (h : SameNames store other) (env : Environment) (name : Bytes) :
    getUserSummaryByName env store name = getUserSummaryByName env other name := by
  have hlookup : lookupUserById env store = lookupUserById env other := by
    funext userId
    simp only [lookupUserById, h.user]
  rw [getUserSummaryByName, getUserSummaryByName, h.usernick, hlookup]

theorem part_published_channel (channelName text : Bytes) {published : Published}
    (h : published ∈ partPublished env member channelName text store) :
    ∃ message, published = .channelMessage message ∧
      message.toChannelId = (getChannelSummaryByName env store channelName).channelId := by
  unfold partPublished invisibleNotice at h
  simp only at h
  split at h
  · simp only [List.mem_append, List.mem_singleton] at h
    obtain hnotice | rfl := h
    · split at hnotice
      · rw [List.mem_singleton] at hnotice
        exact ⟨_, hnotice, rfl⟩
      · cases hnotice
    · exact ⟨_, rfl, rfl⟩
  · cases h

theorem kick_published_type (kicker : ChatPeer) (channelName target text : Bytes)
    {published : Published}
    (h : published ∈ kickPublished env kicker channelName target text store) :
    ∃ message, published = .channelMessage message ∧ message.type ∈ allowedThrough := by
  have hnoticeType : ascii "NOTICE" ∈ allowedThrough := by decide
  have hkickType : ascii "KICK" ∈ allowedThrough := by decide
  unfold kickPublished invisibleNotice at h
  simp only at h
  split at h
  · simp only [List.mem_append, List.mem_singleton] at h
    obtain hnotice | rfl := h
    · split at hnotice
      · rw [List.mem_singleton] at hnotice
        exact ⟨_, hnotice, hnoticeType⟩
      · cases hnotice
    · exact ⟨_, rfl, hkickType⟩
  · cases h

variable {backing : Backing}

/-- A PART of another channel is the same. -/
theorem part_elsewhere (channelName text : Bytes)
    (hname : (getChannelSummaryByName env backing.store channelName).channelId ≠ channelId) :
    eventSeen env viewer member channelId backing.store (.part channelName text) =
      eventSeen env viewer member channelId
        (backing.withoutMember channelId member.details.id).store (.part channelName text) := by
  have hnames := @same_names_remove backing.store channelId member.details.id
  have hid := hnames.channel_id env channelName
  have hflags : ∀ userId, lookupUserChannelModeFlags
        (removeMember backing.store member.details.id channelId 0)
        (getChannelSummaryByName env backing.store channelName).channelId userId =
      lookupUserChannelModeFlags backing.store
        (getChannelSummaryByName env backing.store channelName).channelId userId :=
    fun userId => flags_without_member fun heq => hname heq.1
  have hpublished : partPublished env member channelName text
        (removeMember backing.store member.details.id channelId 0) =
      partPublished env member channelName text backing.store := by
    unfold partPublished
    simp only [hid, hflags]
  show (partPublished env member channelName text backing.store).flatMap _ =
    (partPublished env member channelName text
      (removeMember backing.store member.details.id channelId 0)).flatMap _
  rw [hpublished]
  refine List.flatMap_congr fun published hmem => ?_
  obtain ⟨message, rfl, hto⟩ := part_published_channel channelName text hmem
  have hleft := @perform_part_channel env backing.store member channelName
  have hright := @perform_part_channel env
    (removeMember backing.store member.details.id channelId 0) member channelName
  refine on_channel_message_congr (hleft.1.trans hright.1.symm) (hleft.2.trans hright.2.symm)
    (.inr (funext fun userId => ?_))
  show _ = lookupUserChannelModeFlags (performUserPartChannel env member channelName
    (removeMember backing.store member.details.id channelId 0)).1 _ _
  rw [part_flags, part_flags, hid, hto, hflags, hflags]

/-- A KICK comes to the members, unless the one who is kicked is invisible. -/
theorem kick_message_nil (hchannel : channelId ≠ 0)
    (hflag : hasFlag (viewer.peer.channelFlags channelId) invisible = false) (modeflags : BitVec 32)
    (source : Sender) (text : Bytes) (target : Option Sender) :
    deliver env viewer store (hiddenMessage modeflags
        { ChannelMessage.plain (ascii "KICK") channelId source text with target := target }) = [] ↔
      ¬ (¬ hasFlag modeflags invisible ∧ viewer.peer.inChannel channelId ∧
        ¬ viewer.peer.isQuiet) := by
  have hallowed : allowedThrough.contains (ascii "KICK") = true := by decide
  have hjoin : ¬ ascii "KICK" = ascii "JOIN" := by decide
  have hpart : (ascii "KICK" == ascii "PART") = false := by decide
  have hinvisible : ¬ invisible = 0#32 := by decide
  rw [hiddenMessage, deliver, on_channel_message_nil hchannel]
  simp only [channelMessageReaches, ChannelMessage.plain, hallowed, hjoin, hpart,
    ChatPeer.inChannel]
  by_cases hmode : hasFlag modeflags invisible
  · simp [hmode, hflag, hinvisible]
  · simp [hmode]

/-- A KICK that is published alike is passed on alike. -/
theorem kick_passed_on (kicker : ChatPeer) (channelName target text : Bytes)
    (hpublished : kickPublished env kicker channelName target text
        (removeMember backing.store member.details.id channelId 0) =
      kickPublished env kicker channelName target text backing.store) :
    eventSeen env viewer member channelId backing.store (.kick kicker channelName target text) =
      eventSeen env viewer member channelId
        (backing.withoutMember channelId member.details.id).store
        (.kick kicker channelName target text) := by
  show (kickPublished env kicker channelName target text backing.store).flatMap _ =
    (kickPublished env kicker channelName target text
      (removeMember backing.store member.details.id channelId 0)).flatMap _
  rw [hpublished]
  refine List.flatMap_congr fun published hmem => ?_
  obtain ⟨message, rfl, htype⟩ := kick_published_type kicker channelName target text hmem
  have hleft := @perform_kick_channel env backing.store kicker channelName target
  have hright := @perform_kick_channel env
    (removeMember backing.store member.details.id channelId 0) kicker channelName target
  exact on_channel_message_congr (hleft.1.trans hright.1.symm) (hleft.2.trans hright.2.symm)
    (.inl htype)

/-- A KICK of somebody else is the same, unless the member has the rank for it. -/
theorem kick_elsewhere_iff (kicker : ChatPeer) (channelName target text : Bytes)
    (hother : ¬ ((getChannelSummaryByName env backing.store channelName).channelId = channelId ∧
      (getUserSummaryByName env backing.store target).id = member.details.id))
    (hflag : hasFlag (viewer.peer.channelFlags channelId) invisible = false)
    (hchannel : channelId ≠ 0) :
    eventSeen env viewer member channelId backing.store (.kick kicker channelName target text) =
        eventSeen env viewer member channelId
          (backing.withoutMember channelId member.details.id).store
          (.kick kicker channelName target text) ↔
      ¬ KickShows env viewer member channelId kicker channelName target backing.store := by
  have hnames := @same_names_remove backing.store channelId member.details.id
  have hid := hnames.channel_id env channelName
  have htarget := hnames.user_by_name env target
  have hto : lookupUserChannelModeFlags (removeMember backing.store member.details.id channelId 0)
        (getChannelSummaryByName env backing.store channelName).channelId
        (getUserSummaryByName env backing.store target).id =
      lookupUserChannelModeFlags backing.store
        (getChannelSummaryByName env backing.store channelName).channelId
        (getUserSummaryByName env backing.store target).id :=
    flags_without_member hother
  by_cases hself : (getChannelSummaryByName env backing.store channelName).channelId = channelId ∧
      kicker.details.id = member.details.id
  · by_cases hoverride : kicker.hasPrivilege operOverride
    · refine iff_of_true (kick_passed_on kicker channelName target text ?_)
        fun hshows => hshows.2.2.2.2.1 hoverride
      simp only [kickPublished, checkActionPermissions, hoverride, if_true, hid, htarget, hto]
    · obtain ⟨hchannelId, hkicker⟩ := hself
      have hnone : lookupUserChannelModeFlags
          (removeMember backing.store member.details.id channelId 0) channelId
          member.details.id = 0 := by
        rw [removeMember, lookup_delete, if_pos ⟨rfl, rfl⟩]
      have hrefused : kickPublished env kicker channelName target text
          (removeMember backing.store member.details.id channelId 0) = [] := by
        unfold kickPublished
        simp only [hid, hchannelId, hkicker, hnone]
        have hlevel : ¬ getUserChannelModeLevel halfOp ≤ getUserChannelModeLevel 0#32 := by
          decide
        simp [checkActionPermissions, hoverride, hlevel]
      have hwithout : eventSeen env viewer member channelId
          (backing.withoutMember channelId member.details.id).store
          (.kick kicker channelName target text) = [] := by
        show (kickPublished env kicker channelName target text
          (removeMember backing.store member.details.id channelId 0)).flatMap _ = []
        rw [hrefused, List.flatMap_nil]
      rw [hwithout, KickShows]
      unfold eventSeen kickPublished KickAccepted
      simp only [hchannelId, hkicker]
      have hsomebody : (getUserSummaryByName env backing.store target).id ≠ member.details.id :=
        fun heq => hother ⟨hchannelId, heq⟩
      split
      · rename_i haccepted
        rw [List.flatMap_append, invisible_notice_nil hchannel hflag, List.nil_append,
          List.flatMap_singleton, kick_message_nil hchannel hflag]
        simp [haccepted, hsomebody, hoverride]
      · rename_i hnot
        exact iff_of_true rfl fun hshows => hnot hshows.2.2.2.1
  · refine iff_of_true (kick_passed_on kicker channelName target text ?_)
      fun hshows => hself ⟨hshows.1, hshows.2.1⟩
    have hfrom : lookupUserChannelModeFlags
          (removeMember backing.store member.details.id channelId 0)
          (getChannelSummaryByName env backing.store channelName).channelId kicker.details.id =
        lookupUserChannelModeFlags backing.store
          (getChannelSummaryByName env backing.store channelName).channelId kicker.details.id :=
      flags_without_member hself
    simp only [kickPublished, hid, htarget, hto, hfrom]

theorem privmsg_elsewhere (channelName text : Bytes)
    (hname : (getChannelSummaryByName env backing.store channelName).channelId ≠ channelId) :
    eventSeen env viewer member channelId backing.store (.privmsg channelName text) =
      eventSeen env viewer member channelId
        (backing.withoutMember channelId member.details.id).store (.privmsg channelName text) := by
  have hnames := @same_names_remove backing.store channelId member.details.id
  have hid := hnames.channel_id env channelName
  have hmodes := hnames.basic_mode_flags env channelName
  have hcan : checkUserCanSendMessage (getChannelSummaryByName env
        (removeMember backing.store member.details.id channelId 0) channelName) member =
      checkUserCanSendMessage (getChannelSummaryByName env backing.store channelName) member := by
    simp only [checkUserCanSendMessage, hid, hmodes]
  have hpublished : privmsgPublished env member channelName text
        (removeMember backing.store member.details.id channelId 0) =
      privmsgPublished env member channelName text backing.store := by
    unfold privmsgPublished
    simp only [hid, hcan]
  show (privmsgPublished env member channelName text backing.store).flatMap _ =
    (privmsgPublished env member channelName text
      (removeMember backing.store member.details.id channelId 0)).flatMap _
  rw [hpublished]
  refine List.flatMap_congr fun published hmem => ?_
  unfold privmsgPublished at hmem
  simp only at hmem
  split at hmem
  · rw [List.mem_singleton] at hmem
    subst hmem
    refine on_channel_message_congr rfl rfl (.inr (funext fun userId => ?_))
    exact (flags_without_member fun heq => hname heq.1).symm
  · cases hmem

theorem set_c_key_elsewhere (channelTarget userTarget kvText : Bytes)
    (hname : (getChannelSummaryByName env backing.store channelTarget).channelId ≠ channelId) :
    eventSeen env viewer member channelId backing.store
        (.setCKey channelTarget userTarget kvText) =
      eventSeen env viewer member channelId
        (backing.withoutMember channelId member.details.id).store
        (.setCKey channelTarget userTarget kvText) := by
  have hnames := @same_names_remove backing.store channelId member.details.id
  have hid := hnames.channel_id env channelTarget
  have hlookup := hnames.user_by_name env userTarget
  have hflags : lookupUserChannelModeFlags
        (removeMember backing.store member.details.id channelId 0)
        (getChannelSummaryByName env backing.store channelTarget).channelId member.details.id =
      lookupUserChannelModeFlags backing.store
        (getChannelSummaryByName env backing.store channelTarget).channelId member.details.id :=
    flags_without_member fun heq => hname heq.1
  have hfound : setCKeyTarget env member channelTarget userTarget
        (removeMember backing.store member.details.id channelId 0) =
      setCKeyTarget env member channelTarget userTarget backing.store := by
    unfold setCKeyTarget
    simp only [hid, hlookup, hflags]
  show (performSetChannelUserKeys env member channelTarget userTarget kvText
      (.ofStore backing.store)).2.flatMap _ =
    (performSetChannelUserKeys env member channelTarget userTarget kvText
      (.ofStore (removeMember backing.store member.details.id channelId 0))).2.flatMap _
  rw [set_c_key_published, set_c_key_published, hfound]
  refine List.flatMap_congr fun published hmem => ?_
  split at hmem
  · cases hmem
  · split at hmem
    · cases hmem
    · rw [List.mem_singleton] at hmem
      subst hmem
      rfl

end Elsewhere

end Events

section Main

variable {env : Environment} {viewer : Viewer} {backing : Backing} {member : ChatPeer}
  {channelId : BitVec 32}

/-- For a query the answers are compared. -/
theorem seen_query_iff {occasion : Occasion}
    (hevent : ∀ store other : ChannelStore, eventSeen env viewer member channelId store occasion =
      eventSeen env viewer member channelId other (occasion.withoutChannel channelId))
    (hmember : ¬ occasion.OfMembership env member channelId backing.store) :
    seen env viewer member channelId backing occasion =
        seenWithout env viewer member channelId backing occasion ↔
      answer env viewer backing occasion =
        answer env viewer (backing.withoutMember channelId member.details.id) occasion := by
  have hinj : Function.Injective Received.packet := fun _ _ heq => Received.packet.inj heq
  rw [seen, seenWithout, if_neg hmember, hevent backing.store, List.append_left_inj,
    (List.map_injective_iff.mpr hinj).eq_iff]

/-- For an event of the membership, nothing may be seen. -/
theorem seen_event_iff {occasion : Occasion}
    (hanswer : ∀ backing, answer env viewer backing occasion = [])
    (hmember : occasion.OfMembership env member channelId backing.store) :
    seen env viewer member channelId backing occasion =
        seenWithout env viewer member channelId backing occasion ↔
      eventSeen env viewer member channelId backing.store occasion = [] := by
  rw [seen, seenWithout, if_pos hmember, hanswer, hanswer]
  simp

/-- For another event, the same must be seen. -/
theorem seen_elsewhere_iff {occasion : Occasion}
    (hanswer : ∀ backing, answer env viewer backing occasion = [])
    (hmember : ¬ occasion.OfMembership env member channelId backing.store) :
    seen env viewer member channelId backing occasion =
        seenWithout env viewer member channelId backing occasion ↔
      eventSeen env viewer member channelId backing.store occasion =
        eventSeen env viewer member channelId
          (backing.withoutMember channelId member.details.id).store
          (occasion.withoutChannel channelId) := by
  rw [seen, seenWithout, if_neg hmember, hanswer, hanswer]
  simp

/-- A peer that must not see an invisible member is sent what it would be sent if he were not a
member exactly on the occasions on which he does not show. -/
theorem no_trace_iff (hidden : HiddenMember backing.store member channelId)
    (ordinary : Ordinary viewer member channelId) (occasion : Occasion) :
    seen env viewer member channelId backing occasion =
        seenWithout env viewer member channelId backing occasion ↔
      ¬ occasion.Shows env viewer member channelId backing := by
  cases occasion with
  | names name =>
      refine Iff.trans (seen_query_iff (fun _ _ => rfl) id) ?_
      exact iff_of_true (answer_names hidden ordinary.privilege name).symm id
  | who target =>
      refine Iff.trans (seen_query_iff (fun _ _ => rfl) id) ?_
      exact iff_of_true (answer_who hidden target).symm id
  | list arguments =>
      refine Iff.trans (seen_query_iff (fun _ _ => rfl) id) ?_
      exact iff_of_true (answer_list hidden ordinary.privilege arguments).symm id
  | getCKey channelTarget numeric kvText =>
      refine Iff.trans (seen_query_iff (fun _ _ => rfl) id) ?_
      exact answer_get_c_key_iff hidden ordinary.privilege channelTarget numeric kvText
  | whois name =>
      refine Iff.trans (seen_query_iff (fun _ _ => rfl) id) ?_
      exact answer_whois_iff hidden.user name
  | join =>
      refine Iff.trans (seen_event_iff (fun _ => rfl) trivial) ?_
      exact join_nil_iff hidden ordinary
  | part channelName message =>
      by_cases hname : (getChannelSummaryByName env backing.store channelName).channelId = channelId
      · refine Iff.trans (seen_event_iff (fun _ => rfl) hname) ?_
        exact part_nil_iff hidden ordinary channelName message hname
      · refine Iff.trans (seen_elsewhere_iff (fun _ => rfl) hname) ?_
        exact iff_of_true (part_elsewhere channelName message hname) fun hshows => hname hshows.1
  | kick kicker channelName target message =>
      by_cases hmember : (getChannelSummaryByName env backing.store channelName).channelId =
          channelId ∧ (getUserSummaryByName env backing.store target).id = member.details.id
      · refine Iff.trans (seen_event_iff (fun _ => rfl) hmember) ?_
        exact iff_of_true
          (kicked_nil hidden ordinary kicker channelName target message hmember.1 hmember.2)
          fun hshows => hshows.2.2.1 hmember.2
      · refine Iff.trans (seen_elsewhere_iff (fun _ => rfl) hmember) ?_
        exact kick_elsewhere_iff kicker channelName target message hmember ordinary.flag
          hidden.channel
  | quit known reason =>
      refine Iff.trans (seen_elsewhere_iff (fun _ => rfl) id) ?_
      have hsame := @broadcast_same_iff env viewer backing.store member channelId ordinary.privilege
        (backing.withoutMember channelId member.details.id).store (ascii "QUIT") reason
        (known.filter member.inChannel)
      rw [List.filter_comm] at hsame
      exact hsame
  | nick known newNick =>
      refine Iff.trans (seen_elsewhere_iff (fun _ => rfl) id) ?_
      exact broadcast_same_iff ordinary.privilege _ _ _ known
  | privmsg channelName message =>
      by_cases hname : (getChannelSummaryByName env backing.store channelName).channelId = channelId
      · refine Iff.trans (seen_event_iff (fun _ => rfl) hname) ?_
        exact privmsg_nil_iff hidden ordinary channelName message hname
      · refine Iff.trans (seen_elsewhere_iff (fun _ => rfl) hname) ?_
        exact iff_of_true (privmsg_elsewhere channelName message hname)
          fun hshows => hname hshows.1
  | setCKey channelTarget userTarget kvText =>
      by_cases hname : (getChannelSummaryByName env backing.store channelTarget).channelId =
          channelId
      · refine Iff.trans (seen_event_iff (fun _ => rfl) hname) ?_
        exact set_c_key_nil_iff hidden ordinary channelTarget userTarget kvText hname
      · refine Iff.trans (seen_elsewhere_iff (fun _ => rfl) hname) ?_
        refine iff_of_true (set_c_key_elsewhere channelTarget userTarget kvText hname) ?_
        rintro ⟨⟨userId, hfound⟩, -⟩
        exact hname (set_c_key_channel hfound).symm

end Main

/-- Bob is invisible in the channel `#a` of Alice. -/
def hiddenBacking : Backing where
  store :=
    (performUserJoinChannel quietEnvironment (chatPeer 2 (ascii "bob") 0)
      ⟨ascii "#a", [], invisible⟩
      (performUserJoinChannel quietEnvironment (chatPeer 1 (ascii "alice") 32)
        ⟨ascii "#a", [], 0⟩ twoUsers).1).1
  channelKeys := fun _ => ⟨fun _ => none, fun _ => []⟩
  channelUserKeys := fun _ _ => ⟨fun _ => none, fun _ => []⟩
  strayUserKeys := fun _ _ => ⟨fun _ => none, fun _ => []⟩
  userHashes := fun userId => if userId = 1 ∨ userId = 2 then [1] else []
  channelNames := [some [ascii "channelname_#a"]]
  persistent := []

/-- Alice, who is in the channel with him. -/
def memberViewer : Viewer :=
  ⟨⟨(chatPeer 1 (ascii "alice") 32).details, fun _ => isInChannel⟩, []⟩

theorem bob_hidden : HiddenMember hiddenBacking.store (chatPeer 2 (ascii "bob") 0) 1 :=
  ⟨by decide, by decide, by unfold IsMember; decide, by decide⟩

theorem alice_ordinary : Ordinary memberViewer (chatPeer 2 (ascii "bob") 0) 1 :=
  ⟨by decide, by decide, by decide⟩

theorem eve_ordinary :
    Ordinary ⟨chatPeer 7 (ascii "eve") 0, []⟩ (chatPeer 2 (ascii "bob") 0) 1 :=
  ⟨by decide, by decide, by decide⟩

/-- NAMES does not show him to her. -/
theorem names_hide_bob :
    seen quietEnvironment memberViewer (chatPeer 2 (ascii "bob") 0) 1 hiddenBacking
        (.names (ascii "#a")) =
      seenWithout quietEnvironment memberViewer (chatPeer 2 (ascii "bob") 0) 1 hiddenBacking
        (.names (ascii "#a")) :=
  (no_trace_iff bob_hidden alice_ordinary (.names (ascii "#a"))).mpr id

/-- WHOIS tells a visitor about the channel that he is hidden in. -/
theorem whois_shows_bob :
    ¬ ∀ (env : Environment) (viewer : Viewer) (backing : Backing) (member : ChatPeer)
      (channelId : BitVec 32), HiddenMember backing.store member channelId →
      Ordinary viewer member channelId → ∀ occasion,
      seen env viewer member channelId backing occasion =
        seenWithout env viewer member channelId backing occasion := by
  intro h
  have hsame := h quietEnvironment ⟨chatPeer 7 (ascii "eve") 0, []⟩ hiddenBacking
    (chatPeer 2 (ascii "bob") 0) 1 bob_hidden eve_ordinary (.whois (ascii "bob"))
  exact absurd hsame (by decide)

end OpenSpy.Peerchat
