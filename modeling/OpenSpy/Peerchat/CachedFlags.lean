import OpenSpy.Library.Replica
import OpenSpy.Peerchat.FlagUpdates

/-!
# Flags that a peer remembers

A peer should remember the flags that its user has in the store, once no update is under way, and a
user who is not in the list of a channel should have none there. JOIN keeps this. PART sends its
update to nobody, so that an older one that is still under way has the last word, KICK deletes the
flags of the kicker and sends an update for the target, MODE gives flags to users who are not in the
channel, the events of a JOIN write the flags of a user who may have left, and a callback that comes
late writes flags that are no longer those of the store. `flags_agree` says for which runs the flags
agree.
-/

namespace OpenSpy.Peerchat

open Bytes Redis Runs Replica UserChannelFlag ChannelStore

/-- What an update has its user's peer remember. -/
def FlagUpdate.write (update : FlagUpdate) : (Int × BitVec 32) × BitVec 32 :=
  ((update.userId, update.channelId), update.modeflags)

/-- What a callback has the peer of its user remember. -/
def FlagCallback.write : FlagCallback → Option ((Int × BitVec 32) × BitVec 32)
  | .onJoinChannel userId channelId initialFlags => some ((userId, channelId), initialFlags)
  | .onPartChannel userId channelId => some ((userId, channelId), 0)
  | .onLookup .. => none

namespace ChatState

variable (state : ChatState)

/-- Every peer remembers what is in the store, and who is not in a channel has no flags there. -/
def Agrees : Prop :=
  ∀ userId channelId,
    (state.clients userId).channelFlags channelId =
        lookupUserChannelModeFlags state.store channelId userId ∧
      (userId ∉ state.store.channelUsers channelId →
        (state.clients userId).channelFlags channelId = 0)

/-- An event keeps the flags in agreement: a PART finds no update for the user in the channel under
way, a KICK is for the kicker himself or both users have no flags, a MODE gives no flags to users
who are not in the channel, the events of a JOIN are for a user who is in the channel, or change
nothing, and a callback writes the flags of the store, or finds an update for the user in the
channel under way. -/
def KeepsFlags : ChatEvent → Prop
  | .part env details channelName =>
      let channelId := (getChannelSummaryByName env state.store channelName).channelId
      PartCarriedOut env details channelName state.store → ¬ state.Updating details.id channelId
  | .kick env details channelName target =>
      let channelId := (getChannelSummaryByName env state.store channelName).channelId
      let targetId := (getUserSummaryByName env state.store target).id
      KickAccepted env (state.peer details) channelName target state.store →
        targetId = details.id ∨
          (lookupUserChannelModeFlags state.store channelId details.id = 0 ∧
            lookupUserChannelModeFlags state.store channelId targetId = 0)
  | .mode env details channelName modify =>
      let channelId := (getChannelSummaryByName env state.store channelName).channelId
      ModeCarriedOut env (state.peer details) channelName modify state.store →
        ∀ userId, userId ≠ 0 → userId ∉ state.store.channelUsers channelId →
          namedFlags env state.store userId modify.setUsermodes &&&
            ~~~namedFlags env state.store userId modify.unsetUsermodes = 0
  | .joinEvents details channelId setModeFlags =>
      .joinEvents details.id channelId setModeFlags ∈ state.requests →
        details.id ∈ state.store.channelUsers channelId ∨
          state.joinEventsFlags details channelId setModeFlags =
            (state.clients details.id).channelFlags channelId
  | .call callback =>
      callback ∈ state.callbacks → ∀ key modeflags, callback.write = some (key, modeflags) →
        state.Updating key.1 key.2 ∨ state.store.flagTable key = modeflags
  | _ => True

/-- The flags that the peers remember. -/
def cached (key : Int × BitVec 32) : BitVec 32 :=
  (state.clients key.1).channelFlags key.2

/-- The updates under way. -/
def writes : List ((Int × BitVec 32) × BitVec 32) :=
  state.updates.map FlagUpdate.write

/-- The flags agree as soon as all updates have arrived, and the callbacks of those who have left
have been called. -/
structure Synced : Prop where
  nobody : ∀ channelId, lookupUserChannelModeFlags state.store channelId 0 = 0
  listed : ∀ userId channelId, userId ∉ state.store.channelUsers channelId →
    lookupUserChannelModeFlags state.store channelId userId = 0
  agrees : ∀ key, settled state.cached state.writes key = state.store.flagTable key ∨
    (.onPartChannel key.1 key.2 ∈ state.callbacks ∧ state.store.flagTable key = 0 ∧
      key ∉ state.writes.map Prod.fst)

end ChatState

section Clients

variable {client : Client} {channelId modeflags : BitVec 32}

theorem set_channel_flags_flags :
    (client.setChannelFlags channelId modeflags).channelFlags =
      Function.update client.channelFlags channelId modeflags := by
  unfold Client.setChannelFlags
  split
  · rfl
  · split <;> rfl

/-- The flags of others change nothing of what a peer remembers. -/
theorem external_flags (userId : Int) :
    (client.onSetExternalUserChanModeFlags userId channelId modeflags).channelFlags =
      client.channelFlags := by
  unfold Client.onSetExternalUserChanModeFlags
  split
  · rfl
  · split <;> rfl

theorem on_lookup_flags (users : List Int) :
    (client.onLookup channelId users).channelFlags = client.channelFlags := by
  unfold Client.onLookup
  induction users generalizing client with
  | nil => rfl
  | cons user users ih => exact ih

end Clients

namespace ChatState

variable {state : ChatState} {userId : Int} {channelId modeflags : BitVec 32}

/-- One peer remembers one thing. -/
theorem cached_update {client : Client} {other : ChatState}
    (hclients : other.clients = Function.update state.clients userId client)
    (hflags : client.channelFlags =
      Function.update (state.clients userId).channelFlags channelId modeflags) :
    other.cached = Function.update state.cached (userId, channelId) modeflags := by
  funext ⟨otherUser, otherChannel⟩
  rw [cached, hclients]
  by_cases huser : otherUser = userId
  · subst huser
    by_cases hchannel : otherChannel = channelId
    · subst hchannel
      simp [hflags]
    · simp [hflags, hchannel, cached]
  · simp [huser, cached]

theorem cached_set_channel_flags :
    (state.setChannelFlags userId channelId modeflags).cached =
      Function.update state.cached (userId, channelId) modeflags :=
  cached_update rfl set_channel_flags_flags

theorem writes_send (state : ChatState) (update : FlagUpdate) (other : ChatState)
    (h : other.updates = state.updates ++ [update]) :
    other.writes = state.writes ++ [((update.userId, update.channelId), update.modeflags)] := by
  simp [writes, h, FlagUpdate.write]

theorem updating_iff :
    state.Updating userId channelId ↔ (userId, channelId) ∈ state.writes.map Prod.fst := by
  constructor
  · rintro ⟨update, hupdate, rfl, rfl⟩
    exact List.mem_map_of_mem (List.mem_map_of_mem hupdate)
  · intro h
    obtain ⟨write, hwrite, hkey⟩ := List.mem_map.mp h
    obtain ⟨update, hupdate, rfl⟩ := List.mem_map.mp hwrite
    exact ⟨update, hupdate, (Prod.mk.inj hkey).1, (Prod.mk.inj hkey).2⟩

/-- When nothing waits and nothing is under way, the flags agree. -/
theorem Synced.quiet (h : state.Synced) (hquiet : state.Quiet) : state.Agrees := by
  intro userId channelId
  have hflags : (state.clients userId).channelFlags channelId =
      lookupUserChannelModeFlags state.store channelId userId := by
    rcases h.agrees (userId, channelId) with hagrees | ⟨hparting, -⟩
    · rwa [writes, hquiet.2] at hagrees
    · simp [hquiet.1] at hparting
  exact ⟨hflags, fun hout => hflags.trans (h.listed userId channelId hout)⟩

theorem synced_start (usernick : Bytes → Option Int) (user : Int → Option UserSummary) :
    (ChatState.start usernick user).Synced where
  nobody := fun _ => rfl
  listed := fun _ _ _ => rfl
  agrees := fun _ => .inl rfl

/-- A peer may remember what the store has, or what an update will change. -/
theorem Synced.remember (h : state.Synced) {next : ChatState} {key : Int × BitVec 32}
    (hstore : next.store = state.store) (hupdates : next.updates = state.updates)
    (hcached : next.cached = Function.update state.cached key modeflags)
    (hcallbacks : ∀ other, other ≠ key →
      .onPartChannel other.1 other.2 ∈ state.callbacks →
        .onPartChannel other.1 other.2 ∈ next.callbacks)
    (hflags : state.Updating key.1 key.2 ∨ state.store.flagTable key = modeflags) :
    next.Synced := by
  have hwrites : next.writes = state.writes := by
    rw [writes, writes, hupdates]
  refine ⟨?_, ?_, ?_⟩
  · rw [hstore]
    exact h.nobody
  · rw [hstore]
    exact h.listed
  · intro other
    rw [hstore, hcached, hwrites]
    by_cases hother : other = key
    · subst hother
      left
      by_cases hmem : other ∈ state.writes.map Prod.fst
      · rw [settled_of_mem hmem]
        exact (h.agrees other).resolve_right fun hparting => hparting.2.2 hmem
      · rw [settled_of_not_mem hmem, Function.update_self]
        exact (hflags.resolve_left fun hupdating => hmem (updating_iff.mp hupdating)).symm
    · rw [settled_update_of_ne hother]
      exact (h.agrees other).imp_right (And.imp_left (hcallbacks other hother))

/-- A callback is called. -/
theorem Synced.call (h : state.Synced) {callback : FlagCallback}
    (hwaits : callback ∈ state.callbacks) (hkeeps : state.KeepsFlags (.call callback)) :
    (({ state with callbacks := state.callbacks.erase callback } : ChatState).runCallback
      callback).Synced := by
  have hflags := hkeeps hwaits
  cases callback with
  | onJoinChannel userId channelId initialFlags =>
      refine h.remember rfl rfl (cached_update rfl rfl) ?_ (hflags _ _ rfl)
      exact fun other _ hmem => (List.mem_erase_of_ne (by simp)).mpr hmem
  | onPartChannel userId channelId =>
      refine h.remember rfl rfl cached_set_channel_flags ?_ (hflags _ _ rfl)
      intro other hother hmem
      refine (List.mem_erase_of_ne fun heq => hother ?_).mpr hmem
      obtain ⟨huser, hchannel⟩ := FlagCallback.onPartChannel.inj heq
      exact Prod.ext huser hchannel
  | onLookup userId channelId users =>
      have hcached : (({ state with
          callbacks := state.callbacks.erase (.onLookup userId channelId users) } :
            ChatState).runCallback (.onLookup userId channelId users)).cached = state.cached := by
        funext ⟨otherUser, otherChannel⟩
        by_cases huser : otherUser = userId
        · subst huser
          simp [cached, runCallback, on_lookup_flags]
        · simp [cached, runCallback, huser]
      refine ⟨h.nobody, h.listed, fun key => ?_⟩
      rw [hcached]
      refine (h.agrees key).imp_right (And.imp_left fun hmem => ?_)
      exact (List.mem_erase_of_ne (by simp)).mpr hmem

/-- What the peers remember when an update has arrived. -/
theorem cached_handle_update {env : Environment} {update : FlagUpdate} {updates : List FlagUpdate}
    (hupdates : state.updates = update :: updates) (hknown : state.store.Known update.userId) :
    (state.handleUpdate env).cached =
      Function.update state.cached (update.userId, update.channelId) update.modeflags := by
  unfold handleUpdate
  rw [hupdates]
  simp only [hknown env]
  rw [cached_set_channel_flags]
  congr 1
  funext ⟨otherUser, otherChannel⟩
  simp only [cached]
  split
  · rfl
  · rw [external_flags]

/-- An update arrives. -/
theorem Synced.deliver (h : state.Synced) (haddressed : state.Addressed) (env : Environment) :
    (state.handleUpdate env).Synced := by
  cases hupdates : state.updates with
  | nil =>
      have hsame : state.handleUpdate env = state := by
        unfold handleUpdate
        rw [hupdates]
      rwa [hsame]
  | cons update updates =>
      have hknown : state.store.Known update.userId := haddressed update (by simp [hupdates])
      have hcached := @cached_handle_update state env update updates hupdates hknown
      have hafter : (state.handleUpdate env).store = state.store ∧
          (state.handleUpdate env).updates = updates ∧
          (state.handleUpdate env).callbacks = state.callbacks := by
        unfold handleUpdate
        rw [hupdates]
        exact ⟨rfl, rfl, rfl⟩
      obtain ⟨hstore, hrest, hcallbacks⟩ := hafter
      have hwrites : state.writes = ((update.userId, update.channelId), update.modeflags) ::
          (state.handleUpdate env).writes := by
        rw [writes, writes, hrest, hupdates, List.map_cons, FlagUpdate.write]
      refine ⟨?_, ?_, ?_⟩
      · rw [hstore]
        exact h.nobody
      · rw [hstore]
        exact h.listed
      · intro key
        have hagrees := h.agrees key
        rw [hwrites, ← settled_deliver, ← hcached, List.map_cons, List.mem_cons, not_or] at hagrees
        rw [hstore, hcallbacks]
        exact hagrees.imp_right fun hparting => ⟨hparting.1, hparting.2.1, hparting.2.2.2⟩

section Tasks

variable {env : Environment} {details : UserSummary}

/-- A flag that is looked up is in the table. -/
theorem lookup_of_table {store : ChannelStore} {table : Int × BitVec 32 → BitVec 32}
    (htable : store.flagTable = table) (otherId : BitVec 32) (userId : Int) :
    lookupUserChannelModeFlags store otherId userId = table (userId, otherId) :=
  congrFun htable (userId, otherId)

/-- A task may write flags that its update tells of. -/
theorem Synced.written (h : state.Synced) {next : ChatState}
    (htable : next.store.flagTable =
      Function.update state.store.flagTable (userId, channelId) modeflags)
    (hcached : next.cached = state.cached ∨
      next.cached = Function.update state.cached (userId, channelId) modeflags)
    (hupdates : next.updates = state.updates ++ [⟨channelId, userId, modeflags⟩])
    (hcallbacks : ∀ callback ∈ state.callbacks, callback ∈ next.callbacks)
    (other : Int × BitVec 32) :
    settled next.cached next.writes other = next.store.flagTable other ∨
      (.onPartChannel other.1 other.2 ∈ next.callbacks ∧ next.store.flagTable other = 0 ∧
        other ∉ next.writes.map Prod.fst) := by
  have hwrites := writes_send state _ next hupdates
  have hsettled : settled next.cached next.writes =
      Function.update (settled state.cached state.writes) (userId, channelId) modeflags := by
    rw [hwrites]
    rcases hcached with hsame | hwritten
    · rw [hsame]
      exact settled_send
    · rw [hwritten]
      exact settled_update_send
  rw [hsettled, htable]
  by_cases hother : other = (userId, channelId)
  · rw [hother, Function.update_self, Function.update_self]
    exact .inl rfl
  · rw [Function.update_of_ne hother, Function.update_of_ne hother]
    refine (h.agrees other).imp_right fun ⟨hparting, hnone, hfree⟩ =>
      ⟨hcallbacks _ hparting, hnone, ?_⟩
    rw [hwrites, List.map_append, List.mem_append, not_or]
    exact ⟨hfree, by simpa using hother⟩

theorem Synced.join (h : state.Synced) (hzero : details.id ≠ 0) (request : JoinRequest) :
    (state.userJoinChannel env details request).Synced := by
  obtain ⟨staged, channelId, flags, hsame, -, hrefused | ⟨-, hadded⟩⟩ :=
    join_cases state env details request
  · rw [hrefused]
    refine ⟨?_, ?_, ?_⟩
    · intro channelId
      rw [hsame.flags]
      exact h.nobody channelId
    · intro userId channelId hout
      rw [hsame.flags]
      exact h.listed userId channelId (by rwa [hsame.1] at hout)
    · intro key
      rw [hsame.flag_table]
      exact h.agrees key
  · have htable : (addUserToChannel staged details.id channelId flags).flagTable =
        Function.update state.store.flagTable (details.id, channelId) flags := by
      rw [flag_table_add, hsame.flag_table]
    rw [hadded]
    refine ⟨?_, ?_, ?_⟩
    · intro otherId
      have hne : ((0 : Int), otherId) ≠ (details.id, channelId) := by
        simp [Ne.symm hzero]
      exact (lookup_of_table htable otherId 0).trans
        ((Function.update_of_ne hne ..).trans (h.nobody otherId))
    · intro userId otherId hout
      rw [users_add, not_or] at hout
      have hne : (userId, otherId) ≠ (details.id, channelId) := by
        intro heq
        obtain ⟨rfl, rfl⟩ := Prod.mk.inj heq
        exact hout.2 ⟨rfl, rfl⟩
      refine (lookup_of_table htable otherId userId).trans ((Function.update_of_ne hne ..).trans ?_)
      exact h.listed userId otherId (by rw [← hsame.1]; exact hout.1)
    · exact h.written htable (.inl rfl) rfl fun _ => List.mem_append_left _

/-- A PART tells nobody of the user, whose peer waits for the callback. -/
theorem Synced.part (h : state.Synced) (hzero : details.id ≠ 0) (channelName : Bytes)
    (hkeeps : state.KeepsFlags (.part env details channelName)) :
    (state.userPartChannel env details channelName).Synced := by
  rcases part_cases state env details channelName with hsame | ⟨hcarried, hleft⟩
  · rwa [hsame]
  · have hfree : (details.id, (getChannelSummaryByName env state.store channelName).channelId) ∉
        state.writes.map Prod.fst := fun hmem => hkeeps hcarried (updating_iff.mpr hmem)
    set channel := getChannelSummaryByName env state.store channelName
    have htable : (removeUserFromChannel env state.store details.id channel 0).flagTable =
        Function.update state.store.flagTable (details.id, channel.channelId) 0 :=
      flag_table_remove_user channel 0
    rw [hleft]
    refine ⟨?_, ?_, ?_⟩
    · intro otherId
      refine (lookup_of_table htable otherId 0).trans ?_
      rw [Function.update_apply]
      split
      · rfl
      · exact h.nobody otherId
    · intro userId otherId hout
      refine (lookup_of_table htable otherId userId).trans ?_
      rw [Function.update_apply]
      split
      · rfl
      · rename_i hne
        refine h.listed userId otherId fun hin => hout (users_remove.mpr ⟨hin, ?_⟩)
        rintro ⟨rfl, rfl⟩
        exact hne rfl
    · intro key
      rw [writes_send state ⟨channel.channelId, 0, 0⟩ _ rfl, settled_send]
      show _ = ChannelStore.flagTable (removeUserFromChannel ..) key ∨ _ ∧
        ChannelStore.flagTable (removeUserFromChannel ..) key = 0 ∧ _
      rw [htable]
      by_cases hleaving : key = (details.id, channel.channelId)
      · subst hleaving
        right
        refine ⟨List.mem_append_right _ (List.mem_singleton_self _), Function.update_self .., ?_⟩
        rw [List.map_append, List.mem_append, not_or]
        exact ⟨hfree, by simp [hzero]⟩
      · rw [Function.update_of_ne hleaving]
        by_cases hnobody : key = (0, channel.channelId)
        · left
          rw [hnobody, Function.update_self]
          exact (h.nobody channel.channelId).symm
        · rw [Function.update_of_ne hnobody]
          refine (h.agrees key).imp_right fun ⟨hparting, hnone, hkey⟩ =>
            ⟨List.mem_append_left _ hparting, hnone, ?_⟩
          rw [List.map_append, List.mem_append, not_or]
          exact ⟨hkey, by simpa using hnobody⟩

/-- A KICK is synced if the flags of the kicker and of the target are gone in the store. -/
theorem Synced.kick (h : state.Synced) (channelName target : Bytes)
    (hkeeps : state.KeepsFlags (.kick env details channelName target)) :
    (state.userKickChannel env details channelName target).Synced := by
  rcases kick_cases state env details channelName target with hsame | ⟨haccepted, hkicked⟩
  · rwa [hsame]
  · have hcase := hkeeps haccepted
    set channel := getChannelSummaryByName env state.store channelName
    set targetId := (getUserSummaryByName env state.store target).id
    have htarget : targetId ≠ 0 := haccepted.2
    have htable : (removeUserFromChannel env state.store details.id channel targetId).flagTable =
        Function.update state.store.flagTable (targetId, channel.channelId) 0 := by
      rw [flag_table_remove_user]
      rcases hcase with hself | ⟨hkicker, hnone⟩
      · rw [hself]
      · rw [Function.update_eq_self_iff.mpr hkicker.symm,
          Function.update_eq_self_iff.mpr hnone.symm]
    rw [hkicked]
    refine ⟨?_, ?_, ?_⟩
    · intro otherId
      refine (lookup_of_table htable otherId 0).trans ?_
      rw [Function.update_apply]
      split
      · rfl
      · exact h.nobody otherId
    · intro userId otherId hout
      refine (lookup_of_table htable otherId userId).trans ?_
      rw [Function.update_apply]
      split
      · rfl
      · rename_i hne
        refine h.listed userId otherId fun hin => hout (users_remove.mpr ⟨hin, ?_⟩)
        rw [if_pos htarget]
        rintro ⟨rfl, rfl⟩
        exact hne rfl
    · exact h.written htable (.inl rfl) rfl fun _ hmem => hmem

/-- The updates of a MODE say what it writes. -/
theorem settled_usermode_updates (env : Environment) (channelId : BitVec 32) (unset : Bool)
    (usermodes : FlagMap) (store : ChannelStore) :
    settled store.flagTable ((usermodeUpdates env channelId unset usermodes store).map
        FlagUpdate.write) =
      (handleSetUsermodes env channelId unset usermodes store).flagTable := by
  induction usermodes generalizing store with
  | nil => rfl
  | cons item usermodes ih =>
      show _ = (handleSetUsermodes env channelId unset usermodes
        (handleSetUsermode env channelId unset store item)).flagTable
      rw [← ih, usermodeUpdates, List.map_append, settled_append]
      congr 1
      unfold handleSetUsermode
      simp only
      split
      · rfl
      · rw [flag_table_set]
        rfl

theorem Synced.mode (h : state.Synced) (channelName : Bytes) (modify : ChannelModify)
    (hkeeps : state.KeepsFlags (.mode env details channelName modify)) :
    (state.updateChannelModes env details channelName modify).Synced := by
  rcases mode_cases state env details channelName modify with hsame | ⟨hcarried, channel, hmode⟩
  · rwa [hsame]
  · have hnone := hkeeps hcarried
    set channelId := (getChannelSummaryByName env state.store channelName).channelId
    set given := handleSetUsermodes env channelId false modify.setUsermodes state.store with hgiven
    set taken := handleSetUsermodes env channelId true modify.unsetUsermodes given with htaken
    have hset := @set_usermodes_same env state.store channelId false modify.setUsermodes
    have hunset := @set_usermodes_same env given channelId true modify.unsetUsermodes
    have hlist : taken.channelUsers = state.store.channelUsers := hunset.2.1.trans hset.2.1
    have hother : ∀ otherId userId, otherId ≠ channelId →
        lookupUserChannelModeFlags taken otherId userId =
          lookupUserChannelModeFlags state.store otherId userId := fun otherId userId hne =>
      (hunset.2.2 otherId userId hne).trans (hset.2.2 otherId userId hne)
    have hzero : lookupUserChannelModeFlags taken channelId 0 =
        lookupUserChannelModeFlags state.store channelId 0 := by
      rw [htaken, set_usermodes_zero, hgiven, set_usermodes_zero]
    have hnobody : ∀ otherId, lookupUserChannelModeFlags taken otherId 0 = 0 := by
      intro otherId
      by_cases heq : otherId = channelId
      · rw [heq, hzero]
        exact h.nobody channelId
      · rw [hother otherId 0 heq]
        exact h.nobody otherId
    rw [hmode]
    refine ⟨hnobody, ?_, ?_⟩
    · intro userId otherId hout
      have hbefore : lookupUserChannelModeFlags state.store otherId userId = 0 :=
        h.listed userId otherId (by rw [← hlist]; exact hout)
      by_cases heq : otherId = channelId
      · by_cases huserId : userId = 0
        · rw [huserId]
          exact hnobody otherId
        · have hfree := hnone userId huserId (by rw [← hlist, ← heq]; exact hout)
          subst heq
          show lookupUserChannelModeFlags taken _ userId = 0
          have hnames : namedFlags env given userId modify.unsetUsermodes =
              namedFlags env state.store userId modify.unsetUsermodes := by
            simp only [namedFlags, hgiven, names_set_usermodes]
          rw [htaken, set_usermodes_flags _ _ _ _ _ huserId, hnames, hgiven,
            set_usermodes_flags _ _ _ _ _ huserId, hbefore]
          simpa [changeFlags] using hfree
      · exact (hother otherId userId heq).trans hbefore
    · -- the updates tell of all that is written, and where there is none nothing has changed
      set sent := (modeUpdates env channelId modify state.store).map FlagUpdate.write with hsent
      have htable : settled state.store.flagTable sent = taken.flagTable := by
        rw [hsent, modeUpdates, List.map_append, settled_append, settled_usermode_updates,
          settled_usermode_updates]
      intro key
      show settled state.cached (List.map _ (_ ++ _)) key = taken.flagTable key ∨
        (_ ∧ taken.flagTable key = 0 ∧ key ∉ (List.map FlagUpdate.write (_ ++ _)).map Prod.fst)
      rw [List.map_append, settled_append, ← htable, List.map_append, List.mem_append, not_or]
      by_cases hmem : key ∈ sent.map Prod.fst
      · exact .inl (settled_of_mem hmem)
      · rw [settled_of_not_mem hmem, settled_of_not_mem hmem]
        refine (h.agrees key).imp_right ?_
        rintro ⟨hparting, hzero, hfree⟩
        exact ⟨hparting, hzero, hfree, hmem⟩

/-- The events of a JOIN write what the peer then remembers. -/
theorem Synced.join_events (h : state.Synced) (hzero : details.id ≠ 0)
    (channelId setModeFlags : BitVec 32)
    (hkeeps : details.id ∈ state.store.channelUsers channelId ∨
      state.joinEventsFlags details channelId setModeFlags =
        (state.clients details.id).channelFlags channelId) :
    (state.userJoinEvents details channelId setModeFlags).Synced := by
  unfold userJoinEvents
  simp only
  split
  · rename_i hchanged
    have hin := hkeeps.resolve_right hchanged
    set modeflags := state.joinEventsFlags details channelId setModeFlags
    have htable := @flag_table_set state.store details.id channelId modeflags
    refine ⟨?_, ?_, ?_⟩
    · intro otherId
      have hne : ((0 : Int), otherId) ≠ (details.id, channelId) := by
        simp [Ne.symm hzero]
      exact (lookup_of_table htable otherId 0).trans
        ((Function.update_of_ne hne ..).trans (h.nobody otherId))
    · intro userId otherId hout
      have hne : (userId, otherId) ≠ (details.id, channelId) := by
        intro heq
        obtain ⟨rfl, rfl⟩ := Prod.mk.inj heq
        exact hout hin
      exact (lookup_of_table htable otherId userId).trans
        ((Function.update_of_ne hne ..).trans (h.listed userId otherId hout))
    · exact h.written htable (.inr cached_set_channel_flags) rfl fun _ hmem => hmem
  · exact h

/-- Nothing that waits matters. -/
theorem Synced.of_requests (h : state.Synced) (requests : List PendingRequest) :
    ({ state with requests := requests } : ChatState).Synced :=
  ⟨h.nobody, h.listed, h.agrees⟩

/-- An event that meets its condition keeps the agreement. -/
theorem Synced.step (h : state.Synced) (haddressed : state.Addressed) {event : ChatEvent}
    (hby : event.ByRegistered state.store.user) (hkeeps : state.KeepsFlags event) :
    (state.step event).Synced := by
  cases event with
  | join env details request => exact h.join (hby details rfl).1 request
  | part env details channelName => exact h.part (hby details rfl).1 channelName hkeeps
  | kick env details channelName target => exact h.kick channelName target hkeeps
  | mode env details channelName modify => exact h.mode channelName modify hkeeps
  | ownJoin userId channelId => exact h.of_requests _
  | joinEvents details channelId setModeFlags =>
      unfold ChatState.step
      simp only
      split
      · rename_i hwaits
        exact (h.of_requests _).join_events (hby details rfl).1 channelId setModeFlags
          (hkeeps hwaits)
      · exact h
  | lookup env userId channelId =>
      unfold ChatState.step
      simp only
      split
      · refine ⟨h.nobody, h.listed, fun key => ?_⟩
        exact (h.agrees key).imp_right (And.imp_left (List.mem_append_left _))
      · exact h
  | call callback =>
      unfold ChatState.step
      simp only
      split
      · rename_i hwaits
        exact h.call hwaits hkeeps
      · exact h
  | deliver env => exact h.deliver haddressed env

end Tasks

end ChatState

/-- In a run of the tasks of registered users in which every event meets its condition, every peer
remembers the flags of its user whenever no callback waits and no update is under way, and nobody
has flags in a channel whose list he is not in. -/
theorem flags_agree (usernick : Bytes → Option Int) (user : Int → Option UserSummary)
    (run : List ChatEvent) (hregistered : ∀ event ∈ run, event.ByRegistered user)
    (hrun : AtEach ChatState.step (.start usernick user) ChatState.KeepsFlags run)
    (hquiet : (after ChatState.step (.start usernick user) run).Quiet) :
    (after ChatState.step (.start usernick user) run).Agrees := by
  have hmeets : AtEach ChatState.step (.start usernick user) (fun state event =>
      state.KeepsFlags event ∧ event.ByRegistered user) run := fun before next rest heq =>
    ⟨hrun before next rest heq, hregistered next (by rw [heq]; simp)⟩
  have hinvariant := @invariant_of_at_each _ _ ChatState.step (.start usernick user) run
    (fun state => state.Synced ∧ state.Addressed ∧ state.store.user = user) _
    ⟨ChatState.synced_start usernick user, List.forall_mem_nil _, rfl⟩
    (by
      rintro state event ⟨hsynced, haddressed, huser⟩ ⟨hkeeps, hby⟩
      subst huser
      exact ⟨hsynced.step haddressed hby hkeeps, haddressed.step hby, state.step_user event⟩)
    hmeets
  exact hinvariant.1.quiet hquiet

/-- Alice may override. She and Bob join a channel, one after the other. -/
def joinsRun : List ChatEvent :=
  [.join quietEnvironment (chatPeer 1 (ascii "alice") 32).details ⟨ascii "#a", [], 0⟩,
    .call (.onJoinChannel 1 1 isInChannel), .deliver quietEnvironment,
    .join quietEnvironment (chatPeer 2 (ascii "bob") 0).details ⟨ascii "#a", [], 0⟩,
    .call (.onJoinChannel 2 1 isInChannel), .deliver quietEnvironment]

/-- After they have joined, all flags agree. -/
theorem joins_agree :
    (after ChatState.step (.start twoUsers.usernick twoUsers.user) joinsRun).Agrees := by
  refine flags_agree twoUsers.usernick twoUsers.user joinsRun (by decide)
    (at_each_cons.mpr ⟨trivial, at_each_cons.mpr ⟨?_, at_each_cons.mpr ⟨trivial,
      at_each_cons.mpr ⟨trivial, at_each_cons.mpr ⟨?_, at_each_cons.mpr ⟨trivial,
        at_each_nil⟩⟩⟩⟩⟩⟩) ⟨rfl, rfl⟩
  · rintro - key modeflags ⟨⟩
    exact .inr (by decide)
  · rintro - key modeflags ⟨⟩
    exact .inr (by decide)

/-- Alice kicks Bob, and remembers flags that the store has no more. -/
theorem kick_leaves_flags :
    ¬ ∀ (usernick : Bytes → Option Int) (user : Int → Option UserSummary) (run : List ChatEvent),
      (∀ event ∈ run, event.ByRegistered user) →
      (after ChatState.step (.start usernick user) run).Quiet →
      (after ChatState.step (.start usernick user) run).Agrees := by
  intro h
  have hagrees := h twoUsers.usernick twoUsers.user (joinsRun ++
    [.kick quietEnvironment (chatPeer 1 (ascii "alice") 32).details (ascii "#a") (ascii "bob"),
      .deliver quietEnvironment]) (by decide) ⟨rfl, rfl⟩ 1 1
  exact absurd hagrees.1 (by decide)

end OpenSpy.Peerchat
