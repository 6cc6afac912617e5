import OpenSpy.Peerchat.CachedFlags

/-!
# The addresses of users

A peer keeps a list of the users whose addresses it may see, each with the channel in which it got
to see him. It should be above the level of a voice in that channel, and the user should be in the
channel. The list is changed when the flags of the peer or of another user arrive, and when a lookup
of the members of a channel is answered. PART tells nobody that its user is gone, the update of a
user may arrive when he is gone already, the answer of a lookup may come when the peer is no
operator or some of the members are gone, and a JOIN that is answered late may take the rank of the
peer. `addresses_for_operators` says for which runs the list is right.
-/

namespace OpenSpy.Peerchat

open Bytes Runs UserChannelFlag ChannelStore

/-- An update by which a user is not in a channel is under way. -/
def Leaving (updates : List FlagUpdate) (userId : Int) (channelId : BitVec 32) : Prop :=
  ∃ update ∈ updates, update.userId = userId ∧ update.channelId = channelId ∧
    hasFlag update.modeflags isInChannel = false

namespace ChatState

variable (state : ChatState) (viewerId : Int)

/-- The peer of a user, with the list of the users whose addresses it may see. -/
def viewer (details : UserSummary) : Viewer :=
  ⟨state.peer details, (state.clients details.id).visibility⟩

/-- The list of a peer. -/
def visible : List UserAddressVisibilityInfo :=
  (state.clients viewerId).visibility

/-- The level that a peer remembers for itself. -/
def level (channelId : BitVec 32) : Nat :=
  getUserChannelModeLevel ((state.clients viewerId).channelFlags channelId)

/-- Who is shown the address of another user is a global owner, or above the level of a voice in a
channel that the user is in. -/
def AddressesGuarded (details : UserSummary) : Prop :=
  ∀ userId, userId ≠ details.id → (state.viewer details).isUserAddressVisible userId →
    (state.peer details).hasPrivilege globalOwner ∨
      ∃ channelId, state.level details.id channelId > 1 ∧
        userId ∈ state.store.channelUsers channelId

/-- An event keeps the list of a viewer right: a PART is by nobody whom the viewer sees in the
channel, unless an update that takes him out is under way, an update that has the viewer see a user
finds him in the channel, or is followed by one that takes him out, a lookup answers with members
only, while the viewer is above the level of a voice, or an update of its own flags is under way,
and a JOIN that is answered leaves the viewer above that level in a channel in which it sees
somebody, or such an update is under way. -/
def KeepsVisible : ChatEvent → Prop
  | .part env details channelName =>
      let channelId := (getChannelSummaryByName env state.store channelName).channelId
      PartCarriedOut env details channelName state.store →
        ⟨details.id, channelId⟩ ∈ state.visible viewerId →
        Leaving state.updates details.id channelId
  | .call (.onJoinChannel userId channelId initialFlags) =>
      .onJoinChannel userId channelId initialFlags ∈ state.callbacks → userId = viewerId →
        ∀ info ∈ state.visible viewerId, info.channelId = channelId →
          getUserChannelModeLevel initialFlags > 1 ∨ state.Updating viewerId channelId
  | .call (.onLookup userId channelId users) =>
      .onLookup userId channelId users ∈ state.callbacks → userId = viewerId →
        ∀ otherId ∈ users,
          (otherId ∈ state.store.channelUsers channelId ∨
            Leaving state.updates otherId channelId) ∧
          (state.level viewerId channelId > 1 ∨ state.Updating viewerId channelId)
  | .deliver _ =>
      ∀ update updates, state.updates = update :: updates → update.userId ≠ viewerId →
        (state.clients viewerId).seesAddress update.channelId update.modeflags →
        update.userId ∈ state.store.channelUsers update.channelId ∨
          Leaving updates update.userId update.channelId
  | _ => True

/-- The list of a viewer is right as soon as all updates have arrived. -/
structure ListRight : Prop where
  others : ∀ info ∈ state.visible viewerId, info.userId ≠ viewerId
  listed : ∀ info ∈ state.visible viewerId,
    info.userId ∈ state.store.channelUsers info.channelId ∨
      Leaving state.updates info.userId info.channelId
  ranked : ∀ info ∈ state.visible viewerId,
    state.level viewerId info.channelId > 1 ∨ state.Updating viewerId info.channelId
  lookups : ∀ channelId users, .onLookup viewerId channelId users ∈ state.callbacks →
    viewerId ∉ users

end ChatState

section Updates

variable {updates : List FlagUpdate} {update : FlagUpdate} {userId : Int} {channelId : BitVec 32}

theorem Leaving.append (h : Leaving updates userId channelId) (more : List FlagUpdate) :
    Leaving (updates ++ more) userId channelId := by
  obtain ⟨update, hmem, hupdate⟩ := h
  exact ⟨update, List.mem_append_left more hmem, hupdate⟩

theorem leaving_cons :
    Leaving (update :: updates) userId channelId ↔
      (update.userId = userId ∧ update.channelId = channelId ∧
        hasFlag update.modeflags isInChannel = false) ∨ Leaving updates userId channelId := by
  simp [Leaving]

end Updates

section Clients

variable {client : Client} {info : UserAddressVisibilityInfo} {channelId modeflags : BitVec 32}

theorem remember_flags :
    (client.remember channelId modeflags).channelFlags =
      Function.update client.channelFlags channelId modeflags :=
  rfl

/-- Who is seen when the flags of the peer have changed was seen before, and in the channel of the
flags only if they are above the level of a voice. -/
theorem visible_set_channel_flags
    (h : info ∈ (client.setChannelFlags channelId modeflags).visibility) :
    info ∈ client.visibility ∧
      (info.channelId = channelId → getUserChannelModeLevel modeflags > 1) := by
  unfold Client.setChannelFlags at h
  split at h
  · rename_i hoperator
    rw [Client.becomesOperator, Bool.and_eq_true, decide_eq_true_eq, decide_eq_true_eq] at hoperator
    exact ⟨h, fun _ => hoperator.2⟩
  · split at h
    · have hkept := List.mem_filter.mp h
      refine ⟨hkept.1, fun heq => ?_⟩
      simp [heq] at hkept
    · rename_i hlevel
      exact ⟨h, fun _ => Nat.lt_of_not_le hlevel⟩

/-- Who is seen when the flags of another user have arrived was seen before, and is not that user if
he is not in the channel, or is that user and may be seen. -/
theorem visible_external {userId : Int}
    (h : info ∈ (client.onSetExternalUserChanModeFlags userId channelId modeflags).visibility) :
    (info ∈ client.visibility ∧ (hasFlag modeflags isInChannel = false →
        ¬ (info.channelId = channelId ∧ info.userId = userId))) ∨
      (info = ⟨userId, channelId⟩ ∧ client.seesAddress channelId modeflags) := by
  unfold Client.onSetExternalUserChanModeFlags at h
  split at h
  · rename_i hsees
    rcases List.mem_append.mp h with hold | hnew
    · left
      refine ⟨hold, fun hout => ?_⟩
      simp [Client.seesAddress, hout] at hsees
    · exact .inr ⟨List.mem_singleton.mp hnew, hsees⟩
  · left
    split at h
    · have hkept := List.mem_filter.mp h
      exact ⟨hkept.1, fun _ => of_decide_eq_true hkept.2⟩
    · rename_i hin
      refine ⟨h, fun hout => ?_⟩
      simp [hout] at hin

/-- The members of a channel are seen when a lookup has been answered. -/
theorem visible_on_lookup {users : List Int}
    (h : info ∈ (client.onLookup channelId users).visibility) :
    info ∈ client.visibility ∨ (info.userId ∈ users ∧ info.channelId = channelId) := by
  unfold Client.onLookup at h
  induction users generalizing client with
  | nil => exact .inl h
  | cons user users ih =>
      rcases ih h with hbefore | ⟨hmem, hchannel⟩
      · rcases List.mem_append.mp hbefore with hold | hnew
        · exact .inl hold
        · rw [List.mem_singleton] at hnew
          subst hnew
          exact .inr ⟨List.mem_cons_self, rfl⟩
      · exact .inr ⟨List.mem_cons_of_mem user hmem, hchannel⟩

end Clients

namespace ChatState

variable {state next : ChatState} {viewerId : Int}

/-- When nothing waits and nothing is under way, addresses are shown to operators only. -/
theorem ListRight.quiet {details : UserSummary} (h : state.ListRight details.id)
    (hquiet : state.Quiet) : state.AddressesGuarded details := by
  intro userId _ hvisible
  rw [Viewer.isUserAddressVisible, Bool.or_eq_true, List.any_eq_true] at hvisible
  rcases hvisible with hglobal | ⟨info, hmem, heq⟩
  · exact .inl hglobal
  · right
    rw [beq_iff_eq] at heq
    subst heq
    refine ⟨info.channelId, ?_, ?_⟩
    · refine (h.ranked info hmem).resolve_right ?_
      rintro ⟨update, hupdate, -⟩
      simp [hquiet.2] at hupdate
    · refine (h.listed info hmem).resolve_right ?_
      rintro ⟨update, hupdate, -⟩
      simp [hquiet.2] at hupdate

/-- A task that leaves the peers alone keeps the list right, if whoever is seen and taken out of
the channel is told of. -/
theorem ListRight.task (h : state.ListRight viewerId) (hclients : next.clients = state.clients)
    (more : List FlagUpdate) (hupdates : next.updates = state.updates ++ more)
    (hlists : ∀ info ∈ state.visible viewerId,
      info.userId ∈ state.store.channelUsers info.channelId →
        info.userId ∈ next.store.channelUsers info.channelId ∨
          Leaving next.updates info.userId info.channelId)
    (hlookups : ∀ channelId users, .onLookup viewerId channelId users ∈ next.callbacks →
      .onLookup viewerId channelId users ∈ state.callbacks ∨ viewerId ∉ users) :
    next.ListRight viewerId := by
  have hvisible : next.visible viewerId = state.visible viewerId := by
    rw [visible, visible, hclients]
  refine ⟨?_, ?_, ?_, ?_⟩
  · rw [hvisible]
    exact h.others
  · rw [hvisible]
    intro info hmem
    rcases h.listed info hmem with hlisted | hleaving
    · exact hlists info hmem hlisted
    · right
      rw [hupdates]
      exact hleaving.append more
  · rw [hvisible]
    intro info hmem
    rw [level, hclients]
    refine (h.ranked info hmem).imp_right ?_
    rintro ⟨update, hupdate, hfor⟩
    exact ⟨update, by rw [hupdates]; exact List.mem_append_left more hupdate, hfor⟩
  · intro channelId users hmem
    exact (hlookups channelId users hmem).elim (h.lookups channelId users) id

section Tasks

variable {env : Environment} {details : UserSummary}

theorem ListRight.join (h : state.ListRight viewerId) (request : JoinRequest) :
    (state.userJoinChannel env details request).ListRight viewerId := by
  obtain ⟨staged, channelId, flags, hsame, -, hrefused | ⟨-, hadded⟩⟩ :=
    join_cases state env details request
  · rw [hrefused]
    refine h.task rfl [] (List.append_nil _).symm ?_ fun _ _ hmem => .inl hmem
    intro info _ hlisted
    rw [hsame.1]
    exact .inl hlisted
  · rw [hadded]
    refine h.task rfl _ rfl ?_ ?_
    · intro info _ hlisted
      left
      rw [users_add, hsame.1]
      exact .inl hlisted
    · intro otherId users hmem
      left
      simpa using hmem

theorem ListRight.part (h : state.ListRight viewerId) (channelName : Bytes)
    (hkeeps : state.KeepsVisible viewerId (.part env details channelName)) :
    (state.userPartChannel env details channelName).ListRight viewerId := by
  rcases part_cases state env details channelName with hsame | ⟨hcarried, hleft⟩
  · rwa [hsame]
  · have hseen := hkeeps hcarried
    rw [hleft]
    refine h.task rfl _ rfl ?_ ?_
    · intro info hmem hlisted
      by_cases hgone : info.channelId = (getChannelSummaryByName env state.store
          channelName).channelId ∧ info.userId = details.id
      · right
        rw [hgone.1, hgone.2]
        refine (hseen ?_).append _
        rw [← hgone.1, ← hgone.2]
        exact hmem
      · exact .inl (users_remove.mpr ⟨hlisted, hgone⟩)
    · intro otherId users hmem
      left
      simpa using hmem

/-- A KICK tells of its target. -/
theorem ListRight.kick (h : state.ListRight viewerId) (channelName target : Bytes) :
    (state.userKickChannel env details channelName target).ListRight viewerId := by
  rcases kick_cases state env details channelName target with hsame | ⟨haccepted, hkicked⟩
  · rwa [hsame]
  · have htarget : (getUserSummaryByName env state.store target).id ≠ 0 := haccepted.2
    rw [hkicked]
    refine h.task rfl _ rfl ?_ fun _ _ hmem => .inl hmem
    intro info _ hlisted
    by_cases hgone : info.channelId = (getChannelSummaryByName env state.store
        channelName).channelId ∧ info.userId = (getUserSummaryByName env state.store target).id
    · right
      exact ⟨_, List.mem_append_right _ (List.mem_singleton_self _), hgone.2.symm, hgone.1.symm,
        by simp [hasFlag]⟩
    · left
      refine users_remove.mpr ⟨hlisted, ?_⟩
      rwa [if_pos htarget]

theorem ListRight.mode (h : state.ListRight viewerId) (channelName : Bytes)
    (modify : ChannelModify) :
    (state.updateChannelModes env details channelName modify).ListRight viewerId := by
  rcases mode_cases state env details channelName modify with hsame | ⟨-, channel, hmode⟩
  · rwa [hsame]
  · rw [hmode]
    refine h.task rfl _ rfl ?_ fun _ _ hmem => .inl hmem
    intro info _ hlisted
    left
    show info.userId ∈ ChannelStore.channelUsers (handleSetUsermodes ..) _
    rw [(set_usermodes_same true _).2.1, (set_usermodes_same false _).2.1]
    exact hlisted

/-- A lookup leaves the user for whom it is done out of its answer. -/
theorem ListRight.lookup (h : state.ListRight viewerId) (userId : Int) (channelId : BitVec 32) :
    (state.lookupMembers env userId channelId).ListRight viewerId := by
  refine h.task rfl [] (List.append_nil _).symm (fun _ _ hlisted => .inl hlisted) ?_
  intro otherId users hmem
  refine (List.mem_append.mp hmem).imp_right fun hnew => ?_
  obtain ⟨rfl, -, rfl⟩ := FlagCallback.onLookup.inj (List.mem_singleton.mp hnew)
  simp

end Tasks

/-- Who is seen when a peer has taken over flags was seen before. If they are for the channel in
which he is seen, they are above the level of a voice. -/
theorem visible_set {info : UserAddressVisibilityInfo} {userId : Int}
    {channelId modeflags : BitVec 32}
    (h : info ∈ (state.setChannelFlags userId channelId modeflags).visible viewerId) :
    info ∈ state.visible viewerId ∧
      ((state.setChannelFlags userId channelId modeflags).level viewerId info.channelId > 1 ∨
        (¬ (userId = viewerId ∧ channelId = info.channelId) ∧
          (state.setChannelFlags userId channelId modeflags).level viewerId info.channelId =
            state.level viewerId info.channelId)) := by
  have hclient : (state.setChannelFlags userId channelId modeflags).clients =
      Function.update state.clients userId
        ((state.clients userId).setChannelFlags channelId modeflags) := rfl
  simp only [visible, level, hclient] at h ⊢
  by_cases huser : viewerId = userId
  · subst huser
    rw [Function.update_self, set_channel_flags_flags] at *
    obtain ⟨hold, hlevel⟩ := visible_set_channel_flags h
    refine ⟨hold, ?_⟩
    by_cases hchannel : info.channelId = channelId
    · rw [hchannel, Function.update_self]
      exact .inl (hlevel hchannel)
    · right
      rw [Function.update_of_ne hchannel]
      exact ⟨fun heq => hchannel heq.2.symm, rfl⟩
  · rw [Function.update_of_ne huser] at *
    exact ⟨h, .inr ⟨fun heq => huser heq.1.symm, rfl⟩⟩

/-- A peer takes over flags. -/
theorem ListRight.set_channel_flags (h : state.ListRight viewerId) (userId : Int)
    (channelId modeflags : BitVec 32) :
    (state.setChannelFlags userId channelId modeflags).ListRight viewerId := by
  refine ⟨?_, ?_, ?_, h.lookups⟩
  · exact fun info hmem => h.others info (visible_set hmem).1
  · exact fun info hmem => h.listed info (visible_set hmem).1
  · intro info hmem
    obtain ⟨hold, hlevel | ⟨-, hlevel⟩⟩ := visible_set hmem
    · exact .inl hlevel
    · rw [hlevel]
      exact h.ranked info hold

/-- The events of a JOIN tell of the flags that they write. -/
theorem ListRight.join_events (h : state.ListRight viewerId) (details : UserSummary)
    (channelId setModeFlags : BitVec 32) :
    (state.userJoinEvents details channelId setModeFlags).ListRight viewerId := by
  unfold userJoinEvents
  simp only
  split
  · refine set_channel_flags ?_ ..
    exact h.task rfl _ rfl (fun _ _ hlisted => .inl hlisted) fun _ _ hmem => .inl hmem
  · exact h

/-- A JOIN is called back. -/
theorem ListRight.call_join (h : state.ListRight viewerId) {userId : Int}
    {channelId initialFlags : BitVec 32}
    (hwaits : .onJoinChannel userId channelId initialFlags ∈ state.callbacks)
    (hkeeps : state.KeepsVisible viewerId (.call (.onJoinChannel userId channelId initialFlags))) :
    (state.runCallback (.onJoinChannel userId channelId initialFlags)).ListRight viewerId := by
  have hrank := hkeeps hwaits
  by_cases huser : userId = viewerId
  · subst huser
    have hclient : (state.runCallback (.onJoinChannel userId channelId initialFlags)).clients
        userId = (state.clients userId).remember channelId initialFlags := Function.update_self ..
    have hvisible : (state.runCallback (.onJoinChannel userId channelId initialFlags)).visible
        userId = state.visible userId := by
      rw [visible, hclient]
      rfl
    refine ⟨?_, ?_, ?_, h.lookups⟩
    · rw [hvisible]
      exact h.others
    · rw [hvisible]
      exact h.listed
    · rw [hvisible]
      intro info hmem
      rw [level, hclient, remember_flags]
      by_cases hchannel : info.channelId = channelId
      · rw [hchannel, Function.update_self]
        exact hrank rfl info hmem hchannel
      · rw [Function.update_of_ne hchannel]
        exact h.ranked info hmem
  · have hclient : (state.runCallback (.onJoinChannel userId channelId initialFlags)).clients
        viewerId = state.clients viewerId := Function.update_of_ne (Ne.symm huser) ..
    refine ⟨?_, ?_, ?_, h.lookups⟩
    · rw [visible, hclient]
      exact h.others
    · rw [visible, hclient]
      exact h.listed
    · rw [visible, hclient]
      intro info hmem
      rw [level, hclient]
      exact h.ranked info hmem

/-- A lookup is called back. -/
theorem ListRight.call_lookup (h : state.ListRight viewerId) {userId : Int} {channelId : BitVec 32}
    {users : List Int} (hwaits : .onLookup userId channelId users ∈ state.callbacks)
    (hkeeps : state.KeepsVisible viewerId (.call (.onLookup userId channelId users))) :
    (state.runCallback (.onLookup userId channelId users)).ListRight viewerId := by
  have hmembers := hkeeps hwaits
  by_cases huser : userId = viewerId
  · subst huser
    have hclient : (state.runCallback (.onLookup userId channelId users)).clients userId =
        (state.clients userId).onLookup channelId users := Function.update_self ..
    have hlevel : ∀ otherId, (state.runCallback (.onLookup userId channelId users)).level userId
        otherId = state.level userId otherId := by
      intro otherId
      rw [level, hclient, on_lookup_flags]
      rfl
    have hseen : ∀ info ∈ (state.runCallback (.onLookup userId channelId users)).visible userId,
        info ∈ state.visible userId ∨ (info.userId ∈ users ∧ info.channelId = channelId) := by
      intro info hmem
      rw [visible, hclient] at hmem
      exact visible_on_lookup hmem
    refine ⟨?_, ?_, ?_, h.lookups⟩
    · intro info hmem
      rcases hseen info hmem with hold | ⟨hanswered, -⟩
      · exact h.others info hold
      · rintro rfl
        exact h.lookups channelId users hwaits hanswered
    · intro info hmem
      rcases hseen info hmem with hold | ⟨hanswered, rfl⟩
      · exact h.listed info hold
      · exact (hmembers rfl _ hanswered).1
    · intro info hmem
      rw [hlevel]
      rcases hseen info hmem with hold | ⟨hanswered, rfl⟩
      · exact h.ranked info hold
      · exact (hmembers rfl _ hanswered).2
  · have hclient : (state.runCallback (.onLookup userId channelId users)).clients viewerId =
        state.clients viewerId := Function.update_of_ne (Ne.symm huser) ..
    refine ⟨?_, ?_, ?_, h.lookups⟩
    · rw [visible, hclient]
      exact h.others
    · rw [visible, hclient]
      exact h.listed
    · rw [visible, hclient]
      intro info hmem
      rw [level, hclient]
      exact h.ranked info hmem

/-- A callback is called. -/
theorem ListRight.call (h : state.ListRight viewerId) {callback : FlagCallback}
    (hwaits : callback ∈ state.callbacks)
    (hkeeps : state.KeepsVisible viewerId (.call callback)) :
    (state.runCallback callback).ListRight viewerId := by
  cases callback with
  | onJoinChannel userId channelId initialFlags => exact h.call_join hwaits hkeeps
  | onPartChannel userId channelId => exact h.set_channel_flags userId channelId 0
  | onLookup userId channelId users => exact h.call_lookup hwaits hkeeps

/-- A callback that has been called waits no more. -/
theorem ListRight.called (h : state.ListRight viewerId) (callback : FlagCallback) :
    ({ state with callbacks := state.callbacks.erase callback } : ChatState).ListRight viewerId :=
  h.task rfl [] (List.append_nil _).symm (fun _ _ hlisted => .inl hlisted) fun _ _ hmem =>
    .inl (List.mem_of_mem_erase hmem)

/-- The list and the level of a viewer when an update has arrived. -/
theorem visible_handle_update {env : Environment} {update : FlagUpdate} {updates : List FlagUpdate}
    {info : UserAddressVisibilityInfo} (hupdates : state.updates = update :: updates)
    (hknown : state.store.Known update.userId)
    (h : info ∈ (state.handleUpdate env).visible viewerId) :
    (info ∈ state.visible viewerId ∧ (update.userId ≠ viewerId →
        hasFlag update.modeflags isInChannel = false →
          ¬ (info.channelId = update.channelId ∧ info.userId = update.userId))) ∨
      (info = ⟨update.userId, update.channelId⟩ ∧ update.userId ≠ viewerId ∧
        (state.clients viewerId).seesAddress update.channelId update.modeflags) := by
  unfold handleUpdate at h
  rw [hupdates] at h
  simp only [hknown env] at h
  have hmem := (visible_set h).1
  simp only [visible] at hmem
  split at hmem
  · rename_i huser
    exact .inl ⟨hmem, fun hne => absurd huser.symm hne⟩
  · rename_i huser
    have hne : update.userId ≠ viewerId := fun heq => huser heq.symm
    rcases visible_external hmem with ⟨hold, hout⟩ | ⟨hnew, hsees⟩
    · exact .inl ⟨hold, fun _ => hout⟩
    · exact .inr ⟨hnew, hne, hsees⟩

theorem level_handle_update {env : Environment} {update : FlagUpdate} {updates : List FlagUpdate}
    {info : UserAddressVisibilityInfo} (hupdates : state.updates = update :: updates)
    (hknown : state.store.Known update.userId)
    (h : info ∈ (state.handleUpdate env).visible viewerId) :
    (state.handleUpdate env).level viewerId info.channelId > 1 ∨
      (¬ (update.userId = viewerId ∧ update.channelId = info.channelId) ∧
        (state.handleUpdate env).level viewerId info.channelId =
          state.level viewerId info.channelId) := by
  unfold handleUpdate at h ⊢
  rw [hupdates] at h ⊢
  simp only [hknown env] at h ⊢
  obtain ⟨-, hlevel | ⟨hother, hlevel⟩⟩ := visible_set h
  · exact .inl hlevel
  · refine .inr ⟨hother, hlevel.trans ?_⟩
    simp only [level]
    split
    · rfl
    · rw [external_flags]

/-- An update arrives. -/
theorem ListRight.deliver (h : state.ListRight viewerId) (haddressed : state.Addressed)
    (env : Environment) (hkeeps : state.KeepsVisible viewerId (.deliver env)) :
    (state.handleUpdate env).ListRight viewerId := by
  cases hupdates : state.updates with
  | nil =>
      have hsame : state.handleUpdate env = state := by
        unfold handleUpdate
        rw [hupdates]
      rwa [hsame]
  | cons update updates =>
      have hknown : state.store.Known update.userId := haddressed update (by simp [hupdates])
      have hafter : (state.handleUpdate env).store = state.store ∧
          (state.handleUpdate env).updates = updates ∧
          (state.handleUpdate env).callbacks = state.callbacks := by
        unfold handleUpdate
        rw [hupdates]
        exact ⟨rfl, rfl, rfl⟩
      obtain ⟨hstore, hrest, hcallbacks⟩ := hafter
      have hseen := @visible_handle_update state viewerId env update updates
      have hlevels := @level_handle_update state viewerId env update updates
      refine ⟨?_, ?_, ?_, ?_⟩
      · intro info hmem
        rcases hseen hupdates hknown hmem with ⟨hold, -⟩ | ⟨rfl, hother, -⟩
        · exact h.others info hold
        · exact hother
      · rw [hstore, hrest]
        intro info hmem
        rcases hseen hupdates hknown hmem with ⟨hold, hout⟩ | ⟨rfl, hother, hsees⟩
        · have hlisted := h.listed info hold
          rw [hupdates, leaving_cons] at hlisted
          refine hlisted.imp_right fun hleaving => hleaving.resolve_left ?_
          rintro ⟨huser, hchannel, hgone⟩
          -- the viewer is not in his own list
          have hne : update.userId ≠ viewerId := by
            rw [huser]
            exact h.others info hold
          exact hout hne hgone ⟨hchannel.symm, huser.symm⟩
        · exact hkeeps update updates hupdates hother hsees
      · intro info hmem
        rcases hlevels hupdates hknown hmem with hlevel | ⟨hne, hlevel⟩
        · exact .inl hlevel
        · rw [hlevel]
          rcases hseen hupdates hknown hmem with ⟨hold, -⟩ | ⟨rfl, -, hsees⟩
          · refine (h.ranked info hold).imp_right ?_
            rintro ⟨other, hother, hfor⟩
            rw [hupdates, List.mem_cons] at hother
            refine ⟨other, hrest ▸ hother.resolve_left ?_, hfor⟩
            rintro rfl
            exact hne hfor
          · left
            simp only [Client.seesAddress, Bool.and_eq_true, decide_eq_true_eq] at hsees
            exact hsees.1.2
      · rw [hcallbacks]
        exact h.lookups

/-- Nothing that waits matters. -/
theorem ListRight.of_requests (h : state.ListRight viewerId) (requests : List PendingRequest) :
    ({ state with requests := requests } : ChatState).ListRight viewerId :=
  ⟨h.others, h.listed, h.ranked, h.lookups⟩

/-- An event that meets its condition keeps the list of a viewer right. -/
theorem ListRight.step (h : state.ListRight viewerId) (haddressed : state.Addressed)
    {event : ChatEvent} (hkeeps : state.KeepsVisible viewerId event) :
    (state.step event).ListRight viewerId := by
  cases event with
  | join env details request => exact h.join request
  | part env details channelName => exact h.part channelName hkeeps
  | kick env details channelName target => exact h.kick channelName target
  | mode env details channelName modify => exact h.mode channelName modify
  | ownJoin userId channelId => exact h.of_requests _
  | joinEvents details channelId setModeFlags =>
      unfold ChatState.step
      simp only
      split
      · exact (h.of_requests _).join_events details channelId setModeFlags
      · exact h
  | lookup env userId channelId =>
      unfold ChatState.step
      simp only
      split
      · exact (h.of_requests _).lookup userId channelId
      · exact h
  | call callback =>
      unfold ChatState.step
      simp only
      split
      · rename_i hwaits
        cases callback <;> exact (h.call hwaits hkeeps).called _
      · exact h
  | deliver env => exact h.deliver haddressed env hkeeps

end ChatState

/-- In a run of the tasks of registered users in which every event meets its condition, a viewer is
shown the addresses of others only as a global owner, or above the level of a voice in a channel
that they are in, whenever no callback waits and no update is under way. -/
theorem addresses_for_operators (usernick : Bytes → Option Int) (user : Int → Option UserSummary)
    (run : List ChatEvent) (viewer : UserSummary)
    (hregistered : ∀ event ∈ run, event.ByRegistered user)
    (hrun : AtEach ChatState.step (.start usernick user)
      (fun state => state.KeepsVisible viewer.id) run)
    (hquiet : (after ChatState.step (.start usernick user) run).Quiet) :
    (after ChatState.step (.start usernick user) run).AddressesGuarded viewer := by
  have hmeets : AtEach ChatState.step (.start usernick user) (fun state event =>
      state.KeepsVisible viewer.id event ∧ event.ByRegistered user) run :=
    fun before next rest heq =>
      ⟨hrun before next rest heq, hregistered next (by rw [heq]; simp)⟩
  have hstart : (ChatState.start usernick user).ListRight viewer.id :=
    ⟨List.forall_mem_nil _, List.forall_mem_nil _, List.forall_mem_nil _,
      fun _ _ hlookup => (by cases hlookup)⟩
  have hinvariant := @invariant_of_at_each _ _ ChatState.step (.start usernick user) run
    (fun state => state.ListRight viewer.id ∧ state.Addressed ∧ state.store.user = user) _
    ⟨hstart, List.forall_mem_nil _, rfl⟩
    (by
      rintro state event ⟨hright, haddressed, huser⟩ ⟨hkeeps, hby⟩
      subst huser
      exact ⟨hright.step haddressed hkeeps, haddressed.step hby, state.step_user event⟩)
    hmeets
  exact hinvariant.1.quiet hquiet

/-- Alice, who may override, joins a channel and makes herself an operator, and Bob joins it. -/
def operatorRun : List ChatEvent :=
  [.join quietEnvironment (chatPeer 1 (ascii "alice") 32).details ⟨ascii "#a", [], 0⟩,
    .call (.onJoinChannel 1 1 isInChannel), .deliver quietEnvironment,
    .mode quietEnvironment (chatPeer 1 (ascii "alice") 32).details (ascii "#a")
      (requestedChange 0 (ascii "MODE") (ascii "#a") [ascii "+o", ascii "alice"]),
    .deliver quietEnvironment, .lookup quietEnvironment 1 1, .call (.onLookup 1 1 []),
    .join quietEnvironment (chatPeer 2 (ascii "bob") 0).details ⟨ascii "#a", [], 0⟩,
    .call (.onJoinChannel 2 1 isInChannel), .deliver quietEnvironment]

/-- Alice sees the addresses of those who are in the channel. -/
theorem operator_sees_members :
    (after ChatState.step (.start twoUsers.usernick twoUsers.user) operatorRun).AddressesGuarded
      (chatPeer 1 (ascii "alice") 32).details := by
  refine addresses_for_operators twoUsers.usernick twoUsers.user operatorRun
    (chatPeer 1 (ascii "alice") 32).details (by decide) ?_ ⟨rfl, rfl⟩
  refine at_each_cons.mpr ⟨trivial, at_each_cons.mpr ⟨?_, at_each_cons.mpr ⟨?_, at_each_cons.mpr
    ⟨trivial, at_each_cons.mpr ⟨?_, at_each_cons.mpr ⟨trivial, at_each_cons.mpr ⟨?_,
      at_each_cons.mpr ⟨trivial, at_each_cons.mpr ⟨?_, at_each_cons.mpr ⟨?_, at_each_nil⟩⟩⟩⟩⟩⟩⟩⟩⟩⟩
  · exact fun _ _ info hmem => absurd hmem (List.not_mem_nil)
  · rintro update updates ⟨⟩ hother -
    exact absurd rfl hother
  · rintro update updates ⟨⟩ hother -
    exact absurd rfl hother
  · exact fun _ _ otherId hmem => absurd hmem (List.not_mem_nil)
  · exact fun _ huser => absurd huser (by decide)
  · rintro update updates ⟨⟩ - -
    exact .inl (by decide)

/-- Bob has left the channel, and Alice sees his address. -/
theorem address_after_part :
    ¬ ∀ (usernick : Bytes → Option Int) (user : Int → Option UserSummary) (run : List ChatEvent)
        (viewer : UserSummary), (∀ event ∈ run, event.ByRegistered user) →
      (after ChatState.step (.start usernick user) run).Quiet →
      (after ChatState.step (.start usernick user) run).requests = [] →
      (after ChatState.step (.start usernick user) run).AddressesGuarded viewer := by
  intro h
  have hguarded := h twoUsers.usernick twoUsers.user (operatorRun ++
    [.part quietEnvironment (chatPeer 2 (ascii "bob") 0).details (ascii "#a"),
      .call (.onPartChannel 2 1), .deliver quietEnvironment])
    (chatPeer 1 (ascii "alice") 32).details (by decide) ⟨rfl, rfl⟩ rfl
  have hlists : (after ChatState.step (.start twoUsers.usernick twoUsers.user) (operatorRun ++
      [.part quietEnvironment (chatPeer 2 (ascii "bob") 0).details (ascii "#a"),
        .call (.onPartChannel 2 1), .deliver quietEnvironment])).store.channelUsers =
      Function.update (Function.update (Function.update (fun _ => []) 1 [1]) 1 [1, 2]) 1 [1] := rfl
  rcases hguarded 2 (by decide) (by decide) with hglobal | ⟨channelId, -, hlisted⟩
  · exact absurd hglobal (by decide)
  · rw [hlists, Function.update_idem, Function.update_idem, Function.update_apply] at hlisted
    split at hlisted
    · exact absurd hlisted (by decide)
    · cases hlisted

end OpenSpy.Peerchat
