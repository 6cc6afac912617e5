import OpenSpy.Peerchat.UserModes

/-!
# The global gag

A user whom the web service reports as gagged when he registers should send no PRIVMSG and no NOTICE
any more, as long as he has no privileges. The gag is one of his modes, so that he may take it away
with MODE for his nick, and MODE also takes it away when it finds a record without it.
`gag_stays` says for which runs it stays.
-/

namespace OpenSpy.Peerchat.UserModes

open Bytes Runs ChannelStore
open NickTasks (Callback)

/-- The user is gagged by his modes. -/
def Gagged (summary : UserSummary) : Prop :=
  hasFlag (modeBits summary) gaggedUser

instance (summary : UserSummary) : Decidable (Gagged summary) :=
  inferInstanceAs (Decidable (_ = true))

/-- What a task brings to its peer is gagged, if it is a MODE that has found the record, or the
registration. -/
def Task.CarriesGag (task : Task) : Prop :=
  match task.request with
  | .updateUserModes setFlags unsetFlags =>
      match task.control with
      | .found summary =>
          hasFlag (updateUserModes setFlags unsetFlags (modeBits summary)) gaggedUser
      | .response _ summary => Gagged summary
      | _ => True
  | .setUserDetails summary callback =>
      callback = .onUserRegistered →
        match task.control with
        | .start | .detailsRead _ _ => Gagged summary
        | .response _ answer => Gagged answer
        | _ => True
  | _ => True

instance (task : Task) : Decidable task.CarriesGag := by
  unfold Task.CarriesGag
  repeat' split
  all_goals infer_instance

namespace State

variable (s : State)

/-- The web service reports a peer as gagged at an event. -/
def Reports (number : Nat) : Event → Prop
  | .execute i _ _ => ∃ modeflags,
      s.tasks[i]? = some ⟨number, .lookupGlobalUsermode, .usermode modeflags⟩ ∧
        (∃ peer, s.peers[number]? = some peer) ∧ hasFlag modeflags UserChannelFlag.gagged
  | _ => False

/-- The next step of a task of a peer leaves the gag: a MODE finds the record gagged or sets the
gag, and does not take it away, a registration whose nick is in use finds a gagged user for it, and
when the gag is reported, no MODE is under way that has found the record without it. -/
def StepKeepsGag (env : Environment) (peer : Peer) (task : Task) : Prop :=
  match task.request, task.control with
  | .updateUserModes setFlags unsetFlags, .start =>
      hasFlag unsetFlags gaggedUser = false ∧
        (hasFlag setFlags gaggedUser ∨ Gagged (lookupUserById env s.keys.store peer.details.id))
  | .setUserDetails summary callback, .detailsRead userDetails _ =>
      callback = .onUserRegistered →
      (s.keys.store.usernick (nickKey summary.nick)).isSome ∧ summary.nick ≠ userDetails.nick →
        Gagged (getUserSummaryByName env s.keys.store (summary.nick.map toLower))
  | .lookupGlobalUsermode, .usermode _ => ∀ other ∈ s.tasks, other.peer = task.peer →
      other.CarriesGag
  | _, _ => True

instance (env : Environment) (peer : Peer) (task : Task) :
    Decidable (s.StepKeepsGag env peer task) := by
  unfold StepKeepsGag
  repeat' split
  all_goals infer_instance

/-- What happens leaves the gag of a peer. -/
def KeepsGag (number : Nat) : Event → Prop
  | .execute i env _ => ∀ task ∈ s.tasks[i]?, task.peer = number →
      ∀ peer ∈ s.peers[number]?, s.StepKeepsGag env peer task
  | _ => True

instance (number : Nat) : (event : Event) → Decidable (s.KeepsGag number event)
  | .execute i env _ => inferInstanceAs (Decidable (∀ task ∈ s.tasks[i]?, task.peer = number →
      ∀ peer ∈ s.peers[number]?, s.StepKeepsGag env peer task))
  | .connect .. | .nick .. | .acquire .. | .user .. | .crypt .. | .login .. | .oper ..
  | .operStatus .. | .mode .. | .setKey .. | .channel .. | .message .. | .quit .. =>
      instDecidableTrue

/-- All tasks of a peer bring a gag to it, if they bring modes. -/
def AllCarryGag (number : Nat) : Prop :=
  ∀ task ∈ s.tasks, task.peer = number → task.CarriesGag

/-- A peer is gagged, and what its tasks bring to it is gagged, or it is deleted. -/
def GagHolds (number : Nat) : Prop :=
  ∃ peer, s.peers[number]? = some peer ∧
    (peer.deleted ∨ (Gagged peer.details ∧ s.AllCarryGag number))

end State

section Bits

/-- One turn of the loop of MODE changes its own bit. -/
theorem update_bit (setFlags unsetFlags modeflags : BitVec 32) {bit other : Nat} (h : bit < 32)
    (hother : other < 32) :
    (updateUserMode setFlags unsetFlags modeflags (.twoPow 32 bit)).getLsbD other =
      if other = bit then
        !unsetFlags.getLsbD other && (setFlags.getLsbD other || modeflags.getLsbD other)
      else modeflags.getLsbD other := by
  simp only [updateUserMode, has_flag_two_pow _ bit h]
  by_cases hbit : other = bit
  · subst hbit
    rw [if_pos rfl]
    split <;> split <;> simp_all
    grind
  · rw [if_neg hbit]
    split <;> split <;> simp [hother, hbit]

/-- MODE leaves the gag where it is set and not taken away. -/
theorem gagged_update (setFlags unsetFlags modeflags : BitVec 32) :
    hasFlag (updateUserModes setFlags unsetFlags modeflags) gaggedUser =
      (!hasFlag unsetFlags gaggedUser &&
        (hasFlag setFlags gaggedUser || hasFlag modeflags gaggedUser)) := by
  have hgag : ∀ flags, hasFlag flags gaggedUser = flags.getLsbD 2 := fun flags =>
    has_flag_two_pow flags 2 (by decide)
  simp only [hgag, updateUserModes, userModeFlagMap, List.foldl_cons, List.foldl_nil, quietUser,
    invisibleUser]
  rw [gaggedUser, update_bit _ _ _ (by decide) (by decide), if_pos rfl,
    update_bit _ _ _ (by decide) (by decide), if_neg (by decide),
    update_bit _ _ _ (by decide) (by decide), if_neg (by decide)]

theorem mode_bits_updated (summary : UserSummary) (modeflags : BitVec 32) :
    modeBits { summary with modeflags := modeflags.toInt } = modeflags :=
  BitVec.ofInt_toInt

/-- A gag that has been given is there. -/
theorem gagged_given (summary : UserSummary) :
    Gagged { summary with modeflags := (modeBits summary ||| gaggedUser).toInt } := by
  rw [Gagged, mode_bits_updated, gaggedUser, has_flag_two_pow _ 2 (by decide)]
  simp

end Bits

namespace State

variable {s next : State} {number : Nat}

/-- The gag holds on if the peer keeps it, and the new tasks carry it. -/
theorem GagHolds.of_change (h : s.GagHolds number)
    (hpeers : ∀ peer, s.peers[number]? = some peer → ∃ changed, next.peers[number]? = some changed ∧
      (peer.deleted → changed.deleted) ∧
      (Gagged peer.details → s.AllCarryGag number → changed.deleted ∨ Gagged changed.details))
    (htasks : ∀ peer, s.peers[number]? = some peer → Gagged peer.details → s.AllCarryGag number →
      next.AllCarryGag number) : next.GagHolds number := by
  obtain ⟨peer, hpeer, hgag⟩ := h
  obtain ⟨changed, hchanged, hdeleted, hgagged⟩ := hpeers peer hpeer
  refine ⟨changed, hchanged, ?_⟩
  rcases hgag with hgone | ⟨hdetails, htask⟩
  · exact .inl (hdeleted hgone)
  · exact (hgagged hdetails htask).imp_right fun hnow => ⟨hnow, htasks peer hpeer hdetails htask⟩

/-- A change that keeps the gag of the peer. -/
theorem GagHolds.modify (h : s.GagHolds number) (changing : Nat) (change : Peer → Peer)
    (hdeleted : ∀ peer, peer.deleted → (change peer).deleted)
    (hgagged : ∀ peer, changing = number → s.peers[number]? = some peer → Gagged peer.details →
      s.AllCarryGag number → (change peer).deleted ∨ Gagged (change peer).details) :
    (s.modifyPeer changing change).GagHolds number := by
  refine h.of_change ?_ fun _ _ _ hall => hall
  intro peer hpeer
  have hmodified : (s.modifyPeer changing change).peers[number]? =
      some (if changing = number then change peer else peer) := by
    simp [modifyPeer, List.getElem?_modify, hpeer]
  refine ⟨_, hmodified, ?_, ?_⟩
  · split
    · exact hdeleted peer
    · exact id
  · split
    · rename_i hsame
      exact hgagged peer hsame hpeer
    · exact fun hdetails _ => .inr hdetails

/-- A request that carries the gag of its peer. -/
theorem GagHolds.add (h : s.GagHolds number) (adding : Nat) (request : Request)
    (hcarries : ∀ peer, adding = number → s.peers[number]? = some peer → Gagged peer.details →
      (⟨adding, request, .start⟩ : Task).CarriesGag) :
    (s.addTask adding request).GagHolds number := by
  refine h.of_change (fun peer hpeer => ⟨peer, hpeer, id, fun hdetails _ => .inr hdetails⟩) ?_
  intro peer hpeer hdetails hall task hmem hnumber
  rcases List.mem_append.mp hmem with hold | hnew
  · exact hall task hold hnumber
  · rw [List.mem_singleton] at hnew
    subst hnew
    exact hcarries peer hnumber hpeer hdetails

/-- Changes of the store leave the gag alone. -/
theorem GagHolds.of_peers (h : s.GagHolds number) (hpeers : next.peers = s.peers)
    (htasks : next.tasks = s.tasks) : next.GagHolds number := by
  obtain ⟨peer, hpeer, hgag⟩ := h
  refine ⟨peer, by rw [hpeers]; exact hpeer, ?_⟩
  rwa [AllCarryGag, htasks]

/-- A task goes on and carries the gag. -/
theorem GagHolds.set (h : s.GagHolds number) (i : Nat) (task : Task)
    (hcarries : task.peer = number → s.AllCarryGag number → task.CarriesGag) :
    ({ s with tasks := s.tasks.set i task } : State).GagHolds number := by
  refine h.of_change (fun peer hpeer => ⟨peer, hpeer, id, fun hdetails _ => .inr hdetails⟩) ?_
  intro peer _ _ hall other hmem hnumber
  rcases List.mem_or_eq_of_mem_set hmem with hold | rfl
  · exact hall other hold hnumber
  · exact hcarries hnumber hall

theorem GagHolds.maybe_registered (h : s.GagHolds number) (registering : Nat) :
    (s.onUserMaybeRegistered registering).GagHolds number := by
  unfold onUserMaybeRegistered
  split
  · exact h
  · split
    · exact h
    · refine add (h.modify registering _ ?_ ?_) registering _ ?_
      · exact fun _ hdeleted => hdeleted
      · exact fun _ _ _ hdetails _ => .inr hdetails
      · exact fun _ _ _ _ => trivial

/-- The callback of a `SetUserDetails` takes the gag only from a registration that has lost it. -/
theorem GagHolds.on_set_user_details (h : s.GagHolds number) (changing : Nat) (callback : Callback)
    (inUse : Bool) (summary : UserSummary)
    (hcarries : changing = number → s.AllCarryGag number → callback = .onUserRegistered →
      Gagged summary) :
    (s.onSetUserDetails changing callback inUse summary).GagHolds number := by
  cases callback with
  | onGetBackendId =>
      exact h.modify changing _ (fun _ hdeleted => hdeleted) fun _ _ _ hdetails _ => .inr hdetails
  | onNickReserve =>
      unfold onSetUserDetails
      simp only
      split
      · exact h
      · refine maybe_registered (h.modify changing _ ?_ ?_) changing
        · exact fun _ hdeleted => hdeleted
        · exact fun _ _ _ hdetails _ => .inr hdetails
  | onUserRegistered =>
      exact h.modify changing _ (fun _ hdeleted => hdeleted) fun _ hsame _ _ hall =>
        .inr (hcarries hsame hall rfl)
  | null => exact h

/-- Another lookup of the global usermode does not take the gag. -/
theorem GagHolds.on_lookup_global_usermode (h : s.GagHolds number) (changing : Nat)
    (modeflags : BitVec 32) {peer : Peer} (hpeer : s.peers[changing]? = some peer) :
    (s.onLookupGlobalUsermode changing modeflags peer).GagHolds number := by
  unfold onLookupGlobalUsermode
  split
  · exact h.modify changing _ (fun _ _ => rfl) fun _ _ _ _ _ => .inl rfl
  · have hstep : ∀ details, (Gagged peer.details → Gagged details) →
        ((s.modifyPeer changing fun peer => { peer with details := details }).addTask changing
          (.setUserDetails details .onUserRegistered)).GagHolds number := by
      intro details hgiven
      refine add (h.modify changing _ ?_ ?_) changing _ ?_
      · exact fun _ hdeleted => hdeleted
      · intro other hsame hother hdetails _
        subst hsame
        rw [hpeer] at hother
        obtain rfl := Option.some.inj hother
        exact .inr (hgiven hdetails)
      · intro other hsame hother hdetails _
        subst hsame
        simp only [modifyPeer, List.getElem?_modify, hpeer, if_true, Option.map_eq_map,
          Option.map_some] at hother
        rwa [← Option.some.inj hother] at hdetails
    refine hstep _ fun hdetails => ?_
    split
    · exact gagged_given peer.details
    · exact hdetails

/-- One step of a task keeps the gag, and what it then brings to its peer. -/
theorem GagHolds.perform (h : s.GagHolds number) {env : Environment} {web : BitVec 32} {i : Nat}
    {task : Task} {peer : Peer} (htask : s.tasks[i]? = some task)
    (hpeer : s.peers[task.peer]? = some peer) (hkeeps : s.KeepsGag number (.execute i env web)) :
    (s.perform env web task.peer peer task.request task.control).1.GagHolds number ∧
      (task.peer = number → s.AllCarryGag number →
        Task.CarriesGag ⟨task.peer, task.request,
          (s.perform env web task.peer peer task.request task.control).2⟩) := by
  obtain ⟨owner, request, control⟩ := task
  have hmem : (⟨owner, request, control⟩ : Task) ∈ s.tasks := List.mem_of_getElem? htask
  have hcarried : owner = number → s.AllCarryGag number →
      Task.CarriesGag ⟨owner, request, control⟩ := fun hsame hall => hall _ hmem hsame
  have hkept : owner = number → s.StepKeepsGag env peer ⟨owner, request, control⟩ :=
    fun hsame => hkeeps _ htask hsame peer (hsame ▸ hpeer)
  simp only at hpeer ⊢
  cases request with
  | setUserDetails summary callback =>
      cases control with
      | start =>
          simp only [State.perform]
          split
          · exact ⟨h, hcarried⟩
          · exact ⟨h.of_peers rfl rfl, hcarried⟩
      | detailsRead userDetails id =>
          simp only [State.perform]
          split
          · rename_i hinUse
            exact ⟨h, fun hsame _ hcallback => hkept hsame hcallback hinUse⟩
          · split
            · exact ⟨h.of_peers rfl rfl, hcarried⟩
            · exact ⟨h.of_peers rfl rfl, hcarried⟩
      | response inUse answer =>
          exact ⟨h.on_set_user_details owner callback inUse answer hcarried, fun _ _ _ => trivial⟩
      | found _ => exact ⟨h, fun _ _ _ => trivial⟩
      | usermode _ => exact ⟨h, fun _ _ _ => trivial⟩
      | done => exact ⟨h, fun _ _ _ => trivial⟩
  | updateUserModes setFlags unsetFlags =>
      cases control with
      | start =>
          refine ⟨h, fun hsame _ => ?_⟩
          obtain ⟨hunset, hset⟩ := hkept hsame
          show hasFlag (updateUserModes _ _ _) _ = true
          rw [gagged_update, hunset, Bool.not_false, Bool.true_and, Bool.or_eq_true]
          exact hset
      | found summary =>
          refine ⟨h.of_peers rfl rfl, fun hsame hall => ?_⟩
          show Gagged { summary with modeflags := BitVec.toInt _ }
          rw [Gagged, mode_bits_updated]
          exact hcarried hsame hall
      | response inUse summary =>
          refine ⟨h.modify owner _ (fun _ hdeleted => hdeleted) ?_, fun _ _ => trivial⟩
          exact fun _ hsame _ _ hall => .inr (hcarried hsame hall)
      | detailsRead _ _ => exact ⟨h, fun _ _ => trivial⟩
      | usermode _ => exact ⟨h, fun _ _ => trivial⟩
      | done => exact ⟨h, fun _ _ => trivial⟩
  | setUserKeys username kvText =>
      cases control with
      | found summary => exact ⟨h.of_peers rfl rfl, fun _ _ => trivial⟩
      | start => exact ⟨h, fun _ _ => trivial⟩
      | detailsRead _ _ => exact ⟨h, fun _ _ => trivial⟩
      | response _ _ => exact ⟨h, fun _ _ => trivial⟩
      | usermode _ => exact ⟨h, fun _ _ => trivial⟩
      | done => exact ⟨h, fun _ _ => trivial⟩
  | lookupGlobalUsermode =>
      cases control with
      | usermode modeflags =>
          exact ⟨h.on_lookup_global_usermode owner modeflags hpeer, fun _ _ => trivial⟩
      | start => exact ⟨h, fun _ _ => trivial⟩
      | detailsRead _ _ => exact ⟨h, fun _ _ => trivial⟩
      | found _ => exact ⟨h, fun _ _ => trivial⟩
      | response _ _ => exact ⟨h, fun _ _ => trivial⟩
      | done => exact ⟨h, fun _ _ => trivial⟩

theorem tasks_maybe_registered (registering : Nat) :
    s.tasks ⊆ (s.onUserMaybeRegistered registering).tasks := by
  unfold onUserMaybeRegistered
  split
  · exact List.Subset.refl _
  · split
    · exact List.Subset.refl _
    · exact List.subset_append_left _ _

/-- A step of a task removes no task. -/
theorem tasks_perform (s : State) (env : Environment) (web : BitVec 32) (owner : Nat) (peer : Peer)
    (request : Request) (control : Control) :
    s.tasks ⊆ (s.perform env web owner peer request control).1.tasks := by
  unfold State.perform
  split
  · split <;> exact List.Subset.refl _
  · split
    · exact List.Subset.refl _
    · split <;> exact List.Subset.refl _
  · rename_i callback inUse summary
    cases callback with
    | onNickReserve =>
        unfold onSetUserDetails
        simp only
        split
        · exact List.Subset.refl _
        · exact tasks_maybe_registered (s := modifyPeer ..) owner
    | onGetBackendId => exact List.Subset.refl _
    | onUserRegistered => exact List.Subset.refl _
    | null => exact List.Subset.refl _
  · exact List.Subset.refl _
  · exact List.Subset.refl _
  · exact List.Subset.refl _
  · exact List.Subset.refl _
  · exact List.Subset.refl _
  · exact List.Subset.refl _
  · unfold onLookupGlobalUsermode
    split
    · exact List.Subset.refl _
    · exact List.subset_append_left _ _
  · exact List.Subset.refl _

/-- The next step of a task keeps the gag. -/
theorem GagHolds.execute (h : s.GagHolds number) (i : Nat) (env : Environment) (web : BitVec 32)
    (hkeeps : s.KeepsGag number (.execute i env web)) :
    (s.execute i env web).GagHolds number := by
  unfold State.execute
  split
  · exact h
  · rename_i task htask
    split
    · exact h
    · rename_i peer hpeer
      obtain ⟨hnext, hcarries⟩ := h.perform htask hpeer hkeeps
      refine hnext.set i ⟨task.peer, task.request, _⟩ fun hsame hall => hcarries hsame ?_
      exact fun other hother => hall other (tasks_perform _ _ _ _ _ _ _ hother)

/-- A peer that changes its details otherwise keeps the gag, and may ask for them to be written. -/
theorem GagHolds.refresh (h : s.GagHolds number) (changing : Nat)
    (change : UserSummary → UserSummary)
    (hmodes : ∀ details, (change details).modeflags = details.modeflags) :
    (s.refresh changing change).GagHolds number := by
  unfold State.refresh
  split
  · exact h
  · rename_i peer hpeer
    have hgagged : Gagged peer.details → Gagged (change peer.details) := by
      rw [Gagged, Gagged, modeBits, modeBits, hmodes]
      exact id
    refine add (h.modify changing _ ?_ ?_) changing _ fun _ _ _ _ hcallback => by cases hcallback
    · exact fun _ hdeleted => hdeleted
    · intro other hsame hother hdetails _
      subst hsame
      rw [hpeer] at hother
      obtain rfl := Option.some.inj hother
      exact .inr (hgagged hdetails)

theorem GagHolds.request_nick (h : s.GagHolds number) (requesting : Nat) (nick : Bytes) :
    (s.requestNick requesting nick).GagHolds number := by
  unfold requestNick
  split
  · exact h
  · split
    · exact h
    · exact h.add requesting _ fun _ _ _ _ hcallback => by cases hcallback

theorem GagHolds.handle_user (h : s.GagHolds number) (handling : Nat) (username realname : Bytes) :
    (s.handleUser handling username realname).GagHolds number := by
  unfold handleUser
  split
  · exact h
  · extract_lets
    split
    · exact h
    · refine maybe_registered (h.modify handling _ ?_ ?_) handling
      · exact fun _ hdeleted => hdeleted
      · exact fun _ _ _ hdetails _ => .inr hdetails

theorem GagHolds.command (h : s.GagHolds number) (handling : Nat) {handle : Peer → State}
    (hhandle : ∀ peer, (handle peer).GagHolds number) :
    (s.command handling handle).GagHolds number := by
  unfold State.command
  split
  · exact h
  · split
    · exact hhandle _
    · exact h

theorem GagHolds.connect (h : s.GagHolds number) (address : IPv4) :
    (s.connect address).GagHolds number := by
  refine add ?_ s.peers.length _ fun _ _ _ _ hcallback => by cases hcallback
  refine h.of_change ?_ fun _ _ _ hall => hall
  intro peer hpeer
  refine ⟨peer, ?_, id, fun hdetails _ => .inr hdetails⟩
  exact (List.getElem?_append_left (List.getElem?_eq_some_iff.mp hpeer).1).trans hpeer

theorem GagHolds.quit (h : s.GagHolds number) (leaving : Nat) (env : Environment) :
    (s.quit leaving env).GagHolds number := by
  unfold State.quit
  split
  · exact h
  · split
    · exact h
    · have hmodified := h.modify leaving (fun peer => { peer with deleted := true })
        (fun _ _ => rfl) fun _ _ _ _ _ => .inl rfl
      exact hmodified.of_peers rfl rfl

/-- An event that meets its condition keeps the gag. -/
theorem GagHolds.step (h : s.GagHolds number) {event : Event} (hkeeps : s.KeepsGag number event) :
    (s.step event).GagHolds number := by
  cases event with
  | connect address => exact h.connect address
  | nick requesting uniquenick param =>
      unfold State.step
      simp only
      split
      · exact h.request_nick requesting _
      · exact h
  | acquire requesting uniquenick => exact h.request_nick requesting uniquenick
  | user handling username realname => exact h.handle_user handling username realname
  | crypt changing gameid => exact h.refresh changing _ fun _ => rfl
  | login changing profileid => exact h.refresh changing _ fun _ => rfl
  | oper changing profileid userid => exact h.refresh changing _ fun _ => rfl
  | operStatus changing operflags =>
      exact h.modify changing _ (fun _ hdeleted => hdeleted) fun _ _ _ hdetails _ => .inr hdetails
  | mode handling modeString =>
      exact h.command handling fun _ => h.add handling _ fun _ _ _ _ => trivial
  | setKey handling kvText =>
      exact h.command handling fun _ => h.add handling _ fun _ _ _ _ => trivial
  | channel handling env flags task => exact h.command handling fun _ => h.of_peers rfl rfl
  | message sending type target message rest => exact h
  | quit leaving env => exact h.quit leaving env
  | execute i env web => exact h.execute i env web hkeeps

/-- `OnLookupGlobalUsermode` gags the peer, or deletes it. -/
theorem gag_holds_of_lookup {modeflags : BitVec 32} {peer : Peer}
    (hpeer : s.peers[number]? = some peer) (hgagged : hasFlag modeflags UserChannelFlag.gagged)
    (hall : s.AllCarryGag number) :
    (s.onLookupGlobalUsermode number modeflags peer).GagHolds number := by
  unfold onLookupGlobalUsermode
  split
  · exact ⟨{ peer with deleted := true }, by simp [modifyPeer, hpeer], .inl rfl⟩
  · extract_lets _ details
    have hgiven : Gagged details := gagged_given peer.details
    clear_value details
    refine ⟨{ peer with details := details }, by simp [modifyPeer, addTask, hpeer], ?_⟩
    refine .inr ⟨hgiven, ?_⟩
    intro task hmem hnumber
    rcases List.mem_append.mp hmem with hold | hnew
    · exact hall task hold hnumber
    · rw [List.mem_singleton] at hnew
      subst hnew
      exact fun _ => hgiven

/-- The report of a gag gags the peer, or deletes it. -/
theorem gag_holds_of_report {event : Event} (hreports : s.Reports number event)
    (hkeeps : s.KeepsGag number event) : (s.step event).GagHolds number := by
  cases event with
  | execute i env web =>
      obtain ⟨modeflags, htask, ⟨peer, hpeer⟩, hgagged⟩ := hreports
      have hall : s.AllCarryGag number := hkeeps _ htask rfl peer hpeer
      have hstep : s.step (.execute i env web) =
          { s.onLookupGlobalUsermode number modeflags peer with
            tasks := (s.onLookupGlobalUsermode number modeflags peer).tasks.set i
              ⟨number, .lookupGlobalUsermode, .done⟩ } := by
        simp only [State.step, State.execute, htask, hpeer, State.perform]
      rw [hstep]
      exact GagHolds.set (gag_holds_of_lookup hpeer hgagged hall) i _ fun _ _ => trivial
  | _ => cases hreports

end State

/-- The messages of a command are of its peer and of its type. -/
theorem message_of_command {number : Nat} {peer : Peer} {type : MessageType}
    {target message : Bytes} {rest : List Bytes} {sent : Message}
    (h : sent ∈ handleMessageCommand number peer type target message rest) :
    sent.peer = number ∧ sent.type = type := by
  unfold handleMessageCommand at h
  extract_lets at h
  split at h
  · cases h
  · obtain ⟨current, -, rfl⟩ := List.mem_map.mp h
    exact ⟨rfl, rfl⟩

/-- The messages of a peer are of its peer and its type, and a gagged peer has none that is a
PRIVMSG or a NOTICE. -/
theorem message_of_handle {number : Nat} {peer : Peer} {type : MessageType}
    {target message : Bytes} {rest : List Bytes} {sent : Message}
    (h : sent ∈ handleMessage number peer type target message rest) :
    sent.peer = number ∧
      (Gagged peer.details → sent.type ≠ .privmsg ∧ sent.type ≠ .notice) := by
  have hspeaks : hasFlag (modeBits peer.details) gaggedUser = false →
      ¬ Gagged peer.details := fun hflag hgagged => by simp [Gagged, hflag] at hgagged
  cases type with
  | privmsg =>
      simp only [handleMessage] at h
      split at h
      · cases h
      · rename_i hflag
        exact ⟨(message_of_command h).1, fun hgagged => absurd hgagged hflag⟩
  | notice =>
      simp only [handleMessage] at h
      split at h
      · cases h
      · rename_i hflag
        exact ⟨(message_of_command h).1, fun hgagged => absurd hgagged hflag⟩
  | utm =>
      obtain ⟨hsender, htype⟩ := message_of_command h
      exact ⟨hsender, fun _ => by simp [htype]⟩
  | atm =>
      obtain ⟨hsender, htype⟩ := message_of_command h
      exact ⟨hsender, fun _ => by simp [htype]⟩

/-- A message that is submitted comes from a peer that is logged in. -/
theorem State.message_of_submitted {s : State} {event : Event} {sent : Message}
    (h : sent ∈ s.submitted event) : ∃ peer type target message rest,
      s.peers[sent.peer]? = some peer ∧ peer.loggedIn = true ∧
        sent ∈ handleMessage sent.peer peer type target message rest := by
  unfold submitted at h
  split at h
  · rename_i number type target message rest
    split at h
    · exact absurd h List.not_mem_nil
    · rename_i peer hfound
      split at h
      · rename_i hlogged
        obtain ⟨rfl, -⟩ := message_of_handle h
        exact ⟨peer, type, target, message, rest, hfound, hlogged, h⟩
      · exact absurd h List.not_mem_nil
  · exact absurd h List.not_mem_nil

/-- A peer for which the gag holds submits no PRIVMSG and no NOTICE. -/
theorem State.GagHolds.silent {s : State} {number : Nat} (h : s.GagHolds number) {event : Event}
    {sent : Message} (hsent : sent ∈ s.submitted event) (hpeer : sent.peer = number) :
    sent.type ≠ .privmsg ∧ sent.type ≠ .notice := by
  obtain ⟨peer, type, target, message, rest, hfound, hlogged, hmessage⟩ :=
    message_of_submitted hsent
  obtain ⟨other, hother, hgag⟩ := h
  rw [← hpeer, hfound] at hother
  obtain rfl := Option.some.inj hother
  rcases hgag with hdeleted | ⟨hgagged, -⟩
  · simp [Peer.loggedIn, hdeleted] at hlogged
  · exact (message_of_handle hmessage).2 hgagged

/-- Once a peer has been reported as gagged, it submits no PRIVMSG and no NOTICE, in a run in which
every event from the report on meets its condition. -/
theorem gag_stays (before between : List Event) (report next : Event) (number : Nat)
    (hreports : (serve before).Reports number report)
    (hkeeps : AtEach State.step (serve before) (fun s => s.KeepsGag number) (report :: between)) :
    ∀ sent ∈ (serve (before ++ report :: between)).submitted next, sent.peer = number →
      sent.type ≠ .privmsg ∧ sent.type ≠ .notice := by
  obtain ⟨hreport, hbetween⟩ := at_each_cons.mp hkeeps
  have hholds : (serve (before ++ report :: between)).GagHolds number := by
    have hrun : serve (before ++ report :: between) =
        after State.step ((serve before).step report) between := by
      rw [serve, after_append]
      rfl
    rw [hrun]
    exact @invariant_of_at_each _ _ State.step _ _ (fun s => s.GagHolds number) _
      (State.gag_holds_of_report hreports hreport)
      (fun s event hgag hmeets => hgag.step hmeets) hbetween
  exact fun sent hsent hpeer => hholds.silent hsent hpeer

/-- A client connects, gets an id, takes the nick of Alice and begins to register, and the web
service answers that she is gagged. -/
def aliceGagged : List Event :=
  let task := fun i => List.replicate 3 (Event.execute i quietEnvironment 0)
  [.connect ⟨0, 0, 0, 0⟩] ++ task 0 ++ [.nick 0 [] (ascii "alice")] ++ task 1 ++
    [.user 0 (ascii "a") (ascii "a"), .execute 2 quietEnvironment UserChannelFlag.gagged]

/-- `OnLookupGlobalUsermode` is called for Alice. -/
def aliceReported : Event :=
  .execute 2 quietEnvironment 0

/-- Alice is registered and sends MODE for her nick. -/
def aliceMode (modeString : String) : List Event :=
  let task := fun i => List.replicate 3 (Event.execute i quietEnvironment 0)
  task 3 ++ [.mode 0 (ascii modeString)] ++ task 4

/-- Alice sends a message to Bob. -/
def aliceMessage (type : MessageType) : Event :=
  .message 0 type (ascii "bob") (ascii ":hello") [ascii "you"]

/-- Alice becomes invisible, and stays gagged. -/
theorem invisible_gagged :
    (serve aliceGagged).Reports 0 aliceReported ∧
      ∀ sent ∈ (serve (aliceGagged ++ aliceReported :: aliceMode "+i")).submitted
          (aliceMessage .privmsg),
        sent.peer = 0 → sent.type ≠ .privmsg ∧ sent.type ≠ .notice := by
  have hreports : (serve aliceGagged).Reports 0 aliceReported :=
    ⟨UserChannelFlag.gagged, rfl, ⟨_, rfl⟩, by decide⟩
  exact ⟨hreports, gag_stays aliceGagged (aliceMode "+i") aliceReported (aliceMessage .privmsg) 0
    hreports (by decide)⟩

example : (serve (aliceGagged ++ aliceReported :: aliceMode "+i")).submitted (aliceMessage .utm) =
    [⟨0, .utm, ascii "hello you", ascii "bob"⟩] := by
  decide

/-- With MODE a user takes away the gag, with no privileges in sight. -/
theorem mode_lifts_gag :
    ¬ ∀ before between report next number,
      (∀ event ∈ before ++ report :: between, ∀ peer operflags,
        event ≠ .operStatus peer operflags) →
      (serve before).Reports number report →
      ∀ sent ∈ (serve (before ++ report :: between)).submitted next, sent.peer = number →
        sent.type ≠ .privmsg ∧ sent.type ≠ .notice := by
  intro h
  have hsent : (serve (aliceGagged ++ aliceReported :: aliceMode "-g")).submitted
      (aliceMessage .privmsg) = [⟨0, .privmsg, ascii "hello you", ascii "bob"⟩] := by
    decide
  refine (h aliceGagged (aliceMode "-g") aliceReported (aliceMessage .privmsg) 0 ?_
    ⟨UserChannelFlag.gagged, rfl, ⟨_, rfl⟩, by decide⟩ _ (hsent ▸ List.mem_singleton_self _)
    rfl).1 rfl
  simp [aliceGagged, aliceReported, aliceMode]

end OpenSpy.Peerchat.UserModes
