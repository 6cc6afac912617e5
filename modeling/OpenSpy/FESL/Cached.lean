import Mathlib.Data.List.Perm.Basic
import OpenSpy.FESL.Profiles
import OpenSpy.Library.Runs

/-!
# The cached profile list

A FESL peer keeps a copy of the profiles of its user. A search reply replaces the copy, the
replies of creations and deletions edit it, and the backend applies the requests in an order of
its own. `cache_follows` says that the copy is what the backend has, once every reply has been
delivered, where the search reply that came last crossed no edit: of a creation that the search
saw the reply was there before, of an edit that it did not see the reply came after.
-/

namespace OpenSpy.FESL

open Bytes Runs

/-- The profiles of a user in the backend, and the id of the next one. -/
structure Backend where
  profiles : List Profile
  nextId : Int
  distinct : (profiles.map Profile.id).Nodup
  below : ∀ profile ∈ profiles, profile.id < nextId

namespace Backend

variable (backend : Backend)

/-- The profile that a creation makes. -/
def newProfile (uniquenick : Bytes) : Profile :=
  ⟨backend.nextId, uniquenick⟩

/-- A profile is created. -/
def create (uniquenick : Bytes) : Backend where
  profiles := backend.profiles ++ [backend.newProfile uniquenick]
  nextId := backend.nextId + 1
  distinct := by
    rw [List.map_append, List.nodup_append_comm]
    refine List.nodup_cons.mpr ⟨fun hmem => ?_, backend.distinct⟩
    obtain ⟨profile, hprofile, heq⟩ := List.mem_map.mp hmem
    exact absurd heq (backend.below profile hprofile).ne
  below profile hmem := by
    rcases List.mem_append.mp hmem with hmem | hmem
    · exact (backend.below profile hmem).trans (Int.lt_succ _)
    · rw [List.mem_singleton.mp hmem]
      exact Int.lt_succ _

/-- The profile with an id is deleted. -/
def delete (profileid : Int) : Backend where
  profiles := backend.profiles.filter fun profile => profile.id ≠ profileid
  nextId := backend.nextId
  distinct := (List.filter_sublist.map Profile.id).nodup backend.distinct
  below profile hmem := backend.below profile (List.mem_of_mem_filter hmem)

end Backend

/-- The reply to a request. -/
structure Reply where
  code : WebErrorCode
  results : List Profile
  deriving DecidableEq

/-- A request whose reply has not been delivered. The backend has applied it or not. -/
structure Task where
  request : ProfileRequest
  reply : Option Reply
  deriving DecidableEq

namespace Task

/-- The profile that was created. -/
def created : Task → Option Profile
  | ⟨.createProfile _ _ _, some ⟨.success, profile :: _⟩⟩ => some profile
  | _ => none

/-- The id that is to be deleted, or was. -/
def deleting : Task → Option Int
  | ⟨.deleteProfile profileid _, _⟩ => some profileid
  | _ => none

/-- The id that was deleted. -/
def deleted : Task → Option Int
  | ⟨.deleteProfile profileid _, some ⟨.success, _⟩⟩ => some profileid
  | _ => none

/-- What a search found. -/
def found : Task → Option (List Profile)
  | ⟨.profiles _, some reply⟩ => some reply.results
  | _ => none

end Task

/-- A peer, the backend, and the requests on their way to it and back. -/
structure CacheSystem where
  peer : Peer
  backend : Backend
  tasks : List Task

/-- What can happen: the user logs in, which ends with a search, a command arrives, the backend
applies the `n`th request or refuses it, or its reply is delivered. -/
inductive CacheEvent where
  | login
  | request (command : Command) (kvList : List (Bytes × Bytes))
  | apply (n : Nat) (code : WebErrorCode)
  | deliver (n : Nat)
  deriving DecidableEq

namespace CacheSystem

variable (s : CacheSystem)

/-- The user logs in. What the login sends is left out. -/
def login : CacheSystem :=
  { s with tasks := s.tasks ++ [⟨.profiles s.peer.userId, none⟩] }

/-- A command arrives. -/
def request (command : Command) (kvList : List (Bytes × Bytes)) : CacheSystem :=
  let (peer, requests) := s.peer.handle command kvList
  { s with peer := peer, tasks := s.tasks ++ requests.map fun request => ⟨request, none⟩ }

/-- The backend takes a request. A search is never refused. -/
def take (request : ProfileRequest) (code : WebErrorCode) : Backend × Reply :=
  match request, code with
  | .profiles _, _ => (s.backend, ⟨.success, s.backend.profiles⟩)
  | .createProfile _ uniquenick _, .success =>
      (s.backend.create uniquenick, ⟨.success, [s.backend.newProfile uniquenick]⟩)
  | .deleteProfile profileid _, .success => (s.backend.delete profileid, ⟨.success, []⟩)
  | _, code => (s.backend, ⟨code, []⟩)

/-- The backend takes the `n`th request, unless it has already. -/
def apply (n : Nat) (code : WebErrorCode) : CacheSystem :=
  match s.tasks[n]? with
  | some ⟨request, none⟩ =>
      { s with
        backend := (s.take request code).1
        tasks := s.tasks.set n ⟨request, some (s.take request code).2⟩ }
  | _ => s

/-- The reply to the `n`th request is delivered. -/
def deliver (n : Nat) : CacheSystem :=
  match s.tasks[n]? with
  | some ⟨request, some reply⟩ =>
      { s with
        peer := s.peer.callback request reply.code reply.results
        tasks := s.tasks.eraseIdx n }
  | _ => s

/-- What an event does. -/
def step : CacheEvent → CacheSystem
  | .login => s.login
  | .request command kvList => s.request command kvList
  | .apply n code => s.apply n code
  | .deliver n => s.deliver n

/-- A user has logged in, and its search is on its way. -/
def start (userId : Int) (sessionKey : Bytes) (profile : Profile) (backend : Backend) :
    CacheSystem :=
  (⟨Peer.init userId sessionKey profile, backend, []⟩ : CacheSystem).login

/-- Every reply has been delivered. -/
def Quiet : Prop :=
  s.tasks = []

instance : Decidable s.Quiet := by
  unfold Quiet; infer_instance

/-- The copy is what the backend has, each profile once, and what `loginToSubAccount` finds is
there. -/
def Follows : Prop :=
  s.peer.profiles.Perm s.backend.profiles ∧
  ∀ uniquenick profile, s.peer.findProfile uniquenick = some profile →
    profile ∈ s.backend.profiles

/-- The profiles whose creation has not been answered. -/
def created : List Profile :=
  s.tasks.filterMap Task.created

/-- The ids whose deletion is under way. -/
def deleting : List Int :=
  s.tasks.filterMap Task.deleting

/-- The ids whose deletion has been applied but not answered. -/
def deleted : List Int :=
  s.tasks.filterMap Task.deleted

/-- What the searches on their way back have found. -/
def found : List (List Profile) :=
  s.tasks.filterMap Task.found

/-- A search reply crosses no edit. A profile whose creation is not answered yet is not in it,
but in the backend, or its deletion is not answered either; one that is missing has its creation
unanswered, one that is gone its deletion. -/
structure Clean (results : List Profile) : Prop where
  created : ∀ profile ∈ s.created, (∀ other ∈ results, other.id ≠ profile.id) ∧
    (profile ∈ s.backend.profiles ∨ profile.id ∈ s.deleted)
  missing : ∀ profile ∈ s.backend.profiles, profile ∈ results ∨ profile ∈ s.created
  gone : ∀ profile ∈ results, profile ∈ s.backend.profiles ∨ profile.id ∈ s.deleted

/-- What the search reply that an event delivers has found. -/
def searchReply : CacheEvent → Option (List Profile)
  | .deliver n => s.tasks[n]?.bind Task.found
  | _ => none

/-- The id whose deletion an event answers. -/
def deletionReply : CacheEvent → Option Int
  | .deliver n => s.tasks[n]?.bind Task.deleted
  | _ => none

/-- An event delivers no search reply, and no reply to a deletion before that to the creation of the
profile. -/
def InOrder (event : CacheEvent) : Prop :=
  s.searchReply event = none ∧
    ∀ profileid ∈ s.deletionReply event, ∀ profile ∈ s.created, profile.id ≠ profileid

instance (event : CacheEvent) : Decidable (s.InOrder event) :=
  inferInstanceAs (Decidable (_ ∧ _))

end CacheSystem

/-- The search reply that a run delivers last crosses no edit, and what is created and deleted
behind it is answered in this order. -/
def LastSearchClean (start : CacheSystem) (run : List CacheEvent) : Prop :=
  ∃ before event more results, run = before ++ event :: more ∧
    (after CacheSystem.step start before).searchReply event = some results ∧
    (after CacheSystem.step start before).Clean results ∧
    AtEach CacheSystem.step ((after CacheSystem.step start before).step event)
      CacheSystem.InOrder more

namespace CacheSystem

variable {s s' : CacheSystem}

/-- What an event other than a search reply does to the copy, the backend and the replies on
their way, with the id whose deletion it answers. -/
inductive Edit (s s' : CacheSystem) (answered : Option Int) : Prop
  | keeps (hcopy : s'.peer.profiles = s.peer.profiles) (hbackend : s'.backend = s.backend)
      (hcreated : s'.created.Perm s.created) (hdeleted : s'.deleted.Perm s.deleted)
  | creates (uniquenick : Bytes) (hcopy : s'.peer.profiles = s.peer.profiles)
      (hbackend : s'.backend = s.backend.create uniquenick)
      (hcreated : s'.created.Perm (s.backend.newProfile uniquenick :: s.created))
      (hdeleted : s'.deleted.Perm s.deleted)
  | deletes (profileid : Int) (hdeleting : profileid ∈ s.deleting)
      (hcopy : s'.peer.profiles = s.peer.profiles)
      (hbackend : s'.backend = s.backend.delete profileid)
      (hcreated : s'.created.Perm s.created) (hdeleted : s'.deleted.Perm (profileid :: s.deleted))
  | learns (profile : Profile) (hcopy : s'.peer.profiles = s.peer.profiles ++ [profile])
      (hbackend : s'.backend = s.backend) (hcreated : s.created.Perm (profile :: s'.created))
      (hdeleted : s'.deleted.Perm s.deleted)
  | erases (profileid : Int) (hanswered : answered = some profileid)
      (hcopy : s'.peer.profiles = s.peer.profiles.eraseP fun profile => profile.id == profileid)
      (hbackend : s'.backend = s.backend) (hcreated : s'.created.Perm s.created)
      (hdeleted : s.deleted.Perm (profileid :: s'.deleted))

/-- What a search reply does. -/
structure Replaced (s s' : CacheSystem) (results : List Profile) : Prop where
  mem : results ∈ s.found
  copy : s'.peer.profiles = results
  backend : s'.backend = s.backend
  created : s'.created.Perm s.created
  deleted : s'.deleted.Perm s.deleted

/-- Deletions are asked for from the copy, and searches find what the backend has. -/
structure Traffic (s s' : CacheSystem) : Prop where
  deleting : ∀ profileid ∈ s'.deleting,
    profileid ∈ s.deleting ∨ ∃ profile ∈ s.peer.profiles, profile.id = profileid
  found : ∀ results ∈ s'.found, results ∈ s.found ∨ results = s.backend.profiles

/-- What holds of every system: ids are not used again. -/
structure Sound (s : CacheSystem) : Prop where
  copy : ∀ profile ∈ s.peer.profiles, profile.id < s.backend.nextId
  created : ∀ profile ∈ s.created, profile.id < s.backend.nextId
  distinct : (s.created.map Profile.id).Nodup
  deleting : ∀ profileid ∈ s.deleting, profileid < s.backend.nextId
  deleted : ∀ profileid ∈ s.deleted, ∀ profile ∈ s.backend.profiles, profile.id ≠ profileid
  deletedBelow : ∀ profileid ∈ s.deleted, profileid < s.backend.nextId
  found : ∀ results ∈ s.found,
    (results.map Profile.id).Nodup ∧ ∀ profile ∈ results, profile.id < s.backend.nextId

/-- With the replies on their way the copy is what the backend has. -/
structure Tracks (s : CacheSystem) : Prop where
  distinct : (s.peer.profiles.map Profile.id).Nodup
  created : ∀ profile ∈ s.created, (∀ other ∈ s.peer.profiles, other.id ≠ profile.id) ∧
    (profile ∈ s.backend.profiles ∨ profile.id ∈ s.deleted)
  missing : ∀ profile ∈ s.backend.profiles, profile ∈ s.peer.profiles ∨ profile ∈ s.created
  gone : ∀ profile ∈ s.peer.profiles, profile ∈ s.backend.profiles ∨ profile.id ∈ s.deleted

section Edit

variable {answered : Option Int}

/-- Ids that are below the next one stay so. -/
theorem Edit.next_id_le (h : Edit s s' answered) : s.backend.nextId ≤ s'.backend.nextId := by
  cases h with
  | creates _ _ hbackend => rw [hbackend]; exact (Int.lt_succ _).le
  | deletes _ _ _ hbackend => rw [hbackend]; exact le_refl _
  | keeps _ hbackend | learns _ _ hbackend | erases _ _ _ hbackend => rw [hbackend]

theorem Sound.traffic (h : s.Sound) (htraffic : Traffic s s')
    (hle : s.backend.nextId ≤ s'.backend.nextId) :
    (∀ profileid ∈ s'.deleting, profileid < s'.backend.nextId) ∧
      ∀ results ∈ s'.found, (results.map Profile.id).Nodup ∧
        ∀ profile ∈ results, profile.id < s'.backend.nextId := by
  constructor
  · intro profileid hmem
    rcases htraffic.deleting profileid hmem with hmem | ⟨profile, hprofile, rfl⟩
    · exact (h.deleting profileid hmem).trans_le hle
    · exact (h.copy profile hprofile).trans_le hle
  · intro results hmem
    rcases htraffic.found results hmem with hmem | rfl
    · obtain ⟨hdistinct, hbelow⟩ := h.found results hmem
      exact ⟨hdistinct, fun profile hmem => (hbelow profile hmem).trans_le hle⟩
    · exact ⟨s.backend.distinct, fun profile hmem => (s.backend.below profile hmem).trans_le hle⟩

theorem Sound.edit (h : s.Sound) (hedit : Edit s s' answered) (htraffic : Traffic s s') :
    s'.Sound := by
  have hle := hedit.next_id_le
  obtain ⟨hdeleting, hfound⟩ := h.traffic htraffic hle
  cases hedit with
  | keeps hcopy hbackend hcreated hdeleted =>
      refine ⟨?_, ?_, ?_, hdeleting, ?_, ?_, hfound⟩
      · rw [hcopy, hbackend]
        exact h.copy
      · rw [hbackend]
        exact fun profile hmem => h.created profile (hcreated.mem_iff.mp hmem)
      · exact (hcreated.map _).nodup_iff.mpr h.distinct
      · rw [hbackend]
        exact fun profileid hmem => h.deleted profileid (hdeleted.mem_iff.mp hmem)
      · rw [hbackend]
        exact fun profileid hmem => h.deletedBelow profileid (hdeleted.mem_iff.mp hmem)
  | creates uniquenick hcopy hbackend hcreated hdeleted =>
      have hnext : s'.backend.nextId = s.backend.nextId + 1 := by rw [hbackend]; rfl
      have hbelow : ∀ id : Int, id < s.backend.nextId → id < s'.backend.nextId :=
        fun id hlt => hlt.trans_le hle
      refine ⟨?_, ?_, ?_, hdeleting, ?_, ?_, hfound⟩
      · rw [hcopy]
        exact fun profile hmem => hbelow _ (h.copy profile hmem)
      · intro profile hmem
        rcases List.mem_cons.mp (hcreated.mem_iff.mp hmem) with rfl | hmem
        · rw [hnext]
          exact Int.lt_succ _
        · exact hbelow _ (h.created profile hmem)
      · refine (hcreated.map _).nodup_iff.mpr (List.nodup_cons.mpr ⟨fun hmem => ?_, h.distinct⟩)
        obtain ⟨profile, hprofile, heq⟩ := List.mem_map.mp hmem
        exact absurd heq (h.created profile hprofile).ne
      · intro profileid hmem profile hprofile
        have hdel := hdeleted.mem_iff.mp hmem
        rw [hbackend] at hprofile
        rcases List.mem_append.mp hprofile with hprofile | hprofile
        · exact h.deleted profileid hdel profile hprofile
        · rw [List.mem_singleton.mp hprofile]
          exact (h.deletedBelow profileid hdel).ne'
      · exact fun profileid hmem => hbelow _ (h.deletedBelow profileid (hdeleted.mem_iff.mp hmem))
  | deletes profileid hmem hcopy hbackend hcreated hdeleted =>
      have hnext : s'.backend.nextId = s.backend.nextId := by rw [hbackend]; rfl
      refine ⟨?_, ?_, ?_, hdeleting, ?_, ?_, hfound⟩
      · rw [hcopy, hnext]
        exact h.copy
      · rw [hnext]
        exact fun profile hmem => h.created profile (hcreated.mem_iff.mp hmem)
      · exact (hcreated.map _).nodup_iff.mpr h.distinct
      · intro id hid profile hprofile
        rw [hbackend] at hprofile
        obtain ⟨hprofile, hne⟩ := List.mem_filter.mp hprofile
        rcases List.mem_cons.mp (hdeleted.mem_iff.mp hid) with rfl | hid
        · exact of_decide_eq_true hne
        · exact h.deleted id hid profile hprofile
      · intro id hid
        rw [hnext]
        rcases List.mem_cons.mp (hdeleted.mem_iff.mp hid) with rfl | hid
        · exact h.deleting id hmem
        · exact h.deletedBelow id hid
  | learns profile hcopy hbackend hcreated hdeleted =>
      have hmem : ∀ other ∈ profile :: s'.created, other ∈ s.created :=
        fun other hmem => hcreated.mem_iff.mpr hmem
      refine ⟨?_, ?_, ?_, hdeleting, ?_, ?_, hfound⟩
      · rw [hcopy, hbackend]
        intro other hother
        rcases List.mem_append.mp hother with hother | hother
        · exact h.copy other hother
        · rw [List.mem_singleton.mp hother]
          exact h.created profile (hmem profile (List.mem_cons_self ..))
      · rw [hbackend]
        exact fun other hother => h.created other (hmem other (List.mem_cons_of_mem _ hother))
      · exact (List.nodup_cons.mp ((hcreated.map _).nodup_iff.mp h.distinct)).2
      · rw [hbackend]
        exact fun profileid hmem => h.deleted profileid (hdeleted.mem_iff.mp hmem)
      · rw [hbackend]
        exact fun profileid hmem => h.deletedBelow profileid (hdeleted.mem_iff.mp hmem)
  | erases profileid hanswered hcopy hbackend hcreated hdeleted =>
      have hmem : ∀ id ∈ s'.deleted, id ∈ s.deleted :=
        fun id hid => hdeleted.mem_iff.mpr (List.mem_cons_of_mem _ hid)
      refine ⟨?_, ?_, ?_, hdeleting, ?_, ?_, hfound⟩
      · rw [hcopy, hbackend]
        exact fun profile hprofile => h.copy profile (List.mem_of_mem_eraseP hprofile)
      · rw [hbackend]
        exact fun profile hmem => h.created profile (hcreated.mem_iff.mp hmem)
      · exact (hcreated.map _).nodup_iff.mpr h.distinct
      · rw [hbackend]
        exact fun id hid => h.deleted id (hmem id hid)
      · rw [hbackend]
        exact fun id hid => h.deletedBelow id (hmem id hid)

theorem Sound.replaced {results : List Profile} (h : s.Sound) (hreplaced : Replaced s s' results)
    (htraffic : Traffic s s') : s'.Sound := by
  have hbackend := hreplaced.backend
  obtain ⟨hdeleting, hfound⟩ := h.traffic htraffic (hbackend ▸ le_refl _)
  refine ⟨?_, ?_, ?_, hdeleting, ?_, ?_, hfound⟩
  · rw [hreplaced.copy, hbackend]
    exact (h.found results hreplaced.mem).2
  · rw [hbackend]
    exact fun profile hmem => h.created profile (hreplaced.created.mem_iff.mp hmem)
  · exact (hreplaced.created.map _).nodup_iff.mpr h.distinct
  · rw [hbackend]
    exact fun profileid hmem => h.deleted profileid (hreplaced.deleted.mem_iff.mp hmem)
  · rw [hbackend]
    exact fun profileid hmem => h.deletedBelow profileid (hreplaced.deleted.mem_iff.mp hmem)

/-- Of profiles with different ids the one that is erased was the only one with its id. -/
theorem id_ne_of_mem_erase {profiles : List Profile} {profileid : Int} {profile : Profile}
    (hdistinct : (profiles.map Profile.id).Nodup)
    (h : profile ∈ profiles.eraseP fun profile => profile.id == profileid) :
    profile.id ≠ profileid := by
  induction profiles with
  | nil => cases h
  | cons first rest ih =>
      obtain ⟨hfirst, hrest⟩ := List.nodup_cons.mp hdistinct
      by_cases hid : first.id = profileid
      · rw [List.eraseP_cons_of_pos (by simpa using hid)] at h
        exact fun heq => hfirst (List.mem_map.mpr ⟨profile, h, heq.trans hid.symm⟩)
      · rw [List.eraseP_cons_of_neg (by simpa using hid)] at h
        rcases List.mem_cons.mp h with rfl | h
        · exact hid
        · exact ih hrest h

theorem Tracks.edit (h : s.Tracks) (hsound : s.Sound) (hedit : Edit s s' answered)
    (horder : ∀ profileid ∈ answered, ∀ profile ∈ s.created, profile.id ≠ profileid) :
    s'.Tracks := by
  cases hedit with
  | keeps hcopy hbackend hcreated hdeleted =>
      refine ⟨hcopy ▸ h.distinct, ?_, ?_, ?_⟩
      · intro profile hmem
        rw [hcopy, hbackend]
        obtain ⟨hother, hthere⟩ := h.created profile (hcreated.mem_iff.mp hmem)
        exact ⟨hother, hthere.imp_right hdeleted.mem_iff.mpr⟩
      · rw [hcopy, hbackend]
        exact fun profile hmem => (h.missing profile hmem).imp_right hcreated.mem_iff.mpr
      · rw [hcopy, hbackend]
        exact fun profile hmem => (h.gone profile hmem).imp_right hdeleted.mem_iff.mpr
  | creates uniquenick hcopy hbackend hcreated hdeleted =>
      have hprofiles : s'.backend.profiles =
          s.backend.profiles ++ [s.backend.newProfile uniquenick] := by rw [hbackend]; rfl
      refine ⟨hcopy ▸ h.distinct, ?_, ?_, ?_⟩
      · intro profile hmem
        rw [hcopy, hprofiles]
        rcases List.mem_cons.mp (hcreated.mem_iff.mp hmem) with rfl | hmem
        · exact ⟨fun other hother => (hsound.copy other hother).ne,
            Or.inl (List.mem_append_right _ (List.mem_singleton_self _))⟩
        · obtain ⟨hother, hthere⟩ := h.created profile hmem
          exact ⟨hother, hthere.imp (fun hin => List.mem_append_left _ hin) hdeleted.mem_iff.mpr⟩
      · intro profile hmem
        rw [hprofiles] at hmem
        rw [hcopy]
        rcases List.mem_append.mp hmem with hmem | hmem
        · exact (h.missing profile hmem).imp_right fun hmem =>
            hcreated.mem_iff.mpr (List.mem_cons_of_mem _ hmem)
        · rw [List.mem_singleton.mp hmem]
          exact Or.inr (hcreated.mem_iff.mpr (List.mem_cons_self ..))
      · rw [hcopy, hprofiles]
        exact fun profile hmem => (h.gone profile hmem).imp
          (fun hmem => List.mem_append_left _ hmem) hdeleted.mem_iff.mpr
  | deletes profileid hmem hcopy hbackend hcreated hdeleted =>
      have hprofiles : ∀ profile, profile ∈ s'.backend.profiles ↔
          profile ∈ s.backend.profiles ∧ profile.id ≠ profileid := by
        intro profile
        rw [hbackend]
        exact List.mem_filter.trans (and_congr_right fun _ => decide_eq_true_iff)
      refine ⟨hcopy ▸ h.distinct, ?_, ?_, ?_⟩
      · intro profile hprofile
        obtain ⟨hother, hthere⟩ := h.created profile (hcreated.mem_iff.mp hprofile)
        rw [hcopy]
        refine ⟨hother, ?_⟩
        by_cases hid : profile.id = profileid
        · exact Or.inr (hdeleted.mem_iff.mpr (hid ▸ List.mem_cons_self ..))
        · exact hthere.imp (fun hin => (hprofiles profile).mpr ⟨hin, hid⟩)
            fun hdel => hdeleted.mem_iff.mpr (List.mem_cons_of_mem _ hdel)
      · intro profile hprofile
        rw [hcopy]
        exact (h.missing profile ((hprofiles profile).mp hprofile).1).imp_right hcreated.mem_iff.mpr
      · intro profile hprofile
        rw [hcopy] at hprofile
        by_cases hid : profile.id = profileid
        · exact Or.inr (hdeleted.mem_iff.mpr (hid ▸ List.mem_cons_self ..))
        · exact (h.gone profile hprofile).imp (fun hin => (hprofiles profile).mpr ⟨hin, hid⟩)
            fun hdel => hdeleted.mem_iff.mpr (List.mem_cons_of_mem _ hdel)
  | learns profile hcopy hbackend hcreated hdeleted =>
      have hprofile := h.created profile (hcreated.mem_iff.mpr (List.mem_cons_self ..))
      have hids := (hcreated.map _).nodup_iff.mp hsound.distinct
      refine ⟨?_, ?_, ?_, ?_⟩
      · rw [hcopy, List.map_append, List.nodup_append_comm]
        refine List.nodup_cons.mpr ⟨fun hmem => ?_, h.distinct⟩
        obtain ⟨other, hother, heq⟩ := List.mem_map.mp hmem
        exact hprofile.1 other hother heq
      · intro other hmem
        have hcreated := hcreated.mem_iff.mpr (List.mem_cons_of_mem _ hmem)
        rw [hcopy, hbackend]
        refine ⟨fun known hknown heq => ?_,
          (h.created other hcreated).2.imp_right hdeleted.mem_iff.mpr⟩
        rcases List.mem_append.mp hknown with hknown | hknown
        · exact (h.created other hcreated).1 known hknown heq
        · rw [List.mem_singleton.mp hknown] at heq
          exact (List.nodup_cons.mp hids).1 (List.mem_map.mpr ⟨other, hmem, heq.symm⟩)
      · intro other hmem
        rw [hbackend] at hmem
        rw [hcopy]
        rcases h.missing other hmem with hmem | hmem
        · exact Or.inl (List.mem_append_left _ hmem)
        · rcases List.mem_cons.mp (hcreated.mem_iff.mp hmem) with rfl | hmem
          · exact Or.inl (List.mem_append_right _ (List.mem_singleton_self _))
          · exact Or.inr hmem
      · intro other hmem
        rw [hcopy] at hmem
        rw [hbackend]
        rcases List.mem_append.mp hmem with hmem | hmem
        · exact (h.gone other hmem).imp_right hdeleted.mem_iff.mpr
        · rw [List.mem_singleton.mp hmem]
          exact hprofile.2.imp_right hdeleted.mem_iff.mpr
  | erases profileid hanswered hcopy hbackend hcreated hdeleted =>
      have hsub : ∀ profile ∈ s'.peer.profiles, profile ∈ s.peer.profiles := by
        rw [hcopy]
        exact fun profile hmem => List.mem_of_mem_eraseP hmem
      have hgone := hsound.deleted profileid (hdeleted.mem_iff.mpr (List.mem_cons_self ..))
      refine ⟨?_, ?_, ?_, ?_⟩
      · rw [hcopy]
        exact (List.eraseP_sublist.map _).nodup h.distinct
      · intro profile hmem
        have hmem := hcreated.mem_iff.mp hmem
        rw [hbackend]
        obtain ⟨hother, hthere⟩ := h.created profile hmem
        refine ⟨fun other hin => hother other (hsub other hin), hthere.imp_right fun hdel => ?_⟩
        exact (List.mem_cons.mp (hdeleted.mem_iff.mp hdel)).resolve_left
          (horder profileid hanswered profile hmem)
      · intro profile hmem
        rw [hbackend] at hmem
        rw [hcopy]
        refine (h.missing profile hmem).imp (fun hin => ?_) hcreated.mem_iff.mpr
        exact (List.mem_eraseP_of_neg (by simpa using hgone profile hmem)).mpr hin
      · intro profile hmem
        rw [hbackend]
        refine (h.gone profile (hsub profile hmem)).imp_right fun hdel => ?_
        rw [hcopy] at hmem
        exact (List.mem_cons.mp (hdeleted.mem_iff.mp hdel)).resolve_left
          (id_ne_of_mem_erase h.distinct hmem)

/-- A clean search reply brings the copy into step with the backend, whatever it was. -/
theorem tracks_of_clean {results : List Profile} (hsound : s.Sound) (hclean : s.Clean results)
    (hreplaced : Replaced s s' results) : s'.Tracks := by
  refine ⟨?_, ?_, ?_, ?_⟩
  · rw [hreplaced.copy]
    exact (hsound.found results hreplaced.mem).1
  · intro profile hmem
    obtain ⟨hother, hthere⟩ := hclean.created profile (hreplaced.created.mem_iff.mp hmem)
    rw [hreplaced.copy, hreplaced.backend]
    exact ⟨hother, hthere.imp_right hreplaced.deleted.mem_iff.mpr⟩
  · rw [hreplaced.copy, hreplaced.backend]
    exact fun profile hmem =>
      (hclean.missing profile hmem).imp_right hreplaced.created.mem_iff.mpr
  · rw [hreplaced.copy, hreplaced.backend]
    exact fun profile hmem => (hclean.gone profile hmem).imp_right hreplaced.deleted.mem_iff.mpr

end Edit

section Step

theorem handle_web_error_profiles {peer : Peer} {code : WebErrorCode} {txn : Bytes} {tid : Int} :
    (peer.handleWebError code txn tid).profiles = peer.profiles := by
  unfold Peer.handleWebError
  split <;> rfl

/-- A command leaves the copy alone, and what it asks to have deleted is in there. -/
theorem handle_spec (peer : Peer) (command : Command) (kvList : List (Bytes × Bytes)) :
    (peer.handle command kvList).1.profiles = peer.profiles ∧
      ∀ request ∈ (peer.handle command kvList).2,
        (∃ userId uniquenick tid, request = .createProfile userId uniquenick tid) ∨
        ∃ profile ∈ peer.profiles, ∃ tid, request = .deleteProfile profile.id tid := by
  cases command with
  | getSubAccounts =>
      refine ⟨?_, nofun⟩
      simp only [Peer.handle, Peer.acctGetSubAccounts]
      split <;> rfl
  | nuGetPersonas =>
      refine ⟨?_, nofun⟩
      simp only [Peer.handle, Peer.acctGetPersonas]
      split <;> rfl
  | addSubAccount | nuAddPersona =>
      exact ⟨rfl, fun request hmem => Or.inl ⟨_, _, _, List.mem_singleton.mp hmem⟩⟩
  | disableSubAccount =>
      simp only [Peer.handle, Peer.acctDisableSubAccount]
      cases hfind : peer.findProfile (getValue kvList (ascii "name")) with
      | some profile =>
          exact ⟨rfl, fun request hmem =>
            Or.inr ⟨profile, List.mem_of_find?_eq_some hfind, _, List.mem_singleton.mp hmem⟩⟩
      | none => exact ⟨rfl, nofun⟩
  | loginSubAccount =>
      refine ⟨?_, nofun⟩
      simp only [Peer.handle, Peer.acctLoginSubAccount, Peer.loginToSubAccount]
      split <;> rfl

theorem filter_map_submitted {β : Type} {f : Task → Option β} {tasks : List Task}
    {requests : List ProfileRequest} (h : ∀ request ∈ requests, f ⟨request, none⟩ = none) :
    (tasks ++ requests.map fun request => (⟨request, none⟩ : Task)).filterMap f =
      tasks.filterMap f := by
  have hnone : requests.filterMap (f ∘ fun request => (⟨request, none⟩ : Task)) = [] :=
    List.filterMap_eq_nil_iff.mpr h
  rw [List.filterMap_append, List.filterMap_map, hnone, List.append_nil]

/-- Requests that are new change nothing, where what they delete is in the copy. -/
theorem submitted_spec {peer : Peer} (requests : List ProfileRequest)
    (hprofiles : peer.profiles = s.peer.profiles)
    (hdelete : ∀ profileid tid, .deleteProfile profileid tid ∈ requests →
      ∃ profile ∈ s.peer.profiles, profile.id = profileid)
    (hs : s' = { s with
      peer := peer, tasks := s.tasks ++ requests.map fun request => ⟨request, none⟩ }) :
    Edit s s' none ∧ Traffic s s' := by
  subst hs
  have hcreated : ∀ request ∈ requests, Task.created ⟨request, none⟩ = none :=
    fun request _ => by cases request <;> rfl
  have hdeleted : ∀ request ∈ requests, Task.deleted ⟨request, none⟩ = none :=
    fun request _ => by cases request <;> rfl
  have hfound : ∀ request ∈ requests, Task.found ⟨request, none⟩ = none :=
    fun request _ => by cases request <;> rfl
  refine ⟨.keeps hprofiles rfl (.of_eq (filter_map_submitted hcreated))
    (.of_eq (filter_map_submitted hdeleted)), fun profileid hmem => ?_, fun results hmem => ?_⟩
  · rw [deleting, List.filterMap_append, List.filterMap_map] at hmem
    rcases List.mem_append.mp hmem with hmem | hmem
    · exact Or.inl hmem
    · obtain ⟨request, hrequest, hid⟩ := List.mem_filterMap.mp hmem
      cases request with
      | profiles _ => cases hid
      | createProfile _ _ _ => cases hid
      | deleteProfile id tid =>
          cases hid
          exact Or.inr (hdelete profileid tid hrequest)
  · rw [found, filter_map_submitted hfound] at hmem
    exact Or.inl hmem

section Lists

variable {β : Type} {f : Task → Option β} {tasks : List Task} {n : Nat} {task new : Task}
  {value : β}

theorem filter_map_erase (h : tasks[n]? = some task) :
    (tasks.filterMap f).Perm ((f task).toList ++ (tasks.eraseIdx n).filterMap f) := by
  obtain ⟨hlt, rfl⟩ := List.getElem?_eq_some_iff.mp h
  have hperm := (List.getElem_cons_eraseIdx_perm hlt).symm.filterMap f
  rw [List.filterMap_cons] at hperm
  cases hf : f tasks[n] with
  | none => simpa [hf] using hperm
  | some value => simpa [hf] using hperm

theorem filter_map_set (h : tasks[n]? = some task) :
    ((tasks.set n new).filterMap f).Perm ((f new).toList ++ (tasks.eraseIdx n).filterMap f) := by
  obtain ⟨hlt, -⟩ := List.getElem?_eq_some_iff.mp h
  have hperm := (List.set_perm_cons_eraseIdx hlt new).filterMap f
  rw [List.filterMap_cons] at hperm
  cases hf : f new with
  | none => simpa [hf] using hperm
  | some value => simpa [hf] using hperm

theorem filter_map_erase_none (h : tasks[n]? = some task) (hf : f task = none) :
    ((tasks.eraseIdx n).filterMap f).Perm (tasks.filterMap f) := by
  simpa [hf] using (filter_map_erase (f := f) h).symm

theorem filter_map_erase_some (h : tasks[n]? = some task) (hf : f task = some value) :
    (tasks.filterMap f).Perm (value :: (tasks.eraseIdx n).filterMap f) := by
  simpa [hf] using filter_map_erase (f := f) h

theorem filter_map_set_same (h : tasks[n]? = some task) (hf : f new = f task) :
    ((tasks.set n new).filterMap f).Perm (tasks.filterMap f) := by
  refine (filter_map_set h).trans ?_
  rw [hf]
  exact (filter_map_erase h).symm

theorem filter_map_set_some (h : tasks[n]? = some task) (htask : f task = none)
    (hnew : f new = some value) :
    ((tasks.set n new).filterMap f).Perm (value :: tasks.filterMap f) := by
  refine (filter_map_set h).trans ?_
  rw [hnew]
  exact (filter_map_erase_none h htask).cons value

end Lists

theorem Traffic.of_perm (hdeleting : s'.deleting.Perm s.deleting)
    (hfound : s'.found.Perm s.found) : Traffic s s' :=
  ⟨fun _ hmem => Or.inl (hdeleting.mem_iff.mp hmem), fun _ hmem => Or.inl (hfound.mem_iff.mp hmem)⟩

theorem Traffic.of_found (hdeleting : s'.deleting.Perm s.deleting)
    (hfound : s'.found.Perm (s.backend.profiles :: s.found)) : Traffic s s' :=
  ⟨fun _ hmem => Or.inl (hdeleting.mem_iff.mp hmem),
    fun _ hmem => (List.mem_cons.mp (hfound.mem_iff.mp hmem)).symm⟩

theorem unchanged_spec {answered : Option Int} : Edit s s answered ∧ Traffic s s :=
  ⟨.keeps rfl rfl (.refl _) (.refl _), .of_perm (.refl _) (.refl _)⟩

/-- A refusal changes nothing. -/
theorem take_refused {request : ProfileRequest} {code : WebErrorCode} (hcode : code ≠ .success)
    (hsearch : ∀ userId, request ≠ .profiles userId) :
    s.take request code = (s.backend, ⟨code, []⟩) := by
  cases request with
  | profiles userId => exact absurd rfl (hsearch userId)
  | createProfile _ _ _ => cases code <;> first | rfl | exact absurd rfl hcode
  | deleteProfile _ _ => cases code <;> first | rfl | exact absurd rfl hcode

/-- What the backend does with a request. -/
theorem apply_spec (n : Nat) (code : WebErrorCode) :
    Edit s (s.apply n code) none ∧ Traffic s (s.apply n code) := by
  unfold apply
  split
  · next request htask =>
      cases request with
      | profiles userId =>
          exact ⟨.keeps rfl rfl (filter_map_set_same htask rfl) (filter_map_set_same htask rfl),
            .of_found (filter_map_set_same htask rfl) (filter_map_set_some htask rfl rfl)⟩
      | createProfile userId uniquenick tid =>
          by_cases hcode : code = .success
          · subst hcode
            exact ⟨.creates uniquenick rfl rfl (filter_map_set_some htask rfl rfl)
              (filter_map_set_same htask rfl),
              .of_perm (filter_map_set_same htask rfl) (filter_map_set_same htask rfl)⟩
          · rw [take_refused hcode (by simp)]
            have hcreated : Task.created ⟨.createProfile userId uniquenick tid, some ⟨code, []⟩⟩ =
                none := by cases code <;> rfl
            exact ⟨.keeps rfl rfl (filter_map_set_same htask hcreated)
              (filter_map_set_same htask rfl),
              .of_perm (filter_map_set_same htask rfl) (filter_map_set_same htask rfl)⟩
      | deleteProfile profileid tid =>
          by_cases hcode : code = .success
          · subst hcode
            refine ⟨.deletes profileid ?_ rfl rfl (filter_map_set_same htask rfl)
              (filter_map_set_some htask rfl rfl),
              .of_perm (filter_map_set_same htask rfl) (filter_map_set_same htask rfl)⟩
            exact List.mem_filterMap.mpr ⟨_, List.mem_of_getElem? htask, rfl⟩
          · rw [take_refused hcode (by simp)]
            have hdeleted : Task.deleted ⟨.deleteProfile profileid tid, some ⟨code, []⟩⟩ =
                none := by cases code <;> first | rfl | exact absurd rfl hcode
            exact ⟨.keeps rfl rfl (filter_map_set_same htask rfl)
              (filter_map_set_same htask hdeleted),
              .of_perm (filter_map_set_same htask rfl) (filter_map_set_same htask rfl)⟩
  · exact unchanged_spec

/-- What a reply leaves behind is on its way as before. -/
theorem traffic_of_erased {n : Nat} (hs : s'.tasks = s.tasks.eraseIdx n) : Traffic s s' := by
  have hsub : ∀ {β : Type} (f : Task → Option β) (value : β),
      value ∈ s'.tasks.filterMap f → value ∈ s.tasks.filterMap f := by
    intro β f value hmem
    obtain ⟨task, htask, hf⟩ := List.mem_filterMap.mp hmem
    exact List.mem_filterMap.mpr ⟨task, List.mem_of_mem_eraseIdx (hs ▸ htask), hf⟩
  exact ⟨fun _ hmem => Or.inl (hsub _ _ hmem), fun _ hmem => Or.inl (hsub _ _ hmem)⟩

/-- What the reply to an edit does when it is delivered. -/
theorem deliver_spec {n : Nat} (h : s.searchReply (.deliver n) = none) :
    Edit s (s.deliver n) (s.deletionReply (.deliver n)) ∧ Traffic s (s.deliver n) := by
  unfold deliver
  split
  · next request reply htask =>
      refine ⟨?_, traffic_of_erased rfl⟩
      obtain ⟨code, results⟩ := reply
      cases request with
      | profiles userId => simp [searchReply, htask, Task.found] at h
      | createProfile userId uniquenick tid =>
          simp only [Peer.callback, Peer.createProfileCallback]
          split
          · next profile rest =>
              exact .learns profile rfl rfl (filter_map_erase_some htask rfl)
                (filter_map_erase_none htask rfl)
          · next hne =>
              have hcreated : Task.created ⟨.createProfile userId uniquenick tid,
                  some ⟨code, results⟩⟩ = none := by
                unfold Task.created
                split
                · next heq => cases heq; exact absurd rfl (hne _ _ rfl)
                · rfl
              exact .keeps handle_web_error_profiles rfl (filter_map_erase_none htask hcreated)
                (filter_map_erase_none htask rfl)
      | deleteProfile profileid tid =>
          simp only [Peer.callback, Peer.deleteProfileCallback]
          split
          · next hcode =>
              subst hcode
              have hanswered : s.deletionReply (.deliver n) = some profileid := by
                rw [deletionReply, htask]
                rfl
              exact .erases profileid hanswered rfl rfl (filter_map_erase_none htask rfl)
                (filter_map_erase_some htask rfl)
          · next hcode =>
              have hdeleted : Task.deleted ⟨.deleteProfile profileid tid, some ⟨code, results⟩⟩ =
                  none := by cases code <;> first | rfl | exact absurd rfl hcode
              exact .keeps rfl rfl (filter_map_erase_none htask rfl)
                (filter_map_erase_none htask hdeleted)
  · exact unchanged_spec

theorem send_pending_profiles {peer : Peer} : peer.sendPending.profiles = peer.profiles := by
  obtain ⟨_, _, _, _, subs, personas, _, _, _, _⟩ := peer
  cases subs <;> cases personas <;> rfl

/-- What a search reply does when it is delivered. -/
theorem deliver_search {n : Nat} {results : List Profile}
    (h : s.searchReply (.deliver n) = some results) :
    Replaced s (s.deliver n) results ∧ Traffic s (s.deliver n) := by
  obtain ⟨⟨request, reply⟩, htask, hfound⟩ := Option.bind_eq_some_iff.mp h
  cases request with
  | createProfile _ _ _ => cases hfound
  | deleteProfile _ _ => cases hfound
  | profiles userId =>
      cases reply with
      | none => cases hfound
      | some reply =>
          cases hfound
          have hdeliver : s.deliver n = { s with
              peer := s.peer.searchCallback reply.results, tasks := s.tasks.eraseIdx n } := by
            simp only [deliver, htask, Peer.callback]
          rw [hdeliver]
          refine ⟨⟨?_, send_pending_profiles, rfl, filter_map_erase_none htask rfl,
            filter_map_erase_none htask rfl⟩, traffic_of_erased rfl⟩
          exact List.mem_filterMap.mpr ⟨_, List.mem_of_getElem? htask, rfl⟩

/-- What an event that delivers no search reply does. -/
theorem step_spec {event : CacheEvent} (h : s.searchReply event = none) :
    Edit s (s.step event) (s.deletionReply event) ∧ Traffic s (s.step event) := by
  cases event with
  | login => exact submitted_spec [.profiles s.peer.userId] rfl nofun rfl
  | request command kvList =>
      obtain ⟨hprofiles, hrequests⟩ := handle_spec s.peer command kvList
      refine submitted_spec _ hprofiles ?_ rfl
      intro profileid tid hmem
      rcases hrequests _ hmem with ⟨_, _, _, heq⟩ | ⟨profile, hprofile, _, heq⟩
      · cases heq
      · cases heq
        exact ⟨profile, hprofile, rfl⟩
  | apply n code => exact apply_spec n code
  | deliver n => exact deliver_spec h

end Step

section Run

variable {run : List CacheEvent}

theorem sound_step (h : s.Sound) (event : CacheEvent) : (s.step event).Sound := by
  cases hsearch : s.searchReply event with
  | none =>
      obtain ⟨hedit, htraffic⟩ := step_spec hsearch
      exact h.edit hedit htraffic
  | some results =>
      cases event with
      | deliver n =>
          obtain ⟨hreplaced, htraffic⟩ := deliver_search hsearch
          exact h.replaced hreplaced htraffic
      | login | request _ _ | apply _ _ => cases hsearch

/-- Ids are not used again, in no run. -/
theorem sound_after (userId : Int) (sessionKey : Bytes) (profile : Profile) (backend : Backend)
    (run : List CacheEvent) :
    (after step (start userId sessionKey profile backend) run).Sound := by
  refine @invariant _ _ step _ Sound ?_ (fun s event h => sound_step h event) run
  exact ⟨nofun, nofun, List.nodup_nil, nofun, nofun, nofun, nofun⟩

/-- From a clean search reply up to the next one the copy follows the backend. -/
theorem tracks_after (hsound : s.Sound) (htracks : s.Tracks)
    (hrun : AtEach step s InOrder run) :
    (after step s run).Sound ∧ (after step s run).Tracks :=
  @invariant_of_at_each _ _ step s run (fun s => s.Sound ∧ s.Tracks) InOrder ⟨hsound, htracks⟩
    (fun _ event h hevent =>
      ⟨sound_step h.1 event, h.2.edit h.1 (step_spec hevent.1).1 hevent.2⟩) hrun

/-- A copy that tracks the backend is what the backend has when no reply is on its way. -/
theorem Tracks.follows (h : s.Tracks) (hquiet : s.Quiet) : s.Follows := by
  have hcreated : s.created = [] := by rw [CacheSystem.created, hquiet]; rfl
  have hdeleted : s.deleted = [] := by rw [CacheSystem.deleted, hquiet]; rfl
  have hmem : ∀ profile, profile ∈ s.peer.profiles ↔ profile ∈ s.backend.profiles := by
    intro profile
    refine ⟨fun hmem => (h.gone profile hmem).resolve_right ?_,
      fun hmem => (h.missing profile hmem).resolve_right ?_⟩
    · simp [hdeleted]
    · simp [hcreated]
  refine ⟨(List.perm_ext_iff_of_nodup ?_ ?_).mpr hmem, fun uniquenick profile hfind => ?_⟩
  · exact .of_map _ h.distinct
  · exact .of_map _ s.backend.distinct
  · exact (hmem profile).mp (List.mem_of_find?_eq_some hfind)

/-- Once every reply has been delivered the copy is what the backend has, if the search reply
that came last crossed no edit and every creation behind it is answered before the deletion. -/
theorem cache_follows (userId : Int) (sessionKey : Bytes) (profile : Profile) (backend : Backend)
    (run : List CacheEvent)
    (hclean : LastSearchClean (start userId sessionKey profile backend) run)
    (hquiet : (after step (start userId sessionKey profile backend) run).Quiet) :
    (after step (start userId sessionKey profile backend) run).Follows := by
  obtain ⟨before, event, more, results, rfl, hsearch, hreply, hmore⟩ := hclean
  have hsound := sound_after userId sessionKey profile backend before
  cases event with
  | deliver n =>
      have htracks := tracks_of_clean hsound hreply (deliver_search hsearch).1
      rw [after_append] at hquiet ⊢
      exact (tracks_after (sound_step hsound (.deliver n)) htracks hmore).2.follows hquiet
  | login | request _ _ | apply _ _ => cases hsearch

/-- A user without profiles. -/
def noProfiles : Backend :=
  ⟨[], 1, List.nodup_nil, nofun⟩

/-- The list has come, and then a profile is added. -/
def addAfterSearch : List CacheEvent :=
  [.apply 0 .success, .deliver 0, .request .addSubAccount [(ascii "name", ascii "nova")],
    .apply 0 .success, .deliver 0]

theorem cache_follows_add_after_search :
    LastSearchClean (start 9 (ascii "key") ⟨4, ascii "user"⟩ noProfiles) addAfterSearch ∧
    (after step (start 9 (ascii "key") ⟨4, ascii "user"⟩ noProfiles) addAfterSearch).Follows := by
  have hclean :
      LastSearchClean (start 9 (ascii "key") ⟨4, ascii "user"⟩ noProfiles) addAfterSearch :=
    ⟨[.apply 0 .success], .deliver 0, _, [], rfl, by decide, ⟨by decide, by decide, by decide⟩,
      by decide⟩
  exact ⟨hclean, cache_follows _ _ _ _ _ hclean (by decide)⟩

/-- A profile that is created while the search reply is on its way is lost from the copy. -/
theorem search_reply_drops_profile :
    ¬ ∀ (userId : Int) (sessionKey : Bytes) (profile : Profile) (backend : Backend)
      (run : List CacheEvent),
      (after step (start userId sessionKey profile backend) run).Quiet →
      (after step (start userId sessionKey profile backend) run).Follows := by
  intro h
  have hfollows := h 9 (ascii "key") ⟨4, ascii "user"⟩ noProfiles
    [.apply 0 .success, .request .addSubAccount [(ascii "name", ascii "nova")],
      .apply 1 .success, .deliver 1, .deliver 0] (by decide)
  exact absurd hfollows.1 (by decide)

end Run

end CacheSystem

end OpenSpy.FESL
