import OpenSpy.Library.Decimal
import OpenSpy.Library.Runs

/-!
# The login of a gamestats peer

`handle_authp` submits a request to the backend, and `m_nick_email_auth_cb` takes its reply.
A reply is taken over if its `lid` is not below the greatest one so far, and a successful reply
in any case, so an older success overwrites the login of a newer one (`older_login_wins`). The
profile id of a failed reply is recorded with the authenticated ones. `login_reflects_iff` says
when neither matters.
-/

namespace OpenSpy.GS

open Bytes Commands Runs

/-- The members of `OS::Profile` that say whose profile it is. -/
structure Profile where
  id : Int
  userid : Int
  nick : Bytes
  uniquenick : Bytes
  namespaceid : Int
  deriving DecidableEq

/-- The constructor of `OS::Profile`. -/
def Profile.default : Profile :=
  ⟨0, 0, [], [], -1⟩

/-- The members of `OS::User` that say who it is. -/
structure User where
  id : Int
  email : Bytes
  partnercode : Int
  deriving DecidableEq

/-- The constructor of `OS::User`. -/
def User.default : User :=
  ⟨0, [], -1⟩

/-- `TaskShared::WebErrorCode`. -/
inductive WebErrorCode where
  | success | authInvalidCredentials | authAccountBanned | authAccountDisabled
  | cannotDeleteLastProfile | nickInUse | nickInvalid | noSuchUser | uniqueNickInUse
  | uniqueNickInvalid | userExists | emailInvalid | emailInUse | badCdKey | cdKeyAlreadyTaken
  | cdKeyAlreadySet | backendError
  deriving DecidableEq

/-- The entries of `gp_error_data` that the handler uses: code and text. -/
inductive GPErrorCode where
  | parse | database | loginBadPassword | loginBadProfile | loginBadUniquenick
  deriving DecidableEq

def GPErrorCode.error : GPErrorCode → Int
  | parse => 1
  | database => 4
  | loginBadPassword => 260
  | loginBadProfile => 261
  | loginBadUniquenick => 265

def GPErrorCode.msg : GPErrorCode → Bytes
  | parse => ascii "Unexpected data was received from the server."
  | database => ascii "There was a database error."
  | loginBadPassword => ascii "The password provided was incorrect."
  | loginBadProfile => ascii "The profile provided was incorrect."
  | loginBadUniquenick => ascii "The uniquenick provided was incorrect."

/-- The code that a failed reply is answered with. -/
def replyErrorCode : WebErrorCode → GPErrorCode
  | .noSuchUser => .loginBadProfile
  | .authInvalidCredentials => .loginBadPassword
  | .uniqueNickInvalid => .loginBadUniquenick
  | _ => .database

/-- The fields of an `authp` command, where the texts may be missing. -/
structure AuthpCommand where
  pid : Int
  lid : Int
  resp : Option Bytes
  keyhash : Option Bytes
  nick : Option Bytes
  authtoken : Option Bytes
  deriving DecidableEq

/-- The requests of `perform_pid_auth`, `perform_cdkey_auth` and `perform_preauth_auth`. -/
inductive AuthRequest where
  | profileID (profileid : Int) (response : Bytes)
  | cdKey (cdkey response nick : Bytes)
  | authTicket (authToken response : Bytes)
  deriving DecidableEq

/-- What the backend makes of a request. -/
inductive Outcome where
  | success (user : User) (profile : Profile)
  | failure (responseCode : WebErrorCode)
  deriving DecidableEq

namespace Outcome

/-- `auth_user` and `auth_profile` of the three tasks, which a failure leaves as they were
constructed. -/
def login : Outcome → User × Profile
  | success user profile => (user, profile)
  | failure _ => (.default, .default)

def isSuccess : Outcome → Bool
  | success _ _ => true
  | failure _ => false

end Outcome

/-- The members of a peer that say who is logged in, and the packets passed to `SendPacket`. -/
structure AuthPeer where
  lastAuthpOperationId : Int
  user : User
  profile : Profile
  authenticatedProfileids : List Int
  deleteFlag : Bool
  sent : List Bytes
  deriving DecidableEq

namespace AuthPeer

/-- The members as the constructor of `Peer` leaves them. -/
def init : AuthPeer :=
  ⟨0, .default, .default, [], false, []⟩

def sendPacket (peer : AuthPeer) (packet : Bytes) : AuthPeer :=
  { peer with sent := peer.sent ++ [packet] }

/-- `Peer::send_error` for the errors that end a session. -/
def sendError (peer : AuthPeer) (code : GPErrorCode) : AuthPeer :=
  { peer.sendPacket (ascii "\\error\\\\err\\" ++ printInt code.error ++ ascii "\\errmsg\\" ++
      code.msg ++ ascii "\\fatal\\1") with deleteFlag := true }

/-- `Peer::handle_authp`, with the request that it submits. -/
def handleAuthp (peer : AuthPeer) (command : AuthpCommand) : AuthPeer × Option AuthRequest :=
  match command.resp with
  | none => (peer.sendError .parse, none)
  | some resp =>
      let peer :=
        if command.lid > peer.lastAuthpOperationId then
          { peer with lastAuthpOperationId := command.lid }
        else peer
      if command.pid ≠ 0 then (peer, some (.profileID command.pid resp))
      else
        match command.keyhash, command.nick, command.authtoken with
        | some keyhash, some nick, _ => (peer, some (.cdKey keyhash resp nick))
        | _, _, some token => (peer, some (.authTicket token resp))
        | _, _, none => (peer.sendError .parse, none)

/-- `Peer::m_nick_email_auth_cb`. The tasks leave the session key of a reply empty. -/
def nickEmailAuthCb (peer : AuthPeer) (operationId : Int) (outcome : Outcome) : AuthPeer :=
  let peer :=
    if operationId ≥ peer.lastAuthpOperationId then
      { peer with user := outcome.login.1, profile := outcome.login.2 }
    else peer
  let peer :=
    { peer with
      -- recorded before `success` is looked at
      authenticatedProfileids := peer.authenticatedProfileids ++ [outcome.login.2.id] }
  match outcome with
  -- a success is assigned again, whatever its `lid` is
  | .success user profile =>
      { peer with profile := profile, user := user }.sendPacket
        (ascii "\\pauthr\\" ++ printInt profile.id ++ ascii "\\lid\\" ++ printInt operationId)
  | .failure code =>
      peer.sendPacket
        (ascii "\\pauthr\\-1\\errmsg\\" ++ (replyErrorCode code).msg ++ ascii "\\lid\\" ++
          printInt operationId)

end AuthPeer

/-- A reply that has arrived, with `m_last_authp_operation_id` when it came. -/
structure AuthReply where
  lid : Int
  outcome : Outcome
  newest : Int
  deriving DecidableEq

/-- The reply is taken over as the login. -/
def AuthReply.sets (reply : AuthReply) : Bool :=
  reply.outcome.isSuccess || decide (reply.newest ≤ reply.lid)

/-- A peer with its requests that are not answered and the replies that have arrived. -/
structure AuthSystem where
  peer : AuthPeer
  pending : List (Int × AuthRequest)
  replies : List AuthReply

/-- An `authp` command comes, or the reply to the request with a `lid` arrives. -/
inductive AuthEvent where
  | authp (command : AuthpCommand)
  | reply (lid : Int) (outcome : Outcome)
  deriving DecidableEq

namespace AuthSystem

/-- A new peer. -/
def init : AuthSystem :=
  ⟨.init, [], []⟩

/-- A request with the `lid` is not answered yet. -/
def Awaits (sys : AuthSystem) (lid : Int) : Prop :=
  lid ∈ sys.pending.map Prod.fst

instance (sys : AuthSystem) (lid : Int) : Decidable (sys.Awaits lid) :=
  inferInstanceAs (Decidable (_ ∈ _))

/-- One event. Only a request that has been submitted is answered. -/
def step (sys : AuthSystem) : AuthEvent → AuthSystem
  | .authp command =>
      let handled := sys.peer.handleAuthp command
      { sys with
        peer := handled.1
        pending := sys.pending ++ (handled.2.map (command.lid, ·)).toList }
  | .reply lid outcome =>
      if sys.Awaits lid then
        { peer := sys.peer.nickEmailAuthCb lid outcome
          pending := sys.pending.eraseP (·.1 = lid)
          replies := sys.replies ++ [⟨lid, outcome, sys.peer.lastAuthpOperationId⟩] }
      else sys

/-- The successful reply with the greatest `lid`. -/
def Newest (sys : AuthSystem) (best : AuthReply) : Prop :=
  best ∈ sys.replies ∧ best.outcome.isSuccess = true ∧
    ∀ other ∈ sys.replies, other.outcome.isSuccess = true → other.lid ≤ best.lid

/-- The recorded profile ids are those of successful replies, and once all replies have arrived
the login is that of the successful one with the greatest `lid`. -/
def LoginReflects (sys : AuthSystem) : Prop :=
  (∀ id ∈ sys.peer.authenticatedProfileids, ∃ reply ∈ sys.replies,
    reply.outcome.isSuccess = true ∧ reply.outcome.login.2.id = id) ∧
  (sys.pending = [] → ∀ best, sys.Newest best →
    (sys.peer.user, sys.peer.profile) = best.outcome.login)

/-- A failed reply comes when there has been a success with the profile id that a failure has,
which is 0. -/
def FailsAfterZero (sys : AuthSystem) (event : AuthEvent) : Prop :=
  ∀ lid code, event = .reply lid (.failure code) → sys.Awaits lid →
    ∃ reply ∈ sys.replies, reply.outcome.isSuccess = true ∧ reply.outcome.login.2.id = 0

/-- Once all replies have arrived, the last one that was taken over is the successful one with
the greatest `lid`, or has the same user and profile. -/
def LastIsNewest (sys : AuthSystem) : Prop :=
  sys.pending = [] → ∀ best, sys.Newest best →
    ∀ before last after, sys.replies = before ++ last :: after → last.sets = true →
      (∀ reply ∈ after, reply.sets = false) → last.outcome.login = best.outcome.login

end AuthSystem

/-- The state that a run of a new peer leads to. -/
abbrev authenticate (run : List AuthEvent) : AuthSystem :=
  after AuthSystem.step .init run

/-- Profile 5 and then profile 6 are authenticated, and the older reply comes last. -/
def olderLast : List AuthEvent :=
  [.authp ⟨5, 1, some [], none, none, none⟩, .authp ⟨6, 2, some [], none, none, none⟩,
    .reply 2 (.success ⟨1, [], -1⟩ ⟨6, 1, [], [], 0⟩),
    .reply 1 (.success ⟨1, [], -1⟩ ⟨5, 1, [], [], 0⟩)]

/-- The older login is the one in use. -/
theorem older_login_wins :
    ¬ ∀ before, before <+: olderLast → (authenticate before).LoginReflects := by
  intro h
  obtain ⟨-, hlogin⟩ := h olderLast (List.prefix_refl _)
  have hreplies : (authenticate olderLast).replies =
      [⟨2, .success ⟨1, [], -1⟩ ⟨6, 1, [], [], 0⟩, 2⟩,
        ⟨1, .success ⟨1, [], -1⟩ ⟨5, 1, [], [], 0⟩, 2⟩] := rfl
  have hnewest : (authenticate olderLast).Newest
      ⟨2, .success ⟨1, [], -1⟩ ⟨6, 1, [], [], 0⟩, 2⟩ := by
    rw [AuthSystem.Newest, hreplies]
    decide
  have hprofile := congrArg (fun login => login.2.id) (hlogin rfl _ hnewest)
  have hfive : (authenticate olderLast).peer.profile.id = 5 := rfl
  rw [hfive] at hprofile
  revert hprofile
  decide

section Login

variable {peer : AuthPeer} {sys : AuthSystem}

/-- A command changes nobody's login. -/
theorem handle_authp_login (peer : AuthPeer) (command : AuthpCommand) :
    (peer.handleAuthp command).1.user = peer.user ∧
      (peer.handleAuthp command).1.profile = peer.profile ∧
        (peer.handleAuthp command).1.authenticatedProfileids = peer.authenticatedProfileids := by
  rw [AuthPeer.handleAuthp]
  split
  · exact ⟨rfl, rfl, rfl⟩
  · split_ifs
    · exact ⟨rfl, rfl, rfl⟩
    · split <;> exact ⟨rfl, rfl, rfl⟩
    · exact ⟨rfl, rfl, rfl⟩
    · split <;> exact ⟨rfl, rfl, rfl⟩

/-- What the callback makes of the login. -/
theorem nick_email_auth_cb_login (peer : AuthPeer) (lid : Int) (outcome : Outcome) :
    ((peer.nickEmailAuthCb lid outcome).user, (peer.nickEmailAuthCb lid outcome).profile) =
      if (AuthReply.mk lid outcome peer.lastAuthpOperationId).sets then outcome.login
      else (peer.user, peer.profile) := by
  cases outcome with
  | success user profile => rfl
  | failure code =>
      by_cases h : peer.lastAuthpOperationId ≤ lid
      · simp [AuthPeer.nickEmailAuthCb, AuthPeer.sendPacket, AuthReply.sets, Outcome.isSuccess, h]
      · simp [AuthPeer.nickEmailAuthCb, AuthPeer.sendPacket, AuthReply.sets, Outcome.isSuccess, h]

/-- The callback records the profile id of every reply. -/
theorem nick_email_auth_cb_ids (peer : AuthPeer) (lid : Int) (outcome : Outcome) :
    (peer.nickEmailAuthCb lid outcome).authenticatedProfileids =
      peer.authenticatedProfileids ++ [outcome.login.2.id] := by
  cases outcome with
  | success user profile =>
      rw [AuthPeer.nickEmailAuthCb]
      split_ifs <;> rfl
  | failure code =>
      rw [AuthPeer.nickEmailAuthCb]
      split_ifs <;> rfl

/-- The login that a list of replies leads to. -/
def loginAfter (replies : List AuthReply) : User × Profile :=
  replies.foldl (fun login reply => if reply.sets then reply.outcome.login else login)
    (.default, .default)

/-- What the replies that have arrived make of the login and of the recorded ids. -/
structure FromReplies (sys : AuthSystem) : Prop where
  login : (sys.peer.user, sys.peer.profile) = loginAfter sys.replies
  ids : sys.peer.authenticatedProfileids = sys.replies.map (·.outcome.login.2.id)

theorem authenticate_from_replies (run : List AuthEvent) : FromReplies (authenticate run) := by
  refine invariant ⟨rfl, rfl⟩ (fun sys event h => ?_) run
  cases event with
  | authp command =>
      obtain ⟨huser, hprofile, hids⟩ := handle_authp_login sys.peer command
      constructor
      · show (_, _) = _
        simp only [AuthSystem.step, huser, hprofile]
        exact h.login
      · simp only [AuthSystem.step, hids]
        exact h.ids
  | reply lid outcome =>
      rw [AuthSystem.step]
      split
      · constructor
        · simp only [loginAfter, List.foldl_append, List.foldl_cons, List.foldl_nil]
          rw [nick_email_auth_cb_login, h.login]
          rfl
        · simp only [nick_email_auth_cb_ids, h.ids, List.map_append, List.map_cons, List.map_nil]
      · exact h

/-- The last reply that is taken over is the login. -/
theorem login_after_last {before after : List AuthReply} {last : AuthReply}
    (hlast : last.sets = true) (hafter : ∀ reply ∈ after, reply.sets = false) :
    loginAfter (before ++ last :: after) = last.outcome.login := by
  have hkept : ∀ login, after.foldl
      (fun login reply => if reply.sets then reply.outcome.login else login) login = login := by
    intro login
    induction after with
    | nil => rfl
    | cons reply rest ih =>
        rw [List.foldl_cons, hafter reply (by simp)]
        exact ih fun other hother => hafter other (.tail _ hother)
  rw [loginAfter, List.foldl_append, List.foldl_cons, if_pos hlast, hkept]

/-- Among replies with a success there is a last one that is taken over. -/
theorem exists_last_sets {replies : List AuthReply} {best : AuthReply} (hmem : best ∈ replies)
    (hsets : best.sets = true) :
    ∃ before last after, replies = before ++ last :: after ∧ last.sets = true ∧
      ∀ reply ∈ after, reply.sets = false := by
  induction replies using List.reverseRecOn with
  | nil => cases hmem
  | append_singleton replies last ih =>
      cases hlast : last.sets with
      | true => exact ⟨replies, last, [], rfl, hlast, by simp⟩
      | false =>
          have hold : best ∈ replies := by
            rcases List.mem_append.mp hmem with hold | hnew
            · exact hold
            · rw [List.mem_singleton.mp hnew, hlast] at hsets
              cases hsets
          obtain ⟨before, first, after, rfl, hfirst, hafter⟩ := ih hold
          refine ⟨before, first, after ++ [last], by simp, hfirst, ?_⟩
          intro reply hreply
          rcases List.mem_append.mp hreply with hin | heq
          · exact hafter reply hin
          · rwa [List.mem_singleton.mp heq]

/-- The login of the successful reply with the greatest `lid` is the one in use exactly if the
last reply that was taken over has it. -/
theorem last_is_newest_iff (h : FromReplies sys) :
    sys.LastIsNewest ↔ (sys.pending = [] → ∀ best, sys.Newest best →
      (sys.peer.user, sys.peer.profile) = best.outcome.login) := by
  refine forall₂_congr fun _ best => ⟨fun hlast hbest => ?_, fun hlogin hbest => ?_⟩
  · have hsets : best.sets = true := by simp [AuthReply.sets, hbest.2.1]
    obtain ⟨before, last, after, heq, hsetsLast, hafter⟩ := exists_last_sets hbest.1 hsets
    rw [h.login, heq, login_after_last hsetsLast hafter]
    exact hlast hbest before last after heq hsetsLast hafter
  · intro before last after heq hsetsLast hafter
    rw [← hlogin hbest, h.login, heq, login_after_last hsetsLast hafter]

/-- Every reply has the profile id of a successful one. -/
theorem success_with_id {run : List AuthEvent} {reply : AuthReply}
    (h : AtEach AuthSystem.step .init AuthSystem.FailsAfterZero run)
    (hmem : reply ∈ (authenticate run).replies) :
    ∃ success ∈ (authenticate run).replies, success.outcome.isSuccess = true ∧
      success.outcome.login.2.id = reply.outcome.login.2.id := by
  induction run using List.reverseRecOn with
  | nil => cases hmem
  | append_singleton run next ih =>
      obtain ⟨hrun, hnext⟩ := at_each_concat.mp h
      rw [authenticate, after_concat] at hmem ⊢
      cases next with
      | authp command => exact ih hrun hmem
      | reply lid outcome =>
          rw [AuthSystem.step] at hmem ⊢
          split at hmem
          · rename_i hawaits
            rw [if_pos hawaits]
            rcases List.mem_append.mp hmem with hold | hnew
            · obtain ⟨success, hsuccess, hrest⟩ := ih hrun hold
              exact ⟨success, List.mem_append_left _ hsuccess, hrest⟩
            · cases outcome with
              | success user profile => exact ⟨reply, hmem, by simp [List.mem_singleton.mp hnew,
                  Outcome.isSuccess], rfl⟩
              | failure code =>
                  -- a failure has the default profile, and the success with id 0 stands for it
                  obtain ⟨success, hsuccess, hkind, hid⟩ := hnext lid code rfl hawaits
                  refine ⟨success, List.mem_append_left _ hsuccess, hkind, ?_⟩
                  rw [hid, List.mem_singleton.mp hnew]
                  rfl
          · rename_i hawaits
            rw [if_neg hawaits]
            exact ih hrun hmem

/-- Only profile ids of successful replies are recorded if and only if failed replies come
behind a success with their id. -/
theorem ids_of_successes_iff (run : List AuthEvent) :
    (∀ before, before <+: run → ∀ id ∈ (authenticate before).peer.authenticatedProfileids,
      ∃ reply ∈ (authenticate before).replies,
        reply.outcome.isSuccess = true ∧ reply.outcome.login.2.id = id) ↔
      AtEach AuthSystem.step .init AuthSystem.FailsAfterZero run := by
  constructor
  · rintro h before next rest rfl lid code rfl hawaits
    have hids := (authenticate_from_replies (before ++ [.reply lid (.failure code)])).ids
    have hreplies : (authenticate (before ++ [.reply lid (.failure code)])).replies =
        (authenticate before).replies ++
          [⟨lid, .failure code, (authenticate before).peer.lastAuthpOperationId⟩] := by
      rw [authenticate, after_concat, AuthSystem.step, if_pos hawaits]
    have hzero : (0 : Int) ∈
        (authenticate (before ++ [.reply lid (.failure code)])).peer.authenticatedProfileids := by
      rw [hids, hreplies, List.map_append]
      exact List.mem_append_right _ (.head _)
    obtain ⟨reply, hmem, hsuccess, hid⟩ := h _ ⟨rest, by simp⟩ 0 hzero
    rw [hreplies] at hmem
    rcases List.mem_append.mp hmem with hold | hnew
    · exact ⟨reply, hold, hsuccess, hid⟩
    · rw [List.mem_singleton.mp hnew] at hsuccess
      cases hsuccess
  · intro h before hbefore id hid
    rw [(authenticate_from_replies before).ids] at hid
    obtain ⟨reply, hmem, rfl⟩ := List.mem_map.mp hid
    exact success_with_id (h.of_prefix hbefore) hmem

end Login

/-- The login reflects the successful replies in every state if and only if a failed reply never
comes before a success with profile id 0, and, whenever all replies have arrived, the last one
that was taken over is the successful one with the greatest `lid` or has its login. -/
theorem login_reflects_iff (run : List AuthEvent) :
    (∀ before, before <+: run → (authenticate before).LoginReflects) ↔
      AtEach AuthSystem.step .init AuthSystem.FailsAfterZero run ∧
        ∀ before, before <+: run → (authenticate before).LastIsNewest := by
  rw [← ids_of_successes_iff, ← forall₂_and]
  refine forall₂_congr fun before _ => and_congr_right fun _ => ?_
  exact (last_is_newest_iff (authenticate_from_replies before)).symm

end OpenSpy.GS
