import OpenSpy.GP.Commands

/-!
# The session of a GP peer

A login reply sets the session key if it brings one, and the profile in any case, and a renewal
reply sets the key for whatever profile the peer has by then. `Peer::Delete` reports the profile
that the peer has. `session_right_iff` says when the key belongs to the profile, and when no
profile that logged in is left behind online.
-/

namespace OpenSpy.GP

open Bytes Runs

/-- `TaskShared::WebErrorCode`, as far as the callbacks tell them apart. -/
inductive WebErrorCode where
  | success | authInvalidCredentials | cannotDeleteLastProfile | nickInvalid | noSuchUser
  | uniqueNickInvalid | backendError
  deriving DecidableEq

/-- The answer of the web service to a login: an error, a refusal without one, or a success with
the parts that came along. The profile has its id and unique nick, the user its id. -/
inductive LoginAnswer where
  | error (responseCode : WebErrorCode)
  | refused
  | success (profile : Option (Int × Bytes)) (user : Option Int) (sessionKey : Bytes)
      (expiresInSecs : UInt32) (serverResponse : Bytes)
  deriving DecidableEq

/-- The arguments of `m_auth_cb`. -/
structure AuthReply where
  success : Bool
  userId : Int
  profileId : Int
  uniquenick : Bytes
  sessionKey : Bytes
  expiresInSecs : UInt32
  responseProof : Bytes
  responseCode : WebErrorCode
  deriving DecidableEq

/-- A reply that has nothing but a code. -/
def AuthReply.failure (responseCode : WebErrorCode) : AuthReply :=
  ⟨false, 0, 0, [], [], 0, [], responseCode⟩

/-- `Perform_Auth_NickEmail_GPHash`, `Perform_Auth_Uniquenick_GPHash`,
`Perform_Auth_PreAuth_Token_GPHash` and `Perform_Auth_LoginTicket_GPHash`. A user without a
profile is not read, and one of them missing is no success. -/
def performAuth (type : LoginType) : LoginAnswer → AuthReply
  | .error responseCode =>
      .failure (if type = .uniquenick ∧ responseCode = .noSuchUser then .uniqueNickInvalid
        else responseCode)
  | .refused => .failure .success
  | .success profile user sessionKey expiresInSecs serverResponse =>
      let user := if profile.isSome then user else none
      { success := user.isSome
        userId := user.getD 0
        profileId := (profile.map Prod.fst).getD 0
        uniquenick := (profile.map Prod.snd).getD []
        sessionKey := sessionKey
        expiresInSecs := expiresInSecs
        responseProof := serverResponse
        responseCode := .success }

/-- The answer to a renewal. -/
inductive SessionAnswer where
  | failure
  | success (sessionKey : Bytes) (expiresInSecs : UInt32)
  deriving DecidableEq

/-- The error of a login that failed. -/
def loginError : WebErrorCode → GPErrorCode
  | .noSuchUser => .loginBadEmail
  | .authInvalidCredentials => .loginBadPassword
  | .nickInvalid => .loginBadProfile
  | .uniqueNickInvalid => .loginBadUniquenick
  | _ => .login

namespace Peer

variable (peer : Peer)

/-- When a session expires that was issued now; the difference is unsigned. -/
def expiresAt (now : Int) (expiresInSecs : UInt32) : Int :=
  now + (expiresInSecs - sessionRenewOffset).toNat

/-- The packet of a login that succeeded. -/
def loginPacket (operationId : Int) (reply : AuthReply) : Bytes :=
  ascii "\\lc\\2\\sesskey\\1\\userid\\" ++ printInt reply.userId ++ ascii "\\profileid\\" ++
    printInt reply.profileId ++
    (if reply.uniquenick.length ≠ 0 then ascii "\\uniquenick\\" ++ reply.uniquenick else []) ++
    (if reply.sessionKey.length ≠ 0 then ascii "\\lt\\" ++ reply.sessionKey else []) ++
    (if reply.responseProof.length ≠ 0 then ascii "\\proof\\" ++ reply.responseProof else []) ++
    ascii "\\id\\" ++ printInt operationId

/-- `Peer::m_auth_cb`. Of `m_user` nothing is modelled. -/
def authCb (operationId : Int) (reply : AuthReply) (now : Int) : Peer :=
  let peer :=
    if reply.sessionKey.length ≠ 0 then { peer with backendSessionKey := reply.sessionKey }
    else peer
  -- the profile is taken over whether the login succeeded or not
  let peer := { peer with profileId := reply.profileId }
  if reply.success then
    (({ peer with sessionExpiresAt := expiresAt now reply.expiresInSecs }.sendPacket
      (loginPacket operationId reply)).addRequest (.buddies reply.profileId)).addRequest
      (.blocks reply.profileId)
  else peer.sendError (loginError reply.responseCode) (ascii "\\id\\" ++ printInt operationId)

/-- `Peer::m_session_renew_callback`. -/
def sessionRenewCallback (answer : SessionAnswer) (now : Int) : Peer :=
  match answer with
  | .failure => peer.sendError .loginExpiredLoginTicket []
  | .success sessionKey expiresInSecs =>
      { peer with
        sessionExpiresAt := expiresAt now expiresInSecs
        backendSessionKey := sessionKey }.sendPacket (ascii "\\lt\\" ++ sessionKey)

/-- `Peer::m_delete_profile_callback`. -/
def deleteProfileCallback (operationId : Int) (responseCode : WebErrorCode) : Peer :=
  match responseCode with
  | .success =>
      (peer.sendPacket (ascii "\\dpr\\1\\id\\" ++ printInt operationId)).delete
  | .cannotDeleteLastProfile => peer.sendError .delprofileLastProfile []
  | _ => peer.sendError .delprofile []

end Peer

/-- The answers that the peer waits for. -/
inductive Answer where
  | login (answer : LoginAnswer)
  | session (answer : SessionAnswer)
  | deleteProfile (responseCode : WebErrorCode)
  deriving DecidableEq

/-- A message comes, time passes, the answer to the request with a number comes, or the peer is
deleted from elsewhere, as when the connection is lost. -/
inductive SessionEvent where
  | command (dataParser : List (Bytes × Bytes))
  | timer (now : Int)
  | reply (number : Nat) (answer : Answer) (now : Int)
  | delete

/-- A peer with the numbers of the requests that were answered, the session keys that were
issued, each with the profile it was issued for, and the profiles that logged in. -/
structure SessionSystem where
  peer : Peer
  answered : List Nat
  issued : List (Bytes × Int)
  loggedIn : List Int

namespace SessionSystem

/-- A new connection. -/
def start (ip : IPv4) (port : UInt16) (now : Int) : SessionSystem :=
  ⟨.init ip port now, [], [], []⟩

variable (s : SessionSystem)

/-- The reply to a login arrives. -/
def loginReply (operationId : Int) (reply : AuthReply) (now : Int) : SessionSystem :=
  { s with
    peer := s.peer.authCb operationId reply now
    issued := if reply.success then (reply.sessionKey, reply.profileId) :: s.issued else s.issued
    loggedIn := if reply.success then reply.profileId :: s.loggedIn else s.loggedIn }

/-- The reply to a renewal arrives, which was asked for a profile. -/
def renewReply (profileid : Int) (answer : SessionAnswer) (now : Int) : SessionSystem :=
  { s with
    peer := s.peer.sessionRenewCallback answer now
    issued :=
      match answer with
      | .failure => s.issued
      | .success sessionKey _ => (sessionKey, profileid) :: s.issued }

/-- The answer to a request arrives. -/
def answer (request : Request) (answer : Answer) (now : Int) : SessionSystem :=
  match request, answer with
  | .login request, .login answer =>
      s.loginReply request.operationId (performAuth request.type answer) now
  | .makeAuthSession profileid, .session answer => s.renewReply profileid answer now
  | .deleteProfile _ operationId, .deleteProfile responseCode =>
      { s with peer := s.peer.deleteProfileCallback operationId responseCode }
  | _, _ => s

/-- The request with a number that waits for its answer. -/
def waiting (number : Nat) : Option Request :=
  if number ∈ s.answered then none else s.peer.requests[number]?

/-- One event. -/
def step : SessionEvent → SessionSystem
  | .command dataParser => { s with peer := s.peer.handlePacket dataParser }
  | .timer now => { s with peer := s.peer.think now }
  | .reply number answer now =>
      match s.waiting number with
      | none => s
      | some request => { s.answer request answer now with answered := number :: s.answered }
  | .delete => { s with peer := s.peer.delete }

/-- Whatever message comes, a handler that needs a login runs with a session key that was issued
for the profile. -/
def KeyBelongs : Prop :=
  ∀ dataParser entry, s.peer.commandRun dataParser = some entry → entry.loginRequired = true →
    (s.peer.backendSessionKey, s.peer.profileId) ∈ s.issued

/-- Every profile that logged in is reported once `Delete` has run, be it now or before. -/
structure OfflineReported : Prop where
  now : ∀ id ∈ s.loggedIn, s.peer.delete.Reported id
  before : s.peer.deleteFlag = true → ∀ id ∈ s.loggedIn, s.peer.Reported id

/-- The session key is for the profile, and whoever logged in goes offline. -/
structure SessionRight : Prop where
  key : s.KeyBelongs
  offline : s.OfflineReported

/-- A session key may be used for a profile: there is none, or it was issued for it. -/
def Fits (sessionKey : Bytes) (profileid : Int) (issued : List (Bytes × Int)) : Prop :=
  sessionKey = [] ∨ (sessionKey, profileid) ∈ issued

/-- Some profiles do not need another report, or are the one that `Delete` will report. -/
def Covered (ids : List Int) (profileid : Int) : Prop :=
  ∀ id ∈ ids, s.peer.Reported id ∨ id = profileid ∧ id ≠ 0

/-- The reply to a login leaves nobody behind. A success finds every other profile that logged
in reported, and a deleted peer with the profile itself reported; it brings a key, or the key
that is there was issued for the profile. A failure finds everybody reported, but for the profile
that it may bring, and no key that was issued for another. -/
def TakesLogin (reply : AuthReply) : Prop :=
  if reply.success then
    s.Covered (reply.profileId :: s.loggedIn) reply.profileId ∧
      (s.peer.deleteFlag = true → s.peer.Reported reply.profileId) ∧
      (reply.sessionKey ≠ [] ∨ Fits s.peer.backendSessionKey reply.profileId s.issued)
  else
    s.Covered s.loggedIn reply.profileId ∧
      if reply.sessionKey ≠ [] then (reply.sessionKey, reply.profileId) ∈ s.issued
      else Fits s.peer.backendSessionKey reply.profileId s.issued

/-- The reply to a renewal finds the profile that it was asked for, or its key was issued for the
profile that is there before. -/
def TakesRenewal (profileid : Int) : SessionAnswer → Prop
  | .failure => True
  | .success sessionKey _ =>
      Fits sessionKey s.peer.profileId ((sessionKey, profileid) :: s.issued)

/-- An answer mixes up nobody. -/
def TakesAnswer : Request → Answer → Prop
  | .login request, .login answer => s.TakesLogin (performAuth request.type answer)
  | .makeAuthSession profileid, .session answer => s.TakesRenewal profileid answer
  | _, _ => True

/-- An event is no reply that mixes up two profiles. -/
def Keeps : SessionEvent → Prop
  | .reply number answer _ =>
      match s.waiting number with
      | none => True
      | some request => s.TakesAnswer request answer
  | _ => True

end SessionSystem

section Delete

variable (peer : Peer)

@[simp] theorem delete_profile_id : peer.delete.profileId = peer.profileId :=
  (delete_quiet peer).profile_id

@[simp] theorem delete_session_key : peer.delete.backendSessionKey = peer.backendSessionKey :=
  (delete_quiet peer).key

/-- `Delete` reports the profile that the peer has. -/
theorem reported_delete {id : Int} :
    peer.delete.Reported id ↔ peer.Reported id ∨ id = peer.profileId ∧ id ≠ 0 := by
  unfold Peer.Reported Peer.delete
  split
  · rename_i hid
    simp only [Peer.addRequest, List.mem_append, List.mem_singleton, Request.updateStatusOf.injEq,
      and_true]
    refine or_congr_right ⟨?_, And.left⟩
    rintro rfl
    exact ⟨rfl, hid⟩
  · rename_i hid
    rw [not_not] at hid
    simp [hid]

/-- An error that ends the session deletes the peer. -/
theorem send_error_fatal {code : GPErrorCode} (hdie : (getErrorDataByCode code).die = true)
    (addonData : Bytes) :
    ∃ packet, peer.sendError code addonData = (peer.sendPacket packet).delete :=
  ⟨_, if_pos hdie⟩

/-- Every error of a login does. -/
theorem login_error_die (responseCode : WebErrorCode) :
    (getErrorDataByCode (loginError responseCode)).die = true := by
  cases responseCode <;> rfl

/-- The session key that a login reply leaves. -/
def keyAfter (peer : Peer) (reply : AuthReply) : Bytes :=
  if reply.sessionKey.length ≠ 0 then reply.sessionKey else peer.backendSessionKey

/-- A login that succeeds sets key and profile and reports nobody. -/
theorem auth_cb_success {reply : AuthReply} (hsuccess : reply.success = true)
    (operationId now : Int) :
    (peer.authCb operationId reply now).profileId = reply.profileId ∧
      (peer.authCb operationId reply now).backendSessionKey = keyAfter peer reply ∧
      (peer.authCb operationId reply now).deleteFlag = peer.deleteFlag ∧
      ∀ id, (peer.authCb operationId reply now).Reported id ↔ peer.Reported id := by
  unfold Peer.authCb keyAfter
  by_cases hnew : reply.sessionKey.length ≠ 0 <;>
    simp [hsuccess, hnew, Peer.addRequest, Peer.sendPacket, Peer.Reported]

/-- One that fails sets them as well, and deletes the peer with the profile that came. -/
theorem auth_cb_failure {reply : AuthReply} (hfailure : reply.success = false)
    (operationId now : Int) :
    (peer.authCb operationId reply now).profileId = reply.profileId ∧
      (peer.authCb operationId reply now).backendSessionKey = keyAfter peer reply ∧
      (peer.authCb operationId reply now).deleteFlag = true ∧
      ∀ id, (peer.authCb operationId reply now).Reported id ↔
        peer.Reported id ∨ id = reply.profileId ∧ id ≠ 0 := by
  obtain ⟨failed, hfailed, hid, hkey, hreported⟩ :
      ∃ failed : Peer, peer.authCb operationId reply now = failed.delete ∧
        failed.profileId = reply.profileId ∧ failed.backendSessionKey = keyAfter peer reply ∧
        ∀ id, failed.Reported id ↔ peer.Reported id := by
    unfold Peer.authCb keyAfter
    rw [hfailure]
    extract_lets named
    obtain ⟨packet, hpacket⟩ := send_error_fatal { named with profileId := reply.profileId }
      (login_error_die reply.responseCode) (ascii "\\id\\" ++ printInt operationId)
    refine ⟨_, hpacket, rfl, ?_, fun id => ?_⟩
    all_goals
      unfold named
      split <;> rfl
  rw [hfailed]
  refine ⟨by simp [hid], by simp [hkey], rfl, fun id => ?_⟩
  rw [reported_delete, hreported, hid]

end Delete

namespace SessionSystem

variable {s : SessionSystem}

/-- A key that a message needs is there exactly if some message could use it. -/
theorem key_belongs_iff :
    s.KeyBelongs ↔ Fits s.peer.backendSessionKey s.peer.profileId s.issued := by
  constructor
  · intro h
    refine or_iff_not_imp_left.mpr fun hkey => ?_
    refine h [(ascii "status", [])] ⟨ascii "status", true, Peer.handleStatus⟩ ?_ rfl
    have hfind : registerCommands.find? (fun entry => entry.name == ascii "status") =
        some ⟨ascii "status", true, Peer.handleStatus⟩ := rfl
    simp [Peer.commandRun, hfind, hkey]
  · intro h dataParser entry hrun hlogin
    refine h.resolve_left fun hkey => ?_
    unfold Peer.commandRun at hrun
    split at hrun
    · cases hrun
    · split_ifs at hrun with hrefused
      cases hrun
      simp [hlogin, hkey] at hrefused

/-- What there is to show of a state. -/
theorem session_right_def :
    s.SessionRight ↔ Fits s.peer.backendSessionKey s.peer.profileId s.issued ∧
      s.Covered s.loggedIn s.peer.profileId ∧
      (s.peer.deleteFlag = true → ∀ id ∈ s.loggedIn, s.peer.Reported id) := by
  constructor
  · intro h
    exact ⟨key_belongs_iff.mp h.key, fun id hid => (reported_delete _).mp (h.offline.now id hid),
      h.offline.before⟩
  · rintro ⟨hkey, hcovered, hbefore⟩
    exact ⟨key_belongs_iff.mpr hkey, fun id hid => (reported_delete _).mpr (hcovered id hid),
      hbefore⟩

/-- Which requests were answered does not matter. -/
theorem right_answered {answered : List Nat} :
    SessionRight { s with answered := answered } ↔ s.SessionRight := by
  rw [session_right_def, session_right_def]
  rfl

/-- What a message or the time does keeps a session right. -/
theorem SessionRight.quiet (h : s.SessionRight) {after : Peer} (hquiet : Quiet s.peer after) :
    SessionRight { s with peer := after } := by
  rw [session_right_def] at h ⊢
  obtain ⟨hkey, hcovered, hbefore⟩ := h
  refine ⟨?_, fun id hid => ?_, fun hdeleted id hid => ?_⟩
  · simpa only [hquiet.key, hquiet.profile_id] using hkey
  · rw [hquiet.profile_id]
    exact (hcovered id hid).imp_left hquiet.reported_mono
  · rcases hquiet.reported hdeleted with hold | hnew
    · exact hquiet.reported_mono (hbefore hold id hid)
    · rcases hcovered id hid with hreported | ⟨rfl, hzero⟩
      · exact hquiet.reported_mono hreported
      · exact hnew hzero

/-- The reply to a login keeps a session right exactly if it mixes up nobody. -/
theorem login_reply_iff (h : s.SessionRight) (operationId : Int) (reply : AuthReply) (now : Int) :
    (s.loginReply operationId reply now).SessionRight ↔ s.TakesLogin reply := by
  obtain ⟨-, -, hbefore⟩ := session_right_def.mp h
  rw [session_right_def]
  unfold loginReply TakesLogin
  cases hsuccess : reply.success with
  | true =>
      obtain ⟨hid, hkey, hflag, hreported⟩ := auth_cb_success s.peer hsuccess operationId now
      simp only [hid, hkey, hflag, hreported, if_true, Covered, List.forall_mem_cons]
      have hfits : Fits (keyAfter s.peer reply) reply.profileId
          ((reply.sessionKey, reply.profileId) :: s.issued) ↔
          reply.sessionKey ≠ [] ∨ Fits s.peer.backendSessionKey reply.profileId s.issued := by
        unfold keyAfter Fits
        by_cases hempty : reply.sessionKey = []
        · by_cases hold : s.peer.backendSessionKey = [] <;> simp [hempty, hold]
        · simp [hempty]
      rw [hfits]
      grind
  | false =>
      obtain ⟨hid, hkey, hflag, hreported⟩ := auth_cb_failure s.peer hsuccess operationId now
      simp only [hid, hkey, hflag, hreported, Bool.false_eq_true, if_false, Covered, forall_const]
      have hfits : Fits (keyAfter s.peer reply) reply.profileId s.issued ↔
          if reply.sessionKey ≠ [] then (reply.sessionKey, reply.profileId) ∈ s.issued
          else Fits s.peer.backendSessionKey reply.profileId s.issued := by
        unfold keyAfter Fits
        by_cases hempty : reply.sessionKey = [] <;> simp [hempty]
      rw [hfits]
      grind

/-- So does the reply to a renewal. -/
theorem renew_reply_iff (h : s.SessionRight) (profileid : Int) (answer : SessionAnswer)
    (now : Int) :
    (s.renewReply profileid answer now).SessionRight ↔ s.TakesRenewal profileid answer := by
  cases answer with
  | failure =>
      exact iff_of_true (h.quiet (send_error_quiet s.peer .loginExpiredLoginTicket [])) trivial
  | success sessionKey expiresInSecs =>
      rw [session_right_def] at h ⊢
      exact and_iff_left h.2

theorem delete_profile_quiet (peer : Peer) (operationId : Int) (responseCode : WebErrorCode) :
    Quiet peer (peer.deleteProfileCallback operationId responseCode) := by
  unfold Peer.deleteProfileCallback
  split
  · have hdelete := delete_quiet
      (peer.sendPacket (ascii "\\dpr\\1\\id\\" ++ printInt operationId))
    exact ⟨hdelete.profile_id, hdelete.key, hdelete.requests, hdelete.reported⟩
  · exact send_error_quiet peer _ _
  · exact send_error_quiet peer _ _

theorem answer_iff (h : s.SessionRight) (request : Request) (answer : Answer) (now : Int) :
    (s.answer request answer now).SessionRight ↔ s.TakesAnswer request answer := by
  cases answer with
  | login answer =>
      cases request with
      | login request => exact login_reply_iff h _ _ now
      | _ => exact iff_of_true h trivial
  | session answer =>
      cases request with
      | makeAuthSession profileid => exact renew_reply_iff h profileid answer now
      | _ => exact iff_of_true h trivial
  | deleteProfile responseCode =>
      cases request with
      | deleteProfile profileid operationId =>
          exact iff_of_true (h.quiet (delete_profile_quiet s.peer operationId responseCode)) trivial
      | _ => exact iff_of_true h trivial

/-- One event keeps a session right exactly if it is no reply that mixes up two profiles. -/
theorem step_right_iff (h : s.SessionRight) (event : SessionEvent) :
    (s.step event).SessionRight ↔ s.Keeps event := by
  cases event with
  | command dataParser =>
      exact iff_of_true (h.quiet (handle_packet_quiet s.peer dataParser)) trivial
  | timer now => exact iff_of_true (h.quiet (think_quiet s.peer now)) trivial
  | delete => exact iff_of_true (h.quiet (delete_quiet s.peer)) trivial
  | reply number answer now =>
      simp only [step, Keeps]
      cases hwaiting : s.waiting number with
      | none => exact iff_of_true h trivial
      | some request => exact right_answered.trans (answer_iff h request answer now)

/-- The session key belongs to the profile and nobody stays online behind a deleted peer all
through a run exactly if no reply of the run mixes up two profiles. -/
theorem session_right_iff (ip : IPv4) (port : UInt16) (now : Int) (run : List SessionEvent) :
    (∀ before, before <+: run → (after step (.start ip port now) before).SessionRight) ↔
      AtEach step (.start ip port now) Keeps run := by
  have hstart : (start ip port now).SessionRight :=
    session_right_def.mpr ⟨.inl rfl, by simp [Covered, start], by simp [start]⟩
  exact @throughout_iff _ _ step _ SessionRight Keeps hstart
    (fun _ event h => step_right_iff h event) run

/-- A login of profile 1, and behind it, before the first was answered, one that fails. -/
def failedSecond : List SessionEvent :=
  let login : List (Bytes × Bytes) :=
    [(ascii "login", []), (ascii "challenge", ascii "c"), (ascii "user", ascii "u@e"),
      (ascii "response", ascii "r"), (ascii "id", ascii "1")]
  [.command login, .command login,
    .reply 0 (.login (.success (some (1, [])) (some 1) (ascii "k") 3600 [])) 0,
    .reply 1 (.login (.error .authInvalidCredentials)) 0]

theorem failed_login_keeps_key :
    ¬ ∀ (ip : IPv4) (port : UInt16) (now : Int) (run : List SessionEvent),
      (after step (.start ip port now) run).SessionRight := by
  intro h
  have hkey := key_belongs_iff.mp (h ⟨127, 0, 0, 1⟩ 5000 0 failedSecond).key
  revert hkey
  unfold Fits
  decide

end SessionSystem

end OpenSpy.GP
