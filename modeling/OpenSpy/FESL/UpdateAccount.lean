import OpenSpy.FESL.Profiles
import OpenSpy.Library.Runs

/-!
# UpdateAccount

`m_acct_update_account` updates the user, then the profile, each by a request to the backend if it
has changed. What was asked for travels in `UpdateAccountInfo`, and the peer takes it over in the
callback of the profile update only: an update of the email alone succeeds without it, and so does
one whose profile update fails later. `update_account_in_step_iff` says which runs leave the
peer in step with the backend.
-/

namespace OpenSpy.FESL

open Bytes Runs

/-- The members of `OS::User` that are copied or changed. -/
structure AccountUser where
  id : Int
  email : Bytes
  deriving DecidableEq

/-- The members of `OS::Profile` that are copied or changed. -/
structure AccountProfile where
  id : Int
  countrycode : Bytes
  deriving DecidableEq

/-- A peer with `m_user` and `m_account_profile`. -/
structure AccountPeer where
  peer : Peer
  user : AccountUser
  accountProfile : AccountProfile

/-- `UpdateAccountInfo`. -/
structure UpdateAccountInfo where
  profile : AccountProfile
  user : AccountUser
  userUpdate : Bool
  profileUpdate : Bool
  tid : Int
  userResponse : WebErrorCode
  profileResponse : WebErrorCode
  deriving DecidableEq

/-- A request to the backend with its `extra`: of type `EUserRequestType_Update` or
`EProfileSearch_UpdateProfile`. -/
inductive UpdateTask where
  | user (searchParams : AccountUser) (info : UpdateAccountInfo)
  | profile (searchDetails : AccountProfile) (info : UpdateAccountInfo)
  deriving DecidableEq

namespace AccountPeer

variable (s : AccountPeer)

/-- The packet of a success, which has no other lines. -/
def sendUpdated (tid : Option Int) : AccountPeer :=
  { s with
    peer :=
      { s.peer with
        sequenceId := s.peer.sequenceId + 1
        sent := s.peer.sent ++
          [⟨0x80000000 ||| s.peer.sequenceId, ascii "UpdateAccount", tid, []⟩] } }

/-- The packet of an error. -/
def sendUpdateError (code : WebErrorCode) (tid : Int) : AccountPeer :=
  { s with peer := s.peer.handleWebError code (ascii "UpdateAccount") tid }

/-- `Peer::m_acct_update_account`, with the request that it adds. -/
def acctUpdateAccount (kvList : List (Bytes × Bytes)) : AccountPeer × Option UpdateTask :=
  let email := getValue kvList (ascii "email")
  let countryCode := getValue kvList (ascii "countryCode")
  let info : UpdateAccountInfo :=
    { profile := { s.accountProfile with countrycode := countryCode }
      user := { s.user with email := email }
      userUpdate := email != s.user.email
      profileUpdate := countryCode != s.accountProfile.countrycode
      tid := readTid kvList
      -- the constructor of `WebErrorDetails`
      userResponse := .backendError
      profileResponse := .backendError }
  if info.userUpdate then (s, some (.user info.user info))
  else if info.profileUpdate then (s, some (.profile info.profile info))
  else
    (s.sendUpdated (if hasKey kvList (ascii "TID") then some (getValueInt kvList (ascii "TID"))
      else none), none)

/-- `Peer::m_update_user_profile_callback`. -/
def updateUserProfileCallback (info : UpdateAccountInfo) (code : WebErrorCode) : AccountPeer :=
  let info := { info with profileResponse := code }
  if info.profileResponse = .success ∧ (!info.userUpdate ∨ info.userResponse = .success) then
    { s with user := info.user, accountProfile := info.profile }.sendUpdated
      (if info.tid ≠ -1 then some info.tid else none)
  else if info.userResponse ≠ .success then s.sendUpdateError info.userResponse info.tid
  else if info.profileResponse ≠ .success then s.sendUpdateError info.profileResponse info.tid
  else s

/-- `Peer::m_update_user_callback`, with the request that it adds. -/
def updateUserCallback (info : UpdateAccountInfo) (code : WebErrorCode) :
    AccountPeer × Option UpdateTask :=
  let info := { info with userResponse := code }
  if code = .success then
    if info.profileUpdate then (s, some (.profile info.profile info))
    -- `m_user` is not set here
    else (s.sendUpdated (if info.tid ≠ -1 then some info.tid else none), none)
  else (s.sendUpdateError code info.tid, none)

end AccountPeer

/-- A request of a client, and what the backend replies to the update of the user and to that of
the profile if it is asked for them. -/
structure UpdateAccount where
  kvList : List (Bytes × Bytes)
  userReply : WebErrorCode
  profileReply : WebErrorCode
  deriving DecidableEq

namespace UpdateAccount

/-- The submitted email. -/
def email (request : UpdateAccount) : Bytes :=
  getValue request.kvList (ascii "email")

/-- The submitted country. -/
def countryCode (request : UpdateAccount) : Bytes :=
  getValue request.kvList (ascii "countryCode")

/-- The reply to a task arrives. -/
def reply (request : UpdateAccount) :
    AccountPeer × Option UpdateTask → AccountPeer × Option UpdateTask
  | (s, none) => (s, none)
  | (s, some (.user _ info)) => s.updateUserCallback info request.userReply
  | (s, some (.profile _ info)) => (s.updateUserProfileCallback info request.profileReply, none)

end UpdateAccount

namespace AccountPeer

/-- A request is served: the handler runs, then the callbacks of the two updates at most. -/
def serve (s : AccountPeer) (request : UpdateAccount) : AccountPeer :=
  (request.reply (request.reply (s.acctUpdateAccount request.kvList))).1

/-- One packet is sent for a request. If it is a success, the peer holds what was
submitted, and if it is an error, the peer holds the submitted email if and only if the backend
has it, and the profile as it was. -/
def InStep (s : AccountPeer) (request : UpdateAccount) : Prop :=
  ∃ packet, (s.serve request).peer.sent = s.peer.sent ++ [packet] ∧
    packet.txn = ascii "UpdateAccount" ∧
      (packet.body = [] →
        (s.serve request).user = { s.user with email := request.email } ∧
          (s.serve request).accountProfile =
            { s.accountProfile with countrycode := request.countryCode }) ∧
      (packet.body ≠ [] →
        (s.serve request).user =
            (if request.userReply = .success then { s.user with email := request.email }
              else s.user) ∧
          (s.serve request).accountProfile = s.accountProfile)

/-- Where the backend takes over a new email, it takes over a new country, too. -/
def EmailWithCountry (s : AccountPeer) (request : UpdateAccount) : Prop :=
  request.email ≠ s.user.email → request.userReply = .success →
    request.countryCode ≠ s.accountProfile.countrycode ∧ request.profileReply = .success

instance (s : AccountPeer) (request : UpdateAccount) : Decidable (s.EmailWithCountry request) :=
  inferInstanceAs (Decidable (_ → _ → _ ∧ _))

section Serve

variable {s : AccountPeer} {request : UpdateAccount}

/-- An error is sent in one packet with other lines. -/
theorem handle_web_error_sends (peer : Peer) (code : WebErrorCode) (txn : Bytes) (tid : Int) :
    ∃ packet, (peer.handleWebError code txn tid).sent = peer.sent ++ [packet] ∧ packet.txn = txn ∧
      packet.body ≠ [] := by
  unfold Peer.handleWebError
  split <;> exact ⟨_, rfl, rfl, by simp [ascii]⟩

/-- A request that ends in a success is in step exactly if the peer takes over what was
submitted. -/
theorem in_step_of_updated {t : AccountPeer} {tid : Option Int}
    (hserve : s.serve request = t.sendUpdated tid) (hsent : t.peer.sent = s.peer.sent) :
    s.InStep request ↔ t.user = { s.user with email := request.email } ∧
      t.accountProfile = { s.accountProfile with countrycode := request.countryCode } := by
  constructor
  · rintro ⟨packet, hpacket, -, hupdated, -⟩
    rw [hserve] at hpacket hupdated
    have hlast : packet.body = [] := by
      have hsame := List.append_inj_right' (hpacket.symm.trans (congrArg (· ++ _) hsent)) rfl
      rw [List.singleton_inj.mp hsame]
    exact hupdated hlast
  · intro hupdated
    refine ⟨_, by rw [hserve, sendUpdated, hsent], rfl, fun _ => ?_, fun hne => absurd rfl hne⟩
    rw [hserve]
    exact hupdated

/-- A request that ends in an error is in step exactly if the email is not lost. -/
theorem in_step_of_error {code : WebErrorCode} {tid : Int}
    (hserve : s.serve request = s.sendUpdateError code tid) :
    s.InStep request ↔
      (request.userReply = .success → request.email = s.user.email) := by
  obtain ⟨error, hsent, htxn, hbody⟩ :=
    handle_web_error_sends s.peer code (ascii "UpdateAccount") tid
  have huser : s.user = (if request.userReply = .success then
      { s.user with email := request.email } else s.user) ↔
        (request.userReply = .success → request.email = s.user.email) := by
    split
    · next hsuccess =>
        simp only [hsuccess, forall_const]
        constructor
        · intro hsame
          rw [hsame]
        · intro hemail
          rw [hemail]
    · next hfailed => exact iff_of_true rfl fun hsuccess => absurd hsuccess hfailed
  constructor
  · rintro ⟨packet, hpacket, -, -, herror⟩
    rw [hserve] at hpacket herror
    have hsame := List.append_inj_right' (hsent.symm.trans hpacket) rfl
    rw [List.singleton_inj.mp hsame] at hbody
    exact huser.mp (herror hbody).1
  · intro hkept
    refine ⟨error, by rw [hserve]; exact hsent, htxn, fun hempty => absurd hempty hbody, ?_⟩
    rw [hserve]
    exact fun _ => ⟨huser.mpr hkept, rfl⟩

/-- The peer takes over what was submitted. -/
def takeOver (s : AccountPeer) (request : UpdateAccount) : AccountPeer :=
  { s with
    user := { s.user with email := request.email }
    accountProfile := { s.accountProfile with countrycode := request.countryCode } }

/-- Nothing has changed. -/
theorem serve_unchanged (hemail : request.email = s.user.email)
    (hcountry : request.countryCode = s.accountProfile.countrycode) :
    ∃ tid, s.serve request = s.sendUpdated tid := by
  unfold UpdateAccount.email at hemail
  unfold UpdateAccount.countryCode at hcountry
  simp only [serve, acctUpdateAccount, hemail, hcountry, bne_self_eq_false, Bool.false_eq_true,
    if_false, UpdateAccount.reply]
  exact ⟨_, rfl⟩

/-- Only the country has changed. -/
theorem serve_country (hemail : request.email = s.user.email)
    (hcountry : request.countryCode ≠ s.accountProfile.countrycode) :
    ∃ tid tid', s.serve request =
      if request.profileReply = .success then (s.takeOver request).sendUpdated tid
      else s.sendUpdateError .backendError tid' := by
  unfold UpdateAccount.email at hemail
  unfold UpdateAccount.countryCode at hcountry
  simp only [serve, acctUpdateAccount, hemail, bne_self_eq_false, Bool.false_eq_true, if_false,
    bne_iff_ne, ne_eq, hcountry, not_false_eq_true, if_true, UpdateAccount.reply,
    updateUserProfileCallback]
  by_cases hprofile : request.profileReply = .success
  · simp only [hprofile, if_true, Bool.not_false, true_or, and_self]
    exact ⟨_, 0, by rw [takeOver, ← hemail]; rfl⟩
  · simp only [hprofile, false_and, if_false, if_true, reduceCtorEq, not_false_eq_true]
    exact ⟨none, _, rfl⟩

/-- The backend does not take over the email. -/
theorem serve_email_failed (hemail : request.email ≠ s.user.email)
    (hfailed : request.userReply ≠ .success) :
    ∃ tid, s.serve request = s.sendUpdateError request.userReply tid := by
  unfold UpdateAccount.email at hemail
  simp only [serve, acctUpdateAccount, bne_iff_ne, ne_eq, hemail, not_false_eq_true, if_true,
    UpdateAccount.reply, updateUserCallback, hfailed, if_false]
  exact ⟨_, rfl⟩

/-- Only the email has changed, and the backend takes it over. -/
theorem serve_email (hemail : request.email ≠ s.user.email)
    (hcountry : request.countryCode = s.accountProfile.countrycode)
    (hsuccess : request.userReply = .success) :
    ∃ tid, s.serve request = s.sendUpdated tid := by
  unfold UpdateAccount.email at hemail
  unfold UpdateAccount.countryCode at hcountry
  simp only [serve, acctUpdateAccount, bne_iff_ne, ne_eq, hemail, not_false_eq_true, if_true,
    UpdateAccount.reply, updateUserCallback, hsuccess, hcountry, bne_self_eq_false,
    Bool.false_eq_true, if_false]
  exact ⟨_, rfl⟩

/-- Both have changed, and the backend takes over the email. -/
theorem serve_both (hemail : request.email ≠ s.user.email)
    (hcountry : request.countryCode ≠ s.accountProfile.countrycode)
    (hsuccess : request.userReply = .success) :
    ∃ tid tid', s.serve request =
      if request.profileReply = .success then (s.takeOver request).sendUpdated tid
      else s.sendUpdateError request.profileReply tid' := by
  unfold UpdateAccount.email at hemail
  unfold UpdateAccount.countryCode at hcountry
  simp only [serve, acctUpdateAccount, bne_iff_ne, ne_eq, hemail, not_false_eq_true, if_true,
    UpdateAccount.reply, updateUserCallback, hsuccess, hcountry, updateUserProfileCallback]
  by_cases hprofile : request.profileReply = .success
  · simp only [hprofile, if_true, or_true, and_self]
    exact ⟨_, 0, rfl⟩
  · simp only [hprofile, false_and, if_false, if_true, not_true_eq_false, not_false_eq_true]
    exact ⟨none, _, rfl⟩

/-- A request is in step exactly if the backend takes over no new email without a new country. -/
theorem in_step_iff : s.InStep request ↔ s.EmailWithCountry request := by
  by_cases hemail : request.email = s.user.email
  · have hmeets : s.EmailWithCountry request := fun hne => absurd hemail hne
    refine iff_of_true ?_ hmeets
    by_cases hcountry : request.countryCode = s.accountProfile.countrycode
    · obtain ⟨tid, hserve⟩ := serve_unchanged hemail hcountry
      refine (in_step_of_updated hserve rfl).mpr ?_
      rw [hemail, hcountry]
      exact ⟨rfl, rfl⟩
    · obtain ⟨tid, tid', hserve⟩ := serve_country hemail hcountry
      split at hserve
      · exact (in_step_of_updated hserve rfl).mpr ⟨rfl, rfl⟩
      · exact (in_step_of_error hserve).mpr fun _ => hemail
  · rw [EmailWithCountry]
    simp only [ne_eq, hemail, not_false_eq_true, forall_const]
    by_cases hsuccess : request.userReply = .success
    · by_cases hcountry : request.countryCode = s.accountProfile.countrycode
      · obtain ⟨tid, hserve⟩ := serve_email hemail hcountry hsuccess
        rw [in_step_of_updated hserve rfl]
        refine iff_of_false (fun hsame => hemail ?_) fun h => (h hsuccess).1 hcountry
        rw [hsame.1]
      · obtain ⟨tid, tid', hserve⟩ := serve_both hemail hcountry hsuccess
        split at hserve
        · next hprofile =>
            exact iff_of_true ((in_step_of_updated hserve rfl).mpr ⟨rfl, rfl⟩)
              fun _ => ⟨hcountry, hprofile⟩
        · next hprofile =>
            rw [in_step_of_error hserve]
            exact iff_of_false (fun h => hemail (h hsuccess)) fun h => hprofile (h hsuccess).2
    · obtain ⟨tid, hserve⟩ := serve_email_failed hemail hsuccess
      exact iff_of_true ((in_step_of_error hserve).mpr fun h => absurd h hsuccess)
        fun h => absurd h hsuccess

end Serve

end AccountPeer

/-- In a run of requests that are served one after the other, each is answered once and leaves the
peer in step with the backend, if and only if wherever the backend takes over a new email the
country is new, too, and the backend takes it over as well. -/
theorem update_account_in_step_iff (start : AccountPeer) (run : List UpdateAccount) :
    AtEach AccountPeer.serve start AccountPeer.InStep run ↔
      AtEach AccountPeer.serve start AccountPeer.EmailWithCountry run :=
  forall₄_congr fun _ _ _ _ => AccountPeer.in_step_iff

/-- An email is changed alone. -/
theorem changed_email_lost :
    ¬ ∀ (start : AccountPeer) (run : List UpdateAccount),
      AtEach AccountPeer.serve start AccountPeer.InStep run := by
  intro h
  obtain ⟨packet, hsent, -, hupdated, -⟩ :=
    h ⟨.init 1 [] ⟨5, []⟩, ⟨1, ascii "a@b"⟩, ⟨5, ascii "1"⟩⟩
      [⟨[(ascii "email", ascii "c@d"), (ascii "countryCode", ascii "1")], .success, .success⟩] []
      _ [] rfl
  have hpacket : [⟨0x80000001, ascii "UpdateAccount", none, []⟩] = [packet] := hsent
  obtain rfl := List.singleton_inj.mp hpacket
  exact absurd (congrArg AccountUser.email (hupdated rfl).1) (by decide)

end OpenSpy.FESL
