import OpenSpy.GP.Lists

/-!
# The commands of a GP peer

`handle_packet` looks the first key of a message up in the table of `RegisterCommands` and runs
the handler, for most commands only while there is a session key. No handler changes the profile
or the session key, and one that deletes the peer reports its profile: `handle_packet_quiet`.
-/

namespace OpenSpy.GP

open Bytes

/-- `SESSION_RENEW_OFFSET`. -/
def sessionRenewOffset : UInt32 := 300

/-- `GP_PING_TIME`. -/
def gpPingTime : Int := 60

/-- `GP_STATUS_EXPIRE_TIME`. -/
def gpStatusExpireTime : Int := 500

namespace Peer

variable (peer : Peer) (dataParser : List (Bytes × Bytes))

/-- `Peer::refresh_session`. -/
def refreshSession : Peer :=
  peer.addRequest (.makeAuthSession peer.profileId)

/-- `Peer::delete_session`. -/
def deleteSession : Peer :=
  peer.addRequest (.deleteAuthSession peer.backendSessionKey)

/-- `Peer::run_timed_operations`. -/
def runTimedOperations (now : Int) : Peer :=
  let peer :=
    if now - peer.lastPing > gpPingTime then
      { peer with lastPing := now }.sendPacket (ascii "\\ka\\")
    else peer
  let peer :=
    if peer.sessionExpiresAt ≠ 0 ∧ now > peer.sessionExpiresAt then
      { peer with sessionExpiresAt := 0 }.refreshSession
    else peer
  if now - peer.statusRefresh > gpStatusExpireTime / 2 then
    let peer := { peer with statusRefresh := now }
    if peer.profileId ≠ 0 then peer.addRequest (.updateStatus peer.status) else peer
  else peer

/-- `Peer::think`. -/
def think (now : Int) : Peer :=
  if peer.deleteFlag then peer else peer.runTimedOperations now

/-- `Peer::handle_newuser`. -/
def handleNewuser : Peer :=
  if !hasKey dataParser (ascii "email") then peer.sendError .parse []
  else if hasKey dataParser (ascii "passenc") || hasKey dataParser (ascii "passwordenc") ||
      hasKey dataParser (ascii "password") || hasKey dataParser (ascii "pass") then
    peer.addRequest (.account .createUser)
  else peer.sendError .parse []

/-- The key that says how to log in, in the order of `handle_login`. -/
def loginType : Option LoginType :=
  if hasKey dataParser (ascii "user") then some .user
  else if hasKey dataParser (ascii "authtoken") then some .authtoken
  else if hasKey dataParser (ascii "uniquenick") then some .uniquenick
  else if hasKey dataParser (ascii "lt") then some .lt
  else none

/-- The key of the account's name. -/
def loginKey : LoginType → Bytes
  | .user => ascii "user"
  | .authtoken => ascii "authtoken"
  | .uniquenick => ascii "uniquenick"
  | .lt => ascii "lt"

/-- `Peer::handle_login`. -/
def handleLogin : Peer :=
  if !hasKey dataParser (ascii "challenge") then peer.sendError .parse []
  else
    match loginType dataParser with
    | none => peer.sendError .loginConnectionFailed []
    | some type =>
        if !hasKey dataParser (ascii "response") then peer.sendError .parse []
        else peer.addRequest (.login
          { type := type
            name := cString (getValue dataParser (loginKey type))
            partnercode := getValueInt dataParser (ascii "partnerid")
            namespaceid := getValueInt dataParser (ascii "namespaceid")
            clientChallenge := cString (getValue dataParser (ascii "challenge"))
            clientResponse := cString ((getValue dataParser (ascii "response")).take 32)
            operationId := getValueInt dataParser (ascii "id") })

/-- `Peer::handle_keepalive` and `Peer::handle_statusinfo`. -/
def handleNothing : Peer :=
  peer

/-- `Peer::handle_logout`. -/
def handleLogout : Peer :=
  peer.deleteSession.delete

/-- `Peer::handle_status`. -/
def handleStatus : Peer :=
  let status := peer.status
  let status := if hasKey dataParser (ascii "status") then
    { status with status := getValueInt dataParser (ascii "status") } else status
  let status := if hasKey dataParser (ascii "statstring") then
    { status with statusStr := getValue dataParser (ascii "statstring") } else status
  let status := if hasKey dataParser (ascii "locstring") then
    { status with locationStr := getValue dataParser (ascii "locstring") } else status
  { peer with status := status }.addRequest (.updateStatus status)

/-- `Peer::handle_addbuddy`. -/
def handleAddbuddy : Peer :=
  if !hasKey dataParser (ascii "newprofileid") then peer.sendError .parse []
  else
    let newprofileid := getValueInt dataParser (ascii "newprofileid")
    if (peer.buddies.find? newprofileid).isSome then peer.sendError .addbuddyAlreadyBuddy []
    else if peer.blocks.contains newprofileid then peer.sendError .addbuddyIsOnBlocklist []
    else peer.addRequest
      (.addBuddy peer.profileId newprofileid (getValue dataParser (ascii "reason")))

/-- `Peer::handle_revoke`. -/
def handleRevoke : Peer :=
  if hasKey dataParser (ascii "profileid") then
    peer.addRequest (.delBuddy (getValueInt dataParser (ascii "profileid")) peer.profileId)
  else peer.sendError .parse []

/-- `Peer::handle_authadd`. -/
def handleAuthadd : Peer :=
  if hasKey dataParser (ascii "fromprofileid") then
    peer.addRequest
      (.authorizeAdd peer.profileId (getValueInt dataParser (ascii "fromprofileid")))
  else peer.sendError .parse []

/-- `Peer::handle_getprofile`. -/
def handleGetprofile : Peer :=
  if hasKey dataParser (ascii "profileid") && hasKey dataParser (ascii "id") then
    peer.addRequest (.account .profiles)
  else peer

/-- `Peer::handle_bm`. Messages, UT messages, pings and pongs are passed on. -/
def handleBm : Peer :=
  if hasKey dataParser (ascii "t") && hasKey dataParser (ascii "bm") &&
      hasKey dataParser (ascii "msg") then
    let toProfileid := getValueInt dataParser (ascii "t")
    let msgType := getValueInt dataParser (ascii "bm")
    match peer.buddies.find? toProfileid with
    | none => peer.sendError .bmNotBuddy []
    | some status =>
        if status.status = gpOffline then peer.sendError .bmBuddyOffline []
        else if msgType = 1 ∨ msgType = 5 ∨ msgType = 102 ∨ msgType = 103 then
          peer.addRequest
            (.buddyMessage msgType toProfileid (getValue dataParser (ascii "msg")))
        else peer
  else peer.sendError .parse []

/-- `Peer::handle_pinvite`. -/
def handlePinvite : Peer :=
  peer.addRequest (.buddyMessage 101 (getValueInt dataParser (ascii "profileid"))
    (ascii "|p|" ++ printInt (getValueInt dataParser (ascii "productid")) ++ ascii "|l|" ++
      peer.status.locationStr))

/-- `Peer::handle_newprofile`. -/
def handleNewprofile : Peer :=
  if getValueInt dataParser (ascii "replace") ≠ 0 then peer.addRequest (.account .profiles)
  else peer.addRequest (.account .createProfile)

/-- `Peer::handle_delprofile`. -/
def handleDelprofile : Peer :=
  peer.addRequest (.deleteProfile peer.profileId (getValueInt dataParser (ascii "id")))

/-- `Peer::handle_registernick`. -/
def handleRegisternick : Peer :=
  if hasKey dataParser (ascii "uniquenick") then peer.addRequest (.account .updateProfile)
  else peer.sendError .parse
    (ascii "\\id\\" ++ printInt (getValueInt dataParser (ascii "id")))

/-- `Peer::handle_registercdkey`. -/
def handleRegistercdkey : Peer :=
  peer.addRequest (.account .associateCdKey)

/-- `Peer::handle_updatepro`. -/
def handleUpdatepro : Peer :=
  let peer := peer.addRequest (.account .updateProfile)
  if hasKey dataParser (ascii "publicmask") then peer.addRequest (.account .updateUser) else peer

/-- `Peer::handle_updateui`. -/
def handleUpdateui : Peer :=
  peer.addRequest (.account .updateUser)

end Peer

/-- `CommandEntry`. -/
structure CommandEntry where
  name : Bytes
  loginRequired : Bool
  callback : Peer → List (Bytes × Bytes) → Peer

/-- `Peer::RegisterCommands`. -/
def registerCommands : List CommandEntry :=
  [⟨ascii "newuser", false, Peer.handleNewuser⟩,
    ⟨ascii "login", false, Peer.handleLogin⟩,
    ⟨ascii "ka", false, fun peer _ => peer.handleNothing⟩,
    ⟨ascii "logout", false, fun peer _ => peer.handleLogout⟩,
    ⟨ascii "status", true, Peer.handleStatus⟩,
    ⟨ascii "statusinfo", true, fun peer _ => peer.handleNothing⟩,
    ⟨ascii "addbuddy", true, Peer.handleAddbuddy⟩,
    ⟨ascii "delbuddy", true, Peer.handleDelbuddy⟩,
    ⟨ascii "removeblock", true, Peer.handleRemoveblock⟩,
    ⟨ascii "delblock", true, Peer.handleRemoveblock⟩,
    ⟨ascii "addblock", true, Peer.handleAddblock⟩,
    ⟨ascii "revoke", true, Peer.handleRevoke⟩,
    ⟨ascii "authadd", true, Peer.handleAuthadd⟩,
    ⟨ascii "getprofile", true, Peer.handleGetprofile⟩,
    ⟨ascii "bm", true, Peer.handleBm⟩,
    ⟨ascii "pinvite", true, Peer.handlePinvite⟩,
    ⟨ascii "newprofile", true, Peer.handleNewprofile⟩,
    ⟨ascii "delprofile", true, Peer.handleDelprofile⟩,
    ⟨ascii "registernick", true, Peer.handleRegisternick⟩,
    ⟨ascii "registercdkey", true, fun peer _ => peer.handleRegistercdkey⟩,
    ⟨ascii "updatepro", true, Peer.handleUpdatepro⟩,
    ⟨ascii "updateui", true, fun peer _ => peer.handleUpdateui⟩]

/-- The entry of `m_commands` whose handler `handle_packet` runs. -/
def Peer.commandRun (peer : Peer) (dataParser : List (Bytes × Bytes)) : Option CommandEntry :=
  match registerCommands.find? fun entry => entry.name == (dataParser.headD ([], [])).1 with
  | none => none
  | some entry =>
      if entry.loginRequired && peer.backendSessionKey.length == 0 then none else some entry

/-- `Peer::handle_packet`. -/
def Peer.handlePacket (peer : Peer) (dataParser : List (Bytes × Bytes)) : Peer :=
  match peer.commandRun dataParser with
  | none => peer
  | some entry => entry.callback peer dataParser

/-- The backend was told that a profile is offline. -/
def Peer.Reported (peer : Peer) (id : Int) : Prop :=
  .updateStatusOf id gpDefaultStatus ∈ peer.requests

instance (peer : Peer) (id : Int) : Decidable (peer.Reported id) := by
  unfold Peer.Reported
  infer_instance

/-- What a handler may do to the session: the profile and the key stay, and a peer that it
deletes has its profile reported. -/
structure Quiet (peer after : Peer) : Prop where
  profile_id : after.profileId = peer.profileId
  key : after.backendSessionKey = peer.backendSessionKey
  requests : peer.requests <+: after.requests
  reported : after.deleteFlag = true →
    peer.deleteFlag = true ∨ (peer.profileId ≠ 0 → after.Reported peer.profileId)

section Quiet

variable {peer after last : Peer}

theorem Quiet.refl (peer : Peer) : Quiet peer peer :=
  ⟨rfl, rfl, List.prefix_rfl, Or.inl⟩

/-- What was reported stays reported. -/
theorem Quiet.reported_mono (h : Quiet peer after) {id : Int} (hid : peer.Reported id) :
    after.Reported id :=
  h.requests.subset hid

theorem Quiet.trans (h : Quiet peer after) (hlast : Quiet after last) : Quiet peer last := by
  refine ⟨hlast.profile_id.trans h.profile_id, hlast.key.trans h.key,
    h.requests.trans hlast.requests, fun hdeleted => ?_⟩
  rcases hlast.reported hdeleted with hdeleted | hreported
  · exact (h.reported hdeleted).imp_right fun hreported hid => hlast.reported_mono (hreported hid)
  · exact .inr fun hid => h.profile_id ▸ hreported (h.profile_id.symm ▸ hid)

theorem add_request_quiet (peer : Peer) (request : Request) :
    Quiet peer (peer.addRequest request) :=
  ⟨rfl, rfl, List.prefix_append _ _, Or.inl⟩

theorem delete_quiet (peer : Peer) : Quiet peer peer.delete := by
  unfold Peer.delete
  split
  · exact ⟨rfl, rfl, List.prefix_append _ _, fun _ => .inr fun _ => by
      simp [Peer.Reported, Peer.addRequest]⟩
  · rename_i hzero
    exact ⟨rfl, rfl, List.prefix_rfl, fun _ => .inr fun hid => absurd hid hzero⟩

theorem send_error_quiet (peer : Peer) (code : GPErrorCode) (addonData : Bytes) :
    Quiet peer (peer.sendError code addonData) := by
  unfold Peer.sendError
  extract_lets errorData packet
  have hpacket : Quiet peer packet := ⟨rfl, rfl, List.prefix_rfl, Or.inl⟩
  split
  · exact hpacket.trans (delete_quiet packet)
  · exact hpacket

variable (peer) (dataParser : List (Bytes × Bytes))

theorem handle_newuser_quiet : Quiet peer (peer.handleNewuser dataParser) := by
  unfold Peer.handleNewuser
  split_ifs
  · exact send_error_quiet peer _ _
  · exact add_request_quiet peer _
  · exact send_error_quiet peer _ _

theorem handle_login_quiet : Quiet peer (peer.handleLogin dataParser) := by
  unfold Peer.handleLogin
  split
  · exact send_error_quiet peer _ _
  · split
    · exact send_error_quiet peer _ _
    · split
      · exact send_error_quiet peer _ _
      · exact add_request_quiet peer _

theorem handle_logout_quiet : Quiet peer peer.handleLogout :=
  (add_request_quiet peer _).trans (delete_quiet _)

theorem handle_status_quiet : Quiet peer (peer.handleStatus dataParser) :=
  ⟨rfl, rfl, List.prefix_append _ _, Or.inl⟩

theorem handle_addbuddy_quiet : Quiet peer (peer.handleAddbuddy dataParser) := by
  unfold Peer.handleAddbuddy
  extract_lets newprofileid
  split_ifs
  · exact send_error_quiet peer _ _
  · exact send_error_quiet peer _ _
  · exact send_error_quiet peer _ _
  · exact add_request_quiet peer _

theorem handle_delbuddy_quiet : Quiet peer (peer.handleDelbuddy dataParser) := by
  unfold Peer.handleDelbuddy
  extract_lets delprofileid
  split_ifs
  · exact ⟨rfl, rfl, List.prefix_append _ _, Or.inl⟩
  · exact send_error_quiet peer _ _
  · exact send_error_quiet peer _ _

theorem handle_removeblock_quiet : Quiet peer (peer.handleRemoveblock dataParser) := by
  unfold Peer.handleRemoveblock
  extract_lets profileid
  split_ifs
  · exact ⟨rfl, rfl, List.prefix_append _ _, Or.inl⟩
  · exact send_error_quiet peer _ _
  · exact send_error_quiet peer _ _

theorem handle_addblock_quiet : Quiet peer (peer.handleAddblock dataParser) := by
  unfold Peer.handleAddblock
  extract_lets profileid
  split_ifs
  · exact send_error_quiet peer _ _
  · exact ⟨rfl, rfl, List.prefix_append _ _, Or.inl⟩
  · exact send_error_quiet peer _ _

theorem handle_revoke_quiet : Quiet peer (peer.handleRevoke dataParser) := by
  unfold Peer.handleRevoke
  split
  · exact add_request_quiet peer _
  · exact send_error_quiet peer _ _

theorem handle_authadd_quiet : Quiet peer (peer.handleAuthadd dataParser) := by
  unfold Peer.handleAuthadd
  split
  · exact add_request_quiet peer _
  · exact send_error_quiet peer _ _

theorem handle_getprofile_quiet : Quiet peer (peer.handleGetprofile dataParser) := by
  unfold Peer.handleGetprofile
  split
  · exact add_request_quiet peer _
  · exact .refl peer

theorem handle_bm_quiet : Quiet peer (peer.handleBm dataParser) := by
  unfold Peer.handleBm
  extract_lets toProfileid msgType
  split
  · split
    · exact send_error_quiet peer _ _
    · split_ifs
      · exact send_error_quiet peer _ _
      · exact add_request_quiet peer _
      · exact .refl peer
  · exact send_error_quiet peer _ _

theorem handle_newprofile_quiet : Quiet peer (peer.handleNewprofile dataParser) := by
  unfold Peer.handleNewprofile
  split <;> exact add_request_quiet peer _

theorem handle_registernick_quiet : Quiet peer (peer.handleRegisternick dataParser) := by
  unfold Peer.handleRegisternick
  split
  · exact add_request_quiet peer _
  · exact send_error_quiet peer _ _

theorem handle_updatepro_quiet : Quiet peer (peer.handleUpdatepro dataParser) := by
  unfold Peer.handleUpdatepro
  extract_lets updated
  split
  · exact (add_request_quiet peer _).trans (add_request_quiet updated _)
  · exact add_request_quiet peer _

/-- All handlers of the table are quiet. -/
theorem register_commands_quiet :
    ∀ entry ∈ registerCommands, ∀ peer dataParser, Quiet peer (entry.callback peer dataParser) := by
  simp only [registerCommands, List.forall_mem_cons, List.not_mem_nil, false_imp_iff,
    implies_true, and_true]
  exact ⟨handle_newuser_quiet, handle_login_quiet, fun peer _ => .refl peer,
    fun peer _ => handle_logout_quiet peer, handle_status_quiet, fun peer _ => .refl peer,
    handle_addbuddy_quiet, handle_delbuddy_quiet, handle_removeblock_quiet,
    handle_removeblock_quiet, handle_addblock_quiet, handle_revoke_quiet, handle_authadd_quiet,
    handle_getprofile_quiet, handle_bm_quiet, fun peer _ => add_request_quiet peer _,
    handle_newprofile_quiet, fun peer _ => add_request_quiet peer _, handle_registernick_quiet,
    fun peer _ => add_request_quiet peer _, handle_updatepro_quiet,
    fun peer _ => add_request_quiet peer _⟩

/-- The handler that runs is one of the table. -/
theorem command_run_mem {entry : CommandEntry} (h : peer.commandRun dataParser = some entry) :
    entry ∈ registerCommands := by
  unfold Peer.commandRun at h
  split at h
  · cases h
  · rename_i found hfound
    split_ifs at h
    cases h
    exact List.mem_of_find?_eq_some hfound

/-- A message changes neither the profile nor the session key. -/
theorem handle_packet_quiet : Quiet peer (peer.handlePacket dataParser) := by
  unfold Peer.handlePacket
  split
  · exact .refl peer
  · rename_i entry hrun
    exact register_commands_quiet entry (command_run_mem peer dataParser hrun) peer dataParser

/-- The timed operations change neither. -/
theorem think_quiet (now : Int) : Quiet peer (peer.think now) := by
  unfold Peer.think
  split
  · exact .refl peer
  · unfold Peer.runTimedOperations
    extract_lets pinged renewed refreshed
    have hpinged : Quiet peer pinged := by
      unfold pinged
      split
      · exact ⟨rfl, rfl, List.prefix_rfl, Or.inl⟩
      · exact .refl peer
    have hrenewed : Quiet pinged renewed := by
      unfold renewed
      split
      · exact ⟨rfl, rfl, List.prefix_append _ _, Or.inl⟩
      · exact .refl pinged
    refine hpinged.trans (hrenewed.trans ?_)
    split_ifs
    · exact ⟨rfl, rfl, List.prefix_append _ _, Or.inl⟩
    · exact ⟨rfl, rfl, List.prefix_rfl, Or.inl⟩
    · exact .refl renewed

end Quiet

end OpenSpy.GP
