import OpenSpy.Core.KVReader

/-!
# The profiles of a FESL peer

The commands of a FESL peer that list, add, disable and log into the profiles of its user, and
the callbacks of the profile tasks. `extra` of a task carries the TID, and -1 stands for none.
The peer keeps one copy of the profiles; a list that is asked for before the profiles are there
is remembered by a flag of its kind. `m_create_nu_profile_callback`, which nothing submits, is
left out.
-/

namespace OpenSpy.FESL

open Bytes

/-- The fields of `OS::Profile` that these commands read. -/
structure Profile where
  id : Int
  uniquenick : Bytes
  deriving DecidableEq, Repr

/-- The entries of `FESL_ERROR` that are sent. -/
inductive FeslError where
  | custom | authFailure | accountNotFound | accountExists | noError | systemError
  deriving DecidableEq

/-- The value of an entry of `FESL_ERROR`. -/
def FeslError.value : FeslError → Int
  | .custom => 21
  | .authFailure => 122
  | .accountNotFound => 101
  | .accountExists => 160
  | .noError => 182
  | .systemError => 99

/-- `WebErrorCode`. -/
inductive WebErrorCode where
  | success | authInvalidCredentials | authAccountBanned | authAccountDisabled
  | cannotDeleteLastProfile | nickInUse | nickInvalid | noSuchUser | uniqueNickInUse
  | uniqueNickInvalid | userExists | emailInvalid | emailInUse | badCdKey | cdKeyAlreadyTaken
  | cdKeyAlreadySet | backendError
  deriving DecidableEq

/-- A packet of type `FESL_TYPE_ACCOUNT`: the second word of its header, the `TXN`, the `TID`
if it has one, and the other lines. -/
structure Packet where
  subtype : UInt32
  txn : Bytes
  tid : Option Int
  body : Bytes
  deriving DecidableEq

/-- The text of a packet. -/
def Packet.data (packet : Packet) : Bytes :=
  ascii "TXN=" ++ packet.txn ++ ascii "\n" ++
  (match packet.tid with
    | some tid => ascii "TID=" ++ printInt tid ++ ascii "\n"
    | none => []) ++
  packet.body

/-- A `TaskShared::ProfileRequest` with its `extra`. Which callback it has follows from its
type. -/
inductive ProfileRequest where
  | profiles (userId : Int)
  | createProfile (userId : Int) (uniquenick : Bytes) (tid : Int)
  | deleteProfile (profileid : Int) (tid : Int)
  deriving DecidableEq

/-- The entries of `m_commands` about the profiles. -/
inductive Command where
  | getSubAccounts | nuGetPersonas | addSubAccount | nuAddPersona | disableSubAccount
  | loginSubAccount
  deriving DecidableEq

/-- The `TXN` of a command. -/
def Command.txn : Command → Bytes
  | .getSubAccounts => ascii "GetSubAccounts"
  | .nuGetPersonas => ascii "NuGetPersonas"
  | .addSubAccount => ascii "AddSubAccount"
  | .nuAddPersona => ascii "NuAddPersona"
  | .disableSubAccount => ascii "DisableSubAccount"
  | .loginSubAccount => ascii "LoginSubAccount"

/-- `tid` as every command reads it. -/
def readTid (kvList : List (Bytes × Bytes)) : Int :=
  if hasKey kvList (ascii "TID") then getValueInt kvList (ascii "TID") else -1

/-- The lines of the names of the profiles, in a list `field`. -/
def nameLines (field : Bytes) (profiles : List Profile) : Bytes :=
  field ++ ascii ".[]=" ++ printNat profiles.length ++ ascii "\n" ++
    profiles.zipIdx.flatMap fun (profile, i) =>
      field ++ ascii "." ++ printNat i ++ ascii "=\"" ++ profile.uniquenick ++ ascii "\"\n"

/-- The members of `FESL::Peer` that the profile commands use. `userId` is `m_user.id`, and
`sent` lists the packets that were passed on to be sent. -/
structure Peer where
  sequenceId : UInt32
  userId : Int
  sessionKey : Bytes
  profile : Profile
  pendingSubaccounts : Bool
  pendingNugetPersonas : Bool
  gotProfiles : Bool
  profiles : List Profile
  lastProfileLookupTid : Int
  sent : List Packet

namespace Peer

/-- The members as the constructor leaves them, once a user has logged in. -/
def init (userId : Int) (sessionKey : Bytes) (profile : Profile) : Peer :=
  { sequenceId := 1
    userId := userId
    sessionKey := sessionKey
    profile := profile
    pendingSubaccounts := false
    pendingNugetPersonas := false
    gotProfiles := false
    profiles := []
    lastProfileLookupTid := -1
    sent := [] }

variable (peer : Peer)

/-- `Peer::SendPacket` of a text that starts with a `TXN` and, unless it is -1, a `TID`. -/
def sendPacket (txn : Bytes) (tid : Int) (body : Bytes) : Peer :=
  { peer with
    sequenceId := peer.sequenceId + 1
    sent := peer.sent ++
      [⟨0x80000000 ||| peer.sequenceId, txn, if tid ≠ -1 then some tid else none, body⟩] }

/-- `Peer::SendCustomError`. -/
def sendCustomError (txn fieldName fieldError : Bytes) (tid : Int) : Peer :=
  peer.sendPacket txn tid (ascii "errorContainer=[]\n" ++
    ascii "errorCode=" ++ printInt FeslError.custom.value ++ ascii "\n" ++
    ascii "errorContainer.0.fieldName=" ++ fieldName ++ ascii "\n" ++
    ascii "errorContainer.0.fieldError=" ++ fieldError ++ ascii "\n")

/-- `Peer::SendError`. -/
def sendError (error : FeslError) (txn : Bytes) (tid : Int) : Peer :=
  peer.sendPacket txn tid (ascii "errorContainer=[]\n" ++
    (if error.value = 0 then ascii "errorType=" ++ printInt error.value ++ ascii "\n" else []) ++
    ascii "errorCode=" ++ printInt error.value ++ ascii "\n")

/-- `Peer::handle_web_error`. -/
def handleWebError (code : WebErrorCode) (txn : Bytes) (tid : Int) : Peer :=
  match code with
  | .uniqueNickInUse => peer.sendError .accountExists txn tid
  | .noSuchUser => peer.sendError .accountNotFound txn tid
  | .authInvalidCredentials => peer.sendError .authFailure txn tid
  | .emailInUse =>
      peer.sendCustomError txn (ascii "Account.EmailAddress")
        (ascii "The specified email was in use.") tid
  | .emailInvalid =>
      peer.sendCustomError txn (ascii "Account.EmailAddress")
        (ascii "The specified email was invalid.") tid
  | .backendError => peer.sendError .systemError txn tid
  | .uniqueNickInvalid | .nickInvalid =>
      peer.sendCustomError txn (ascii "Account.ScreenName")
        (ascii "The account name was invalid. Please change and try again.") tid
  | _ => peer.sendError .authFailure txn tid

/-- `Peer::send_subaccounts`. -/
def sendSubaccounts : Peer :=
  peer.sendPacket (ascii "GetSubAccounts") peer.lastProfileLookupTid
    (nameLines (ascii "subAccounts") peer.profiles)

/-- `Peer::send_personas`. -/
def sendPersonas : Peer :=
  peer.sendPacket (ascii "NuGetPersonas") peer.lastProfileLookupTid
    (nameLines (ascii "personas") peer.profiles)

/-- `Peer::m_acct_get_sub_accounts`. -/
def acctGetSubAccounts (kvList : List (Bytes × Bytes)) : Peer :=
  if !peer.gotProfiles then { peer with pendingSubaccounts := true }
  else { peer with lastProfileLookupTid := readTid kvList }.sendSubaccounts

/-- `Peer::m_acct_get_personas`. -/
def acctGetPersonas (kvList : List (Bytes × Bytes)) : Peer :=
  let peer := { peer with lastProfileLookupTid := readTid kvList }
  if !peer.gotProfiles then { peer with pendingNugetPersonas := true }
  else peer.sendPersonas

/-- The request of the next two functions. -/
def createRequest (kvList : List (Bytes × Bytes)) : ProfileRequest :=
  .createProfile peer.userId (getValue kvList (ascii "name")) (readTid kvList)

/-- `Peer::m_acct_add_sub_account`: what it submits. -/
def acctAddSubAccount (kvList : List (Bytes × Bytes)) : ProfileRequest :=
  peer.createRequest kvList

/-- `Peer::m_acct_add_persona`: what it submits. It names the callback of `AddSubAccount`. -/
def acctAddPersona (kvList : List (Bytes × Bytes)) : ProfileRequest :=
  peer.createRequest kvList

/-- The first profile of a name. -/
def findProfile (uniquenick : Bytes) : Option Profile :=
  peer.profiles.find? fun profile => profile.uniquenick == uniquenick

/-- `Peer::m_acct_disable_sub_account`, with what it submits. -/
def acctDisableSubAccount (kvList : List (Bytes × Bytes)) : Peer × List ProfileRequest :=
  match peer.findProfile (getValue kvList (ascii "name")) with
  | some profile => (peer, [.deleteProfile profile.id (readTid kvList)])
  | none =>
      (peer.sendError .accountNotFound (ascii "DisableSubAccount") (readTid kvList), [])

/-- `Peer::loginToSubAccount`. -/
def loginToSubAccount (uniquenick : Bytes) (tid : Int) : Peer :=
  match peer.findProfile uniquenick with
  | some profile =>
      { peer with profile := profile }.sendPacket (ascii "LoginSubAccount") tid
        (ascii "lkey=" ++ peer.sessionKey ++ ascii "\n" ++
         ascii "profileId=" ++ printInt profile.id ++ ascii "\n" ++
         ascii "userId=" ++ printInt peer.userId ++ ascii "\n")
  | none => peer.sendError .accountNotFound (ascii "LoginSubAccount") tid

/-- `Peer::m_acct_login_sub_account`. -/
def acctLoginSubAccount (kvList : List (Bytes × Bytes)) : Peer :=
  peer.loginToSubAccount (getValue kvList (ascii "name")) (readTid kvList)

/-- The handler of a command, with the requests that it submits. -/
def handle (command : Command) (kvList : List (Bytes × Bytes)) : Peer × List ProfileRequest :=
  match command with
  | .getSubAccounts => (peer.acctGetSubAccounts kvList, [])
  | .nuGetPersonas => (peer.acctGetPersonas kvList, [])
  | .addSubAccount => (peer, [peer.acctAddSubAccount kvList])
  | .nuAddPersona => (peer, [peer.acctAddPersona kvList])
  | .disableSubAccount => peer.acctDisableSubAccount kvList
  | .loginSubAccount => (peer.acctLoginSubAccount kvList, [])

/-- The two flags of `m_search_callback`: the lists that wait for the profiles. -/
def sendPending : Peer :=
  let peer :=
    if peer.pendingSubaccounts then { peer with pendingSubaccounts := false }.sendSubaccounts
    else peer
  if peer.pendingNugetPersonas then { peer with pendingNugetPersonas := false }.sendPersonas
  else peer

/-- `Peer::m_search_callback`, which does not look at the error. -/
def searchCallback (results : List Profile) : Peer :=
  { peer with profiles := results, gotProfiles := true }.sendPending

/-- `Peer::m_create_profile_callback`. -/
def createProfileCallback (code : WebErrorCode) (results : List Profile) (tid : Int) : Peer :=
  match code, results with
  | .success, profile :: _ =>
      { peer with profiles := peer.profiles ++ [profile] }.sendError .noError
        (ascii "AddSubAccount") tid
  | code, _ => peer.handleWebError code (ascii "AddSubAccount") tid

/-- `Peer::m_delete_profile_callback`: the first profile with the id is erased. -/
def deleteProfileCallback (code : WebErrorCode) (profileid tid : Int) : Peer :=
  if code = .success then
    { peer with profiles := peer.profiles.eraseP fun profile => profile.id == profileid }.sendPacket
      (ascii "DisableSubAccount") tid []
  else peer.sendError .systemError (ascii "DisableSubAccount") tid

/-- The callback of a request. -/
def callback (request : ProfileRequest) (code : WebErrorCode) (results : List Profile) : Peer :=
  match request with
  | .profiles _ => peer.searchCallback results
  | .createProfile _ _ tid => peer.createProfileCallback code results tid
  | .deleteProfile profileid tid => peer.deleteProfileCallback code profileid tid

end Peer

end OpenSpy.FESL
