import OpenSpy.Core.Address
import OpenSpy.Core.FinalMarker
import OpenSpy.Core.KVReader
import OpenSpy.Library.OrderedMap

/-!
# The GP peer

The members of a GP peer, the errors that it sends, and `Peer::Delete`, which tells the backend
that the profile is offline. The address of a status is kept as its bytes and the port as
`GetPort` answers it. `m_timeout_flag` is left out, which only the log reads.
-/

namespace OpenSpy.GP

open Bytes

/-- `GP_OFFLINE`. -/
def gpOffline : Int := 0

/-- `GPStatus`. -/
structure GPStatus where
  status : Int
  statusStr : Bytes
  locationStr : Bytes
  ip : IPv4
  port : UInt16
  quietFlags : UInt8
  deriving DecidableEq, Repr

/-- `gp_default_status`. -/
def gpDefaultStatus : GPStatus :=
  ⟨gpOffline, ascii "Offline", [], ⟨0, 0, 0, 0⟩, 0, 0⟩

/-- The entries of `GPErrorCode` that a peer sends by itself or for a login. -/
inductive GPErrorCode where
  | parse | login | loginBadEmail | loginBadPassword | loginBadProfile | loginConnectionFailed
  | loginBadUniquenick | loginExpiredLoginTicket | addbuddyAlreadyBuddy | addbuddyIsOnBlocklist
  | bmNotBuddy | bmBuddyOffline | delbuddyNotBuddy | delprofile | delprofileLastProfile
  | addblockAlreadyBlocked | removeblockNotBlocked
  deriving DecidableEq

/-- `GPErrorData`: whether the error ends the session is `die`. -/
structure GPErrorData where
  error : Int
  msg : Bytes
  die : Bool
  deriving DecidableEq

/-- `getErrorDataByCode`. -/
def getErrorDataByCode : GPErrorCode → GPErrorData
  | .parse => ⟨1, ascii "Unexpected data was received from the server.", true⟩
  | .login => ⟨256, ascii "There was an error logging in to the GP backend.", true⟩
  | .loginBadEmail => ⟨259, ascii "The e-mail address provided was incorrect.", true⟩
  | .loginBadPassword => ⟨260, ascii "The password provided was incorrect.", true⟩
  | .loginBadProfile => ⟨261, ascii "The profile provided was incorrect.", true⟩
  | .loginConnectionFailed => ⟨263, ascii "The server has refused the connection.", true⟩
  | .loginBadUniquenick => ⟨265, ascii "The uniquenick provided was incorrect.", true⟩
  | .loginExpiredLoginTicket =>
      ⟨268, ascii "The login ticket had expired and could not be used.", true⟩
  | .addbuddyAlreadyBuddy => ⟨1539, ascii "The profile requested is already a buddy.", false⟩
  | .addbuddyIsOnBlocklist =>
      ⟨1540, ascii "The profile requested is on the local profile's block list.", false⟩
  | .bmNotBuddy =>
      ⟨2305, ascii "The profile the message was to be sent to is not a buddy.", false⟩
  | .bmBuddyOffline => ⟨2307, ascii "The buddy to send a message to is offline.", false⟩
  | .delbuddyNotBuddy => ⟨2817, ascii "The buddy to be deleted is not a buddy. ", false⟩
  | .delprofile => ⟨3072, ascii "There was an error deleting the profile.", false⟩
  | .delprofileLastProfile => ⟨3073, ascii "The last profile cannot be deleted.", false⟩
  | .addblockAlreadyBlocked => ⟨4609, ascii "The profile specified is already blocked.", false⟩
  | .removeblockNotBlocked =>
      ⟨4865, ascii "The profile specified was not a member of the blocked list.", false⟩

/-- The ways to log in, by the key of the command that names the account. -/
inductive LoginType where
  | user | authtoken | uniquenick | lt
  deriving DecidableEq

/-- The request of a login. The challenge of the server is left out, which only the backend
compares. -/
structure LoginRequest where
  type : LoginType
  name : Bytes
  partnercode : Int
  namespaceid : Int
  clientChallenge : Bytes
  clientResponse : Bytes
  operationId : Int
  deriving DecidableEq

/-- The requests about accounts whose answers change nothing that is modelled. -/
inductive AccountRequest where
  | createUser | updateUser | profiles | createProfile | updateProfile | associateCdKey
  deriving DecidableEq

/-- The requests that a peer submits. `updateStatus` is about the profile that the peer has when
the request is performed, `updateStatusOf` comes without the peer. -/
inductive Request where
  | login (request : LoginRequest)
  | makeAuthSession (profileid : Int)
  | deleteAuthSession (sessionKey : Bytes)
  | updateStatus (statusInfo : GPStatus)
  | updateStatusOf (profileid : Int) (statusInfo : GPStatus)
  | addBuddy (fromProfileid toProfileid : Int) (reason : Bytes)
  | authorizeAdd (fromProfileid toProfileid : Int)
  | delBuddy (fromProfileid toProfileid : Int)
  | addBlock (fromProfileid toProfileid : Int)
  | delBlock (fromProfileid toProfileid : Int)
  | buddyMessage (type toProfileid : Int) (message : Bytes)
  | lookupBuddyStatus (profileid : Int)
  | buddies (profileid : Int)
  | blocks (profileid : Int)
  | deleteProfile (profileid operationId : Int)
  | account (request : AccountRequest)
  deriving DecidableEq

/-- The members of `GP::Peer`. `profileId` is `m_profile.id`, and of the times the seconds are
kept; `sent` lists what was passed to `SendPacket`, which queues nothing for a peer that is being
deleted, and `requests` what was submitted. -/
structure Peer where
  profileId : Int
  backendSessionKey : Bytes
  sessionExpiresAt : Int
  lastPing : Int
  statusRefresh : Int
  status : GPStatus
  gotBuddies : Bool
  gotBlocks : Bool
  buddies : OrderedMap Int GPStatus
  blocks : List Int
  blockedBy : List Int
  deleteFlag : Bool
  sent : List Bytes
  requests : List Request

namespace Peer

/-- The members as the constructor leaves them, for a connection from an address. -/
def init (ip : IPv4) (port : UInt16) (now : Int) : Peer :=
  { profileId := 0
    backendSessionKey := []
    sessionExpiresAt := 0
    lastPing := now
    statusRefresh := now
    status := ⟨gpOffline, [], [], ip, port, 0⟩
    gotBuddies := false
    gotBlocks := false
    buddies := .empty
    blocks := []
    blockedBy := []
    deleteFlag := false
    sent := []
    requests := [] }

variable (peer : Peer)

/-- `Peer::SendPacket`. -/
def sendPacket (packet : Bytes) : Peer :=
  { peer with sent := peer.sent ++ [packet ++ finalMarker] }

/-- `AddGPTaskRequest`, `AddAuthTaskRequest`, `AddProfileTaskRequest` and their like. -/
def addRequest (request : Request) : Peer :=
  { peer with requests := peer.requests ++ [request] }

/-- `Peer::Delete`. -/
def delete : Peer :=
  { (if peer.profileId ≠ 0 then
      peer.addRequest (.updateStatusOf peer.profileId gpDefaultStatus)
    else peer) with deleteFlag := true }

/-- `Peer::send_error`. -/
def sendError (code : GPErrorCode) (addonData : Bytes) : Peer :=
  let errorData := getErrorDataByCode code
  let peer := peer.sendPacket (ascii "\\error\\\\err\\" ++ printInt errorData.error ++
    (if errorData.die then ascii "\\fatal\\" else []) ++ ascii "\\errmsg\\" ++ errorData.msg ++
    addonData)
  if errorData.die then peer.delete else peer

section Frame

/-- Deleting a peer leaves its lists. -/
@[simp] theorem delete_lists :
    peer.delete.buddies = peer.buddies ∧ peer.delete.blocks = peer.blocks ∧
      peer.delete.blockedBy = peer.blockedBy := by
  unfold delete
  split <;> exact ⟨rfl, rfl, rfl⟩

/-- So does an error. -/
@[simp] theorem send_error_lists (code : GPErrorCode) (addonData : Bytes) :
    (peer.sendError code addonData).buddies = peer.buddies ∧
      (peer.sendError code addonData).blocks = peer.blocks ∧
      (peer.sendError code addonData).blockedBy = peer.blockedBy := by
  unfold sendError
  extract_lets errorData packet
  split
  · exact packet.delete_lists
  · exact ⟨rfl, rfl, rfl⟩

end Frame

end Peer

end OpenSpy.GP
