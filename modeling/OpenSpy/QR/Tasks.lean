import OpenSpy.Core.Gsmsalg
import OpenSpy.Library.Decimal
import OpenSpy.QR.Store

/-!
# The heartbeat and validation tasks

`PerformHeartbeat` of `Heartbeat.cpp` and `PerformValidate` of `ValidateServer.cpp`, with the
functions of `shared.cpp`, as programs over the store. The custom keys of a server, the fields
that only other services read and the query address of the answer are left out.
-/

namespace OpenSpy.QR

open Commands Bytes MachineInt

/-- `EMMPushRequestType`, for the tasks modelled. -/
inductive RequestType where
  | heartbeat
  | heartbeatClearExistingKeys
  | validateServer
  deriving DecidableEq, Repr

/-- `MMPushRequest`. `gameInfo` is what `OS::GetGameByName` returns for the game name of the
keys, of which the tasks use the secret key, and `challenge` what `GenerateChallenge` draws. -/
structure Request where
  type : RequestType
  version : Int
  instanceKey : Nat
  fromAddress : Address
  address : Address
  keys : Bytes → Option Bytes
  gamename : Bytes
  secretkey : Bytes
  challenge : Bytes

/-- `MMTaskResponse`: the error message, and the challenge. -/
structure Response where
  errorMessage : Option Bytes
  challenge : Bytes

/-- `isServerDeleted`. -/
def isServerDeleted (serverKey : Bytes) (ignoreChallengeExists : Bool) : QRProg Bool := do
  let deleted ← redis (.hget serverKey .deleted)
  let challengeExists ←
    (if ignoreChallengeExists then pure false else redis (.hexists serverKey .challenge))
  pure (deleted == some true && !challengeExists)

/-- `IncrNumHeartbeats`, which keeps an `int` of the reply. -/
def incrNumHeartbeats (serverKey : Bytes) : QRProg Int := do
  let count ← redis (.hincrby serverKey)
  pure (int32 count)

/-- `GetServerKeyBy_InstanceKey_Address`. -/
def getServerKeyByInstanceKeyAddress (instanceKey : Nat) (address : Address) :
    QRProg Bytes := do
  let reply ← redis (.get (.ipInst instanceKey address))
  let serverKey := reply.getD []
  if serverKey.length ≠ 0 then
    let deleted ← isServerDeleted serverKey false
    pure (if deleted then [] else serverKey)
  else pure serverKey

/-- `Get_QR1_Stored_Address_ServerKey`. -/
def getQR1StoredAddressServerKey (request : Request) : QRProg Bytes := do
  let reply ← redis (.get (.qr1 request.fromAddress))
  pure (stripQuotes (reply.getD []))

/-- `GetServerKey_FromRequest`. -/
def getServerKeyFromRequest (request : Request) : QRProg Bytes := do
  let key ← (if request.version = 1 then getQR1StoredAddressServerKey request else pure [])
  if key.length = 0 then
    getServerKeyByInstanceKeyAddress request.instanceKey request.fromAddress
  else pure key

/-- `TryFindServerID`. -/
def tryFindServerID (address : Address) : QRProg Int := do
  let exist ← redis (.exist (.ip address))
  if exist then
    let reply ← redis (.get (.ip address))
    let id ← redis (.hget (reply.getD []) .id)
    pure (id.getD (-1))
  else pure (-1)

/-- `GetServerID`. -/
def getServerID : QRProg Int := do
  let id ← redis .incrPk
  pure (int32 id)

/-- `GetNewServerKey`: the server key and the id. -/
def getNewServerKey (address : Address) (gamename : Bytes) : QRProg (Bytes × Int) := do
  let found ← tryFindServerID address
  let id ← (if found = -1 then getServerID else pure found)
  pure (gamename ++ char ':' :: printInt id ++ [char ':'], id)

/-- `WriteServerData`, without the custom keys. -/
def writeServerData (serverKey : Bytes) (request : Request) : QRProg Unit := do
  redis (.set (.ip request.address) serverKey)
  if request.instanceKey = 0 then
    redis (.set (.qr1 request.address) serverKey)
    if request.address.port ≠ request.fromAddress.port then
      redis (.set (.qr1 request.fromAddress) serverKey)
  redis (.set (.ipInst request.instanceKey request.address) serverKey)
  redis (.hset serverKey .instanceKey request.instanceKey)

/-- `SetServerDeleted`. -/
def setServerDeleted (serverKey : Bytes) (deleted resetHbcount : Bool) : QRProg Unit := do
  redis (.hset serverKey .deleted deleted)
  if resetHbcount then
    redis (.hdel serverKey .numUpdates)

/-- `SetServerInitialInfo`. -/
def setServerInitialInfo (serverKey challengeResponse : Bytes) (address : Address) (id : Int) :
    QRProg Unit :=
  redis (.hmset serverKey
    [⟨.wanPort, address.port⟩, ⟨.wanIp, inetNtop address.ip⟩, ⟨.id, id⟩,
      ⟨.challenge, challengeResponse⟩])

/-- `statechanged` of the keys, or 1. -/
def Request.statechanged (request : Request) : Int :=
  match request.keys (ascii "statechanged") with
  | some value => atoi value
  | none => 1

/-- `challenge_resp`: what the server is to answer, cut to eight characters for version 1. -/
def Request.challengeResp (request : Request) : Bytes :=
  let response := gsseckey request.challenge request.secretkey
  if request.version = 1 then response.take 8 else response

/-- A challenge response has no quotes. -/
theorem challenge_resp_no_quote (request : Request) : char '"' ∉ request.challengeResp := by
  have hresponse := gsseckey_no_quote request.challenge request.secretkey
  unfold Request.challengeResp
  split
  · exact fun hmem => hresponse (List.mem_of_mem_take hmem)
  · exact hresponse

/-- The challenge that is sent, cut to eight characters for version 1. -/
def Request.challengeString (request : Request) : Bytes :=
  if request.version = 1 then request.challenge.take 8 else request.challenge

/-- The registration of `PerformHeartbeat`. -/
def registerServer (request : Request) (gamename : Bytes) : QRProg Response := do
  let (serverKey, id) ← getNewServerKey request.address gamename
  writeServerData serverKey request
  setServerDeleted serverKey true (request.version ≠ 1)
  setServerInitialInfo serverKey request.challengeResp request.address id
  pure ⟨none, request.challengeString⟩

/-- What `PerformHeartbeat` does when a server shuts down. -/
def shutdownServer (serverKey : Bytes) : QRProg Response := do
  setServerDeleted serverKey true true
  redis (.send ⟨.del, serverKey⟩)
  pure ⟨none, []⟩

/-- The update of `PerformHeartbeat`. -/
def updateServer (request : Request) (serverKey : Bytes) : QRProg Response := do
  let hbCount ← incrNumHeartbeats serverKey
  let kind : EventKind := if hbCount = 1 ∧ request.version = 1 then .new else .update
  writeServerData serverKey request
  redis (.send ⟨kind, serverKey⟩)
  pure ⟨none, []⟩

/-- `PerformHeartbeat`. `CheckServerKey_HasRecentHeartbeat` always returns false. -/
def performHeartbeat (request : Request) : QRProg Response := do
  let serverKey ← getServerKeyFromRequest request
  -- state 3 registers a server that is still announced, too
  let register ←
    (if serverKey.length = 0 ∨ request.statechanged = 3 then pure true
    else isServerDeleted serverKey true)
  if register then
    match request.keys (ascii "gamename") with
    | none => pure ⟨some (ascii "No gamename supplied"), []⟩
    | some gamename =>
        if request.secretkey.length = 0 then pure ⟨some (ascii "No such gamename"), []⟩
        else registerServer request gamename
  else if request.statechanged = 2 then shutdownServer serverKey
  else updateServer request serverKey

/-- `GetCalculatedChallenge`. -/
def getCalculatedChallenge (serverKey : Bytes) : QRProg Bytes := do
  let reply ← redis (.hget serverKey .challenge)
  pure (stripQuotes (reply.getD []))

/-- `chopped_challenge`: the client's response, no longer than the expected one. -/
def choppedChallenge (expected response : Bytes) : Bytes :=
  if expected.length < response.length then response.take expected.length else response

/-- What `PerformValidate` does with a right response of a deleted server. -/
def acceptServer (request : Request) (serverKey : Bytes) : QRProg Unit := do
  setServerDeleted serverKey false (request.version ≠ 1)
  -- a server of version 1 is announced by its first update
  if request.version ≠ 1 then
    let _ ← incrNumHeartbeats serverKey
    redis (.send ⟨.new, serverKey⟩)

/-- `PerformValidate`, without an answer where the callback is not called. -/
def performValidate (request : Request) : QRProg (Option Response) := do
  let serverKey ← getServerKeyFromRequest request
  if serverKey = [] then pure (some ⟨some (ascii "Server not registered"), []⟩)
  else
    let expected ← getCalculatedChallenge serverKey
    if expected ≠ choppedChallenge expected request.gamename then
      pure (some ⟨some (ascii "Invalid challenge response"), serverKey⟩)
    else
      -- what the response was compared with is not read again
      let deleted ← isServerDeleted serverKey true
      if deleted then
        acceptServer request serverKey
        pure (some ⟨none, serverKey⟩)
      else if request.version = 1 then pure none
      else pure (some ⟨none, serverKey⟩)

/-- A task by the type of its request. -/
def perform (request : Request) : QRProg (Option Response) :=
  match request.type with
  | .heartbeat | .heartbeatClearExistingKeys => do
      let response ← performHeartbeat request
      pure (some response)
  | .validateServer => performValidate request

/-- A task that runs to completion. -/
def runTask (s : Store) (request : Request) : Store :=
  (run exec (perform request) s).2

end OpenSpy.QR
