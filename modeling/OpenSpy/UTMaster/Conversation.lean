import OpenSpy.UTMaster.Session

/-!
# What is said on a connection of the Unreal master

`step_moves` says once what an event can do to a peer. From it follow what a peer always is
(`Sound`), what it was sent while it is not deleted (`Live`), and what the event that deletes it may
send (`Closing`). `no_null_config` and `conversation_of_run` say so for whole connections.
-/

namespace OpenSpy.UTMaster

open Bytes MachineInt

/-- What a game server may be sent once it is approved. -/
def Config.ServerAnswer (config : Config) (gamestatsId : UInt32) (buffer : Bytes) : Prop :=
  buffer = serverGamestatsid gamestatsId ∧ gamestatsId ≠ 0xffffffff ∨
    ∃ version, newerPackages config version ≠ [] ∧
      buffer = packagesData (newerPackages config version)

/-- The request is one for the party of a configuration, and about no other host and game. -/
def Config.Allows (config : Config) (address : IPv4) : Request → Prop
  | .listServers _ => config.isServer = false
  | .heartbeat record =>
      config.isServer = true ∧ record.gameid = config.gameid ∧ record.address.ip = address
  | .deleteServer _ => config.isServer = true

namespace Peer

/-- The buffers that a peer is sent before it asks for something. -/
def opening (peer : Peer) : List Bytes :=
  let verified :=
    match peer.config, peer.state with
    | some config, .waitRequest =>
        if config.isServer then [detectedPorts peer.clientVersion]
        else if peer.clientVersion ≥ 3000 then [writeFString (ascii "VERIFIED")]
        else []
    | _, _ => []
  writeFString (ascii "111111111") ::
    match peer.config with
    | none => []
    | some _ => challengeResponse peer.config peer.clientVersion (ascii "APPROVED") :: verified

/-- The buffer of a server in the answer to a peer. -/
def IsRow (peer : Peer) (server : ServerRecord) (row : Bytes) : Prop :=
  ∃ flags, (peer.clientVersion ≠ 2226 → peer.getServerFlags server = some flags) ∧
    row = serverRow peer.clientVersion flags server

/-- The buffers that the last event of a connection may send to a peer. -/
inductive Closing (peer : Peer) : List Bytes → Prop where
  | nothing : Closing peer []
  | denied (hconfig : peer.config = none) :
      Closing peer [challengeResponse none peer.clientVersion (ascii "DENIED")]
  | motd (config : Config) (hconfig : peer.config = some config) (hclient : config.isServer = false)
      (hstate : peer.state = .waitRequest) : Closing peer [motdData config peer.clientVersion]
  | community (config : Config) (version : Int32) (hconfig : peer.config = some config)
      (hclient : config.isServer = false) (hstate : peer.state = .waitRequest) :
      Closing peer (communityData config version)
  | list (config : Config) (records : List ServerRecord) (rows : List Bytes)
      (hconfig : peer.config = some config) (hclient : config.isServer = false)
      (hstate : peer.state = .waitRequest) (hrows : List.Forall₂ peer.IsRow records rows) :
      Closing peer ((writeInt (.ofNat records.length) ++ [1]) :: rows)

/-- All that a step can do to a peer, but for the time and the lists that were answered. -/
inductive Moves (configs : List Config) (peer : Peer) : Peer → Prop where
  | idle : Moves configs peer peer
  | ended (timeout : Bool) : Moves configs peer (peer.delete timeout)
  | approved (config : Config) (clientVersion gamestatsId : UInt32) (hoffered : config ∈ configs)
      (hstate : peer.state = .waitChallengeResponse) :
      Moves configs peer ({ peer with
        config := some config
        clientVersion := clientVersion
        gamestatsId := gamestatsId }.sendChallengeAuthorization config)
  | opened (config : Config) (hconfig : peer.config = some config)
      (hstate : peer.state = .waitApprovedResponse) :
      Moves configs peer ({ peer with state := .waitRequest }.sendPacket
        (if config.isServer then detectedPorts peer.clientVersion
          else writeFString (ascii "VERIFIED")))
  | reported (config : Config) (record : ServerRecord) (hconfig : peer.config = some config)
      (hstate : peer.state = .waitRequest)
      (hallows : config.Allows peer.address (.heartbeat record)) :
      Moves configs peer
        ({ peer with serverAddress := record.address }.addRequest (.heartbeat record))
  | told (config : Config) (buffers : List Bytes) (hconfig : peer.config = some config)
      (hserver : config.isServer = true) (hstate : peer.state = .waitRequest)
      (hbuffers : ∀ buffer ∈ buffers, config.ServerAnswer peer.gamestatsId buffer) :
      Moves configs peer (buffers.foldl sendPacket peer)
  | asked (config : Config) (filters : List FilterProperties) (hconfig : peer.config = some config)
      (hclient : config.isServer = false) (hstate : peer.state = .waitRequest) :
      Moves configs peer (peer.addRequest (.listServers filters))
  | closes (closing : List Bytes) (hclosing : peer.Closing closing) :
      Moves configs peer ((closing.foldl sendPacket peer).delete false)

/-- What a peer always is: its configuration is known once it is approved and is one of those on
offer, and what it has requested is for this configuration. -/
structure Sound (configs : List Config) (address : IPv4) (peer : Peer) : Prop where
  known : peer.state = .waitChallengeResponse ↔ peer.config = none
  offered : ∀ config ∈ peer.config, config ∈ configs
  allowed : ∀ request ∈ peer.requests, ∃ config ∈ peer.config, config.Allows address request
  asked : ∀ filters, .listServers filters ∈ peer.requests → peer.state = .waitRequest
  verified : ∀ config ∈ peer.config, config.isServer = false →
    peer.state = .waitApprovedResponse → peer.clientVersion ≥ 3000
  address_eq : peer.address = address

/-- What a peer was sent while it is not deleted: its opening, and behind it, if it is a game
server, answers to its requests. -/
def Live (peer : Peer) : Prop :=
  ∃ answers, peer.sent = (peer.opening ++ answers).map packet ∧
    ∀ buffer ∈ answers, ∃ config ∈ peer.config, config.isServer = true ∧
      peer.state = .waitRequest ∧ config.ServerAnswer peer.gamestatsId buffer

section Moves

variable {configs : List Config} {address : IPv4} {undef : Int32} {peer next : Peer}

theorem send_packet_eq (peer : Peer) (buffer : Bytes) :
    peer.sendPacket buffer =
      { peer with
        sent := if peer.deleteFlag then peer.sent else peer.sent ++ [packet buffer] } := by
  unfold sendPacket
  split <;> rfl

/-- What is sent one after the other is all sent, unless the peer is deleted. -/
theorem send_packets_eq (peer : Peer) (buffers : List Bytes) :
    buffers.foldl sendPacket peer =
      { peer with
        sent := if peer.deleteFlag then peer.sent else peer.sent ++ buffers.map packet } := by
  induction buffers generalizing peer with
  | nil => cases hdelete : peer.deleteFlag <;> simp [← hdelete]
  | cons buffer buffers ih =>
      rw [List.foldl_cons, send_packet_eq, ih]
      cases peer.deleteFlag <;> simp

/-- The requests of a deletion. -/
def withdrawal (peer : Peer) : List Request :=
  match peer.config with
  | some config => if config.isServer then [.deleteServer peer.serverAddress] else []
  | none => []

theorem delete_eq (peer : Peer) (timeout : Bool) :
    peer.delete timeout =
      { peer with
        requests := peer.requests ++ peer.withdrawal
        timeoutFlag := timeout
        deleteFlag := true } := by
  have hwithdrawn : peer.deleteServer =
      { peer with requests := peer.requests ++ peer.withdrawal } := by
    unfold deleteServer
    split
    · next config hconfig =>
      have hrequests : peer.withdrawal =
          if config.isServer then [.deleteServer peer.serverAddress] else [] := by
        rw [withdrawal, hconfig]
      rw [hrequests]
      split
      · rfl
      · rw [List.append_nil]
    · next hconfig =>
      have hrequests : peer.withdrawal = [] := by rw [withdrawal, hconfig]
      rw [hrequests, List.append_nil]
  rw [delete, hwithdrawn]

theorem find_config_mem {clientName : Bytes} {config : Config}
    (h : findConfigByClientName configs clientName = some config) : config ∈ configs :=
  List.mem_of_find?_eq_some h

/-- An answer to a challenge is refused or approved. -/
theorem handle_challenge_response_moves (hconfig : peer.config = none)
    (hstate : peer.state = .waitChallengeResponse) (buffer : Buffer) :
    Moves configs peer (peer.handleChallengeResponse configs buffer) := by
  have hunset : { peer with config := none } = peer := by rw [← hconfig]
  unfold handleChallengeResponse
  dsimp only
  split
  · rw [hunset, sendChallengeResponse, hconfig]
    exact .closes _ (.denied hconfig)
  · next config hfound => exact .approved config _ _ (find_config_mem hfound) hstate

/-- A request for packages is answered with up to two buffers. -/
theorem handle_packages_version_moves {config : Config} (hconfig : peer.config = some config)
    (hserver : config.isServer = true) (hstate : peer.state = .waitRequest) (buffer : Buffer) :
    Moves configs peer (peer.handlePackagesVersion config buffer) := by
  obtain ⟨version, hversion⟩ : ∃ version, (readUInt buffer).1 = version := ⟨_, rfl⟩
  let ids := if peer.gamestatsId ≠ 0xffffffff then [serverGamestatsid peer.gamestatsId] else []
  let packages := if newerPackages config version = [] then []
    else [packagesData (newerPackages config version)]
  have hsent : peer.handlePackagesVersion config buffer =
      (ids ++ packages).foldl sendPacket peer := by
    unfold handlePackagesVersion
    simp only [hversion, ids, packages]
    split <;> split <;> rfl
  rw [hsent]
  refine .told config _ hconfig hserver hstate fun buffer hmem => ?_
  obtain hid | hpackages := List.mem_append.mp hmem
  · by_cases hnone : peer.gamestatsId = 0xffffffff
    · simp [ids, hnone] at hid
    · rw [show ids = [serverGamestatsid peer.gamestatsId] from if_pos hnone] at hid
      exact .inl ⟨List.mem_singleton.mp hid, hnone⟩
  · by_cases hnone : newerPackages config version = []
    · simp [packages, hnone] at hpackages
    · rw [show packages = [packagesData (newerPackages config version)] from if_neg hnone]
        at hpackages
      exact .inr ⟨version, hnone, List.mem_singleton.mp hpackages⟩

/-- The fields of a message leave the game and the address of a record. -/
theorem add_fields_frame (fields : List (Bytes × Bytes)) (record : ServerRecord) :
    (fields.foldl addField record).gameid = record.gameid ∧
      (fields.foldl addField record).address = record.address := by
  induction fields generalizing record with
  | nil => exact ⟨rfl, rfl⟩
  | cons field fields ih =>
      have hfield : (addField record field).gameid = record.gameid ∧
          (addField record field).address = record.address := by
        unfold addField
        split <;> exact ⟨rfl, rfl⟩
      obtain ⟨hgame, haddress⟩ := ih (addField record field)
      exact ⟨hgame.trans hfield.1, haddress.trans hfield.2⟩

/-- A command of a game server, with what an unknown one does. -/
theorem handle_server_command_moves {config : Config} (hconfig : peer.config = some config)
    (hserver : config.isServer = true) (hstate : peer.state = .waitRequest) (msgid : UInt8)
    (buffer : Buffer) :
    Moves configs peer
      ((peer.handleServerCommand undef config msgid buffer).getD (peer.delete false)) := by
  unfold handleServerCommand
  split
  · obtain ⟨hgame, haddress⟩ := add_fields_frame
      (readHeartbeat peer.clientVersion buffer).message.fields _
    exact .reported config _ hconfig hstate ⟨hserver, hgame, congrArg Address.ip haddress⟩
  · exact .idle
  · exact handle_packages_version_moves hconfig hserver hstate buffer
  · exact .ended false

/-- A command of a game client, with what an unknown one does. -/
theorem handle_client_command_moves {config : Config} (hconfig : peer.config = some config)
    (hclient : config.isServer = false) (hstate : peer.state = .waitRequest) (msgid : UInt8)
    (buffer : Buffer) :
    Moves configs peer
      ((peer.handleClientCommand config msgid buffer).getD (peer.delete false)) := by
  unfold handleClientCommand
  split
  · exact .asked config _ hconfig hclient hstate
  · rw [sendMotd, hclient]
    exact .closes _ (.motd config hconfig hclient hstate)
  · rw [handleCommunityData, hclient]
    exact .closes _ (.community config _ hconfig hclient hstate)
  · exact .ended false

/-- The flags of a record are known with the configuration. -/
theorem get_server_flags_is_some {config : Config} (hconfig : peer.config = some config)
    (record : ServerRecord) : ∃ flags, peer.getServerFlags record = some flags := by
  have hlatest : ∃ latest, peer.latestVersion record = some latest := by
    unfold latestVersion
    rw [hconfig]
    split <;> exact ⟨_, rfl⟩
  obtain ⟨latest, hlatest⟩ := hlatest
  unfold getServerFlags getServerFlagsUt2003
  rw [hlatest]
  split <;> exact ⟨_, rfl⟩

/-- The rows of a list are sent one after the other. -/
theorem send_server_rows_eq {config : Config} (hconfig : peer.config = some config)
    (records : List ServerRecord) :
    ∃ rows, List.Forall₂ peer.IsRow records rows ∧
      peer.sendServerRows records = some (rows.foldl sendPacket peer) := by
  induction records generalizing peer with
  | nil => exact ⟨[], .nil, rfl⟩
  | cons server records ih =>
      obtain ⟨flags, hflags⟩ := get_server_flags_is_some hconfig server
      obtain ⟨used, hused, hrow⟩ : ∃ used,
          (if peer.clientVersion = 2226 then some 0 else peer.getServerFlags server) = some used ∧
            (peer.clientVersion ≠ 2226 → peer.getServerFlags server = some used) := by
        by_cases hversion : peer.clientVersion = 2226
        · exact ⟨0, if_pos hversion, fun hne => absurd hversion hne⟩
        · exact ⟨flags, (if_neg hversion).trans hflags, fun _ => hflags⟩
      have hsame := send_packet_eq peer (serverRow peer.clientVersion used server)
      obtain ⟨rows, hrows, hsent⟩ :=
        @ih (peer.sendPacket (serverRow peer.clientVersion used server)) (by rw [hsame, hconfig])
      refine ⟨serverRow peer.clientVersion used server :: rows, .cons ⟨used, hrow, rfl⟩ ?_, ?_⟩
      · rw [hsame] at hrows
        exact hrows
      · rw [sendServerRows, hused, Option.bind_some, hsent]
        rfl

/-- The answer to a list of servers is the number of them and a row for each. -/
theorem on_get_server_list_eq {config : Config} (hconfig : peer.config = some config)
    (records : List ServerRecord) :
    ∃ rows, List.Forall₂ peer.IsRow records rows ∧
      peer.onGetServerList records =
        some ((((writeInt (.ofNat records.length) ++ [1]) :: rows).foldl sendPacket peer).delete
          false) := by
  have hsame := send_packet_eq peer (writeInt (.ofNat records.length) ++ [1])
  obtain ⟨rows, hrows, hsent⟩ :=
    @send_server_rows_eq (peer.sendPacket (writeInt (.ofNat records.length) ++ [1])) config
      (by rw [hsame, hconfig]) records
  rw [hsame] at hrows
  exact ⟨rows, hrows, by rw [onGetServerList, hsent]; rfl⟩

/-- The answer to a list of servers is the last that is sent. -/
theorem on_get_server_list_moves {config : Config} (hconfig : peer.config = some config)
    (hclient : config.isServer = false) (hstate : peer.state = .waitRequest)
    (records : List ServerRecord) :
    ∃ next, peer.onGetServerList records = some next ∧ Moves configs peer next := by
  obtain ⟨rows, hrows, hsent⟩ := on_get_server_list_eq hconfig records
  exact ⟨_, hsent, .closes _ (.list config records rows hconfig hclient hstate hrows)⟩

/-- A message is handled without the use of a null pointer. -/
theorem handle_message_moves (h : Sound configs address peer) (buffer : Buffer) :
    ∃ next, peer.handleMessage configs undef buffer = some next ∧ Moves configs peer next := by
  unfold handleMessage
  split
  · next hstate => exact ⟨_, rfl, handle_challenge_response_moves (h.known.mp hstate) hstate buffer⟩
  · next hstate =>
    split
    · exact ⟨_, rfl, .ended false⟩
    · next config hconfig =>
      refine ⟨_, rfl, ?_⟩
      have hmoves := @Moves.opened configs peer config hconfig hstate
      cases hserver : config.isServer <;> rw [hserver] at hmoves <;> exact hmoves
  · next hstate =>
    obtain ⟨config, hconfig⟩ : ∃ config, peer.config = some config := by
      rw [← Option.ne_none_iff_exists']
      intro hnone
      rw [h.known.mpr hnone] at hstate
      cases hstate
    dsimp only
    rw [hconfig]
    refine ⟨_, rfl, ?_⟩
    show Moves configs peer ((if config.isServer then _ else _ : Option Peer).getD _)
    split
    · next hserver => exact handle_server_command_moves hconfig hserver hstate _ _
    · next hclient =>
      exact handle_client_command_moves hconfig (Bool.eq_false_iff.mpr hclient) hstate _ _

/-- The time and the lists that were answered do not matter. -/
theorem Sound.seen (h : Sound configs address peer) (now : Int) (answered : Nat) :
    Sound configs address { peer with lastRecv := now, answered := answered } :=
  ⟨h.known, h.offered, h.allowed, h.asked, h.verified, h.address_eq⟩

/-- An event does one of the moves. -/
theorem step_moves (undef : Int32) (h : Sound configs address peer) (event : SessionEvent) :
    ∃ now answered next, (answered = peer.answered ∨ next.deleteFlag = true) ∧
      peer.step configs undef event = some next ∧
      Moves configs { peer with lastRecv := now, answered := answered } next := by
  cases event with
  | read now chunk =>
      rw [step]
      cases messageOf chunk with
      | none => exact ⟨now, peer.answered, _, .inl rfl, rfl, .idle⟩
      | some buffer =>
          obtain ⟨next, hnext, hmoves⟩ := handle_message_moves (h.seen now peer.answered) buffer
          exact ⟨now, peer.answered, next, .inl rfl, hnext, hmoves⟩
  | closed => exact ⟨peer.lastRecv, peer.answered, _, .inl rfl, rfl, .ended false⟩
  | think now =>
      refine ⟨peer.lastRecv, peer.answered, _, .inl rfl, rfl, ?_⟩
      split
      · exact .idle
      · split
        · exact .ended true
        · exact .idle
  | listed records =>
      rw [step]
      split
      · next hcount =>
        obtain ⟨request, hmem, hlist⟩ :=
          List.countP_pos_iff.mp (Nat.lt_of_le_of_lt (Nat.zero_le _) hcount)
        cases request with
        | listServers filters =>
            obtain ⟨config, hconfig, hclient⟩ := h.allowed _ hmem
            obtain ⟨next, hnext, hmoves⟩ := @on_get_server_list_moves configs
              { peer with answered := peer.answered + 1 } config hconfig hclient (h.asked _ hmem)
              records
            have hdeleted : next.deleteFlag = true := by
              rw [onGetServerList, Option.map_eq_some_iff] at hnext
              obtain ⟨last, -, rfl⟩ := hnext
              rw [delete_eq]
            exact ⟨peer.lastRecv, peer.answered + 1, next, .inr hdeleted, hnext, hmoves⟩
        | heartbeat record => cases hlist
        | deleteServer address => cases hlist
      · exact ⟨peer.lastRecv, peer.answered, peer, .inl rfl, rfl, .idle⟩

theorem not_waiting {config : Config} (h : Sound configs address peer)
    (hconfig : peer.config = some config) : peer.state ≠ .waitChallengeResponse := by
  intro hstate
  rw [h.known.mp hstate] at hconfig
  cases hconfig

/-- A deletion requests nothing that the configuration does not allow. -/
theorem withdrawal_allowed (address : IPv4) {request : Request}
    (hmem : request ∈ peer.withdrawal) :
    request.isList = false ∧ ∃ config ∈ peer.config, config.Allows address request := by
  unfold withdrawal at hmem
  split at hmem
  · next config hconfig =>
    split at hmem
    · next hserver =>
      rw [List.mem_singleton.mp hmem]
      exact ⟨rfl, config, hconfig, hserver⟩
    · cases hmem
  · cases hmem

/-- A deletion keeps a peer as it must be. -/
theorem Sound.delete (h : Sound configs address peer) (timeout : Bool) :
    Sound configs address (peer.delete timeout) := by
  rw [delete_eq]
  refine ⟨h.known, h.offered, fun request hmem => ?_, fun filters hmem => ?_, h.verified,
    h.address_eq⟩
  · obtain hbefore | hadded := List.mem_append.mp hmem
    · exact h.allowed request hbefore
    · exact (withdrawal_allowed address hadded).2
  · obtain hbefore | hadded := List.mem_append.mp hmem
    · exact h.asked filters hbefore
    · exact absurd (withdrawal_allowed address hadded).1 (by simp [Request.isList])

/-- Packets that are sent keep a peer as it must be. -/
theorem Sound.send (h : Sound configs address peer) (buffers : List Bytes) :
    Sound configs address (buffers.foldl sendPacket peer) := by
  rw [send_packets_eq]
  exact ⟨h.known, h.offered, h.allowed, h.asked, h.verified, h.address_eq⟩

/-- There are no requests before the configuration is known. -/
theorem Sound.no_requests (h : Sound configs address peer) (hconfig : peer.config = none) :
    peer.requests = [] := by
  refine List.eq_nil_iff_forall_not_mem.mpr fun request hmem => ?_
  obtain ⟨config, hknown, -⟩ := h.allowed request hmem
  rw [hconfig] at hknown
  cases hknown

/-- A request that the configuration allows keeps a peer as it must be. -/
theorem Sound.add_request (h : Sound configs address peer) {config : Config} {request : Request}
    (hconfig : peer.config = some config) (hstate : peer.state = .waitRequest)
    (hallows : config.Allows address request) :
    Sound configs address (peer.addRequest request) := by
  refine ⟨h.known, h.offered, fun other hmem => ?_, fun _ _ => hstate, h.verified, h.address_eq⟩
  obtain hbefore | hadded := List.mem_append.mp hmem
  · exact h.allowed other hbefore
  · rw [List.mem_singleton.mp hadded]
    exact ⟨config, hconfig, hallows⟩

/-- Every move keeps a peer as it must be. -/
theorem Moves.sound (hmoves : Moves configs peer next) (h : Sound configs address peer) :
    Sound configs address next := by
  cases hmoves with
  | idle => exact h
  | ended timeout => exact h.delete timeout
  | approved config clientVersion gamestatsId hoffered hstate =>
      have hrequests := h.no_requests (h.known.mp hstate)
      obtain ⟨state, hset⟩ : ∃ state, (if clientVersion ≥ 3000 || config.isServer then
        ConnectionState.waitApprovedResponse else .waitRequest) = state := ⟨_, rfl⟩
      have hknown : Sound configs address { peer with
          config := some config
          clientVersion := clientVersion
          gamestatsId := gamestatsId
          state := state } := by
        refine ⟨iff_of_false ?_ (Option.some_ne_none config), ?_, fun request hmem => ?_,
          fun filters hmem => ?_, ?_, h.address_eq⟩
        · rw [← hset]
          split <;> exact ConnectionState.noConfusion
        · intro other hother
          exact Option.some.inj hother ▸ hoffered
        · exact absurd (hrequests ▸ hmem) List.not_mem_nil
        · exact absurd (hrequests ▸ hmem) List.not_mem_nil
        · intro other hother hclient happroved
          obtain rfl : config = other := Option.some.inj hother
          rw [hclient, Bool.or_false] at hset
          by_contra hversion
          rw [if_neg (by simpa using hversion)] at hset
          exact ConnectionState.noConfusion (hset.trans happroved)
      rw [sendChallengeAuthorization, hset]
      exact hknown.send [_]
  | opened config hconfig hstate =>
      have hopen : Sound configs address { peer with state := .waitRequest } :=
        ⟨iff_of_false (by simp) (by simp [hconfig]), h.offered, h.allowed, fun _ _ => rfl,
          fun _ _ _ happroved => ConnectionState.noConfusion happroved, h.address_eq⟩
      exact hopen.send [_]
  | reported config record hconfig hstate hallows =>
      have hmoved : Sound configs address { peer with serverAddress := record.address } :=
        ⟨h.known, h.offered, h.allowed, h.asked, h.verified, h.address_eq⟩
      exact hmoved.add_request hconfig hstate (h.address_eq ▸ hallows)
  | told config buffers hconfig hserver hstate hbuffers => exact h.send buffers
  | asked config filters hconfig hclient hstate => exact h.add_request hconfig hstate hclient
  | closes closing hclosing => exact (h.send closing).delete false

/-- A configuration that is known stays, and with it the version of the other side. -/
theorem Moves.config_eq (hmoves : Moves configs peer next) (h : Sound configs address peer)
    {config : Config} (hconfig : peer.config = some config) :
    next.config = some config ∧ next.clientVersion = peer.clientVersion := by
  have hstate := not_waiting h hconfig
  cases hmoves with
  | idle => exact ⟨hconfig, rfl⟩
  | ended timeout =>
      rw [delete_eq]
      exact ⟨hconfig, rfl⟩
  | approved other clientVersion gamestatsId hoffered hwaiting => exact absurd hwaiting hstate
  | opened other hother happroved =>
      rw [send_packet_eq]
      exact ⟨hconfig, rfl⟩
  | reported other record hother hstate hallows => exact ⟨hconfig, rfl⟩
  | told other buffers hother hserver hstate hbuffers =>
      rw [send_packets_eq]
      exact ⟨hconfig, rfl⟩
  | asked other filters hother hclient hstate => exact ⟨hconfig, rfl⟩
  | closes closing hclosing =>
      rw [delete_eq, send_packets_eq]
      exact ⟨hconfig, rfl⟩

/-- A move answers no list by itself, and nothing brings a peer back that is deleted. -/
theorem Moves.answered_eq (hmoves : Moves configs peer next) :
    next.answered = peer.answered ∧ (next.deleteFlag = false → peer.deleteFlag = false) := by
  cases hmoves with
  | idle => exact ⟨rfl, id⟩
  | ended timeout =>
      rw [delete_eq]
      exact ⟨rfl, fun hopen => absurd hopen Bool.noConfusion⟩
  | approved other clientVersion gamestatsId hoffered hwaiting =>
      rw [sendChallengeAuthorization, sendChallengeResponse, send_packet_eq]
      exact ⟨rfl, id⟩
  | opened other hother happroved =>
      rw [send_packet_eq]
      exact ⟨rfl, id⟩
  | reported other record hother hstate hallows => exact ⟨rfl, id⟩
  | told other buffers hother hserver hstate hbuffers =>
      rw [send_packets_eq]
      exact ⟨rfl, id⟩
  | asked other filters hother hclient hstate => exact ⟨rfl, id⟩
  | closes closing hclosing =>
      rw [delete_eq, send_packets_eq]
      exact ⟨rfl, fun hopen => absurd hopen Bool.noConfusion⟩

theorem Closing.unseen {now : Int} {answered : Nat} {closing : List Bytes}
    (h : Closing { peer with lastRecv := now, answered := answered } closing) :
    peer.Closing closing := by
  cases h with
  | nothing => exact .nothing
  | denied hconfig => exact .denied hconfig
  | motd config hconfig hclient hstate => exact .motd config hconfig hclient hstate
  | community config version hconfig hclient hstate =>
      exact .community config version hconfig hclient hstate
  | list config records rows hconfig hclient hstate hrows =>
      exact .list config records rows hconfig hclient hstate hrows

/-- What is sent to a peer, and whether it is deleted, by a move. A peer that is deleted is sent
nothing, and one that is not is sent what closes its connection, if it is deleted then. -/
theorem Moves.sent_eq (hmoves : Moves configs peer next) :
    if peer.deleteFlag then next.sent = peer.sent ∧ next.deleteFlag = true
    else next.deleteFlag = true →
      ∃ closing, peer.Closing closing ∧ next.sent = peer.sent ++ closing.map packet := by
  split
  · next hdelete =>
    cases hmoves with
    | idle => exact ⟨rfl, hdelete⟩
    | ended timeout => exact ⟨by rw [delete_eq], by rw [delete_eq]⟩
    | approved config clientVersion gamestatsId hoffered hwaiting =>
        rw [sendChallengeAuthorization, sendChallengeResponse, send_packet_eq]
        exact ⟨if_pos hdelete, hdelete⟩
    | opened config hconfig hstate =>
        rw [send_packet_eq]
        exact ⟨if_pos hdelete, hdelete⟩
    | reported config record hconfig hallows => exact ⟨rfl, hdelete⟩
    | told config buffers hconfig hserver hstate hbuffers =>
        rw [send_packets_eq]
        exact ⟨if_pos hdelete, hdelete⟩
    | asked config filters hconfig hclient hstate => exact ⟨rfl, hdelete⟩
    | closes closing hclosing =>
        rw [delete_eq, send_packets_eq]
        exact ⟨if_pos hdelete, rfl⟩
  · next hdelete =>
    intro hnext
    cases hmoves with
    | idle => exact absurd hnext hdelete
    | ended timeout => exact ⟨[], .nothing, by rw [delete_eq]; simp⟩
    | approved config clientVersion gamestatsId hoffered hwaiting =>
        rw [sendChallengeAuthorization, sendChallengeResponse, send_packet_eq] at hnext
        exact absurd hnext hdelete
    | opened config hconfig hstate =>
        rw [send_packet_eq] at hnext
        exact absurd hnext hdelete
    | reported config record hconfig hallows => exact absurd hnext hdelete
    | told config buffers hconfig hserver hstate hbuffers =>
        rw [send_packets_eq] at hnext
        exact absurd hnext hdelete
    | asked config filters hconfig hclient hstate => exact absurd hnext hdelete
    | closes closing hclosing =>
        refine ⟨closing, hclosing, ?_⟩
        rw [delete_eq, send_packets_eq]
        exact if_neg hdelete

/-- A peer that asks for something has no answers yet in another state. -/
theorem Live.sent_opening (h : peer.Live)
    (hearly : peer.config = none ∨ peer.state ≠ .waitRequest) :
    peer.sent = peer.opening.map packet := by
  obtain ⟨answers, hsent, hanswers⟩ := h
  have hnone : answers = [] := by
    refine List.eq_nil_iff_forall_not_mem.mpr fun buffer hmem => ?_
    obtain ⟨config, hconfig, -, hstate, -⟩ := hanswers buffer hmem
    obtain hunset | hother := hearly
    · rw [hunset] at hconfig
      cases hconfig
    · exact hother hstate
  rw [hsent, hnone, List.append_nil]

/-- A move that does not delete a peer leaves it with an opening and its answers. -/
theorem Moves.live (hmoves : Moves configs peer next) (h : Sound configs address peer)
    (hlive : peer.Live) (hdelete : next.deleteFlag = false) : next.Live := by
  have hbefore : peer.deleteFlag = false := by
    by_contra hset
    have hsent := hmoves.sent_eq
    rw [if_pos (by simpa using hset), hdelete] at hsent
    exact Bool.false_ne_true hsent.2
  cases hmoves with
  | idle => exact hlive
  | ended timeout =>
      rw [delete_eq] at hdelete
      cases hdelete
  | approved config clientVersion gamestatsId hoffered hstate =>
      have hconfig := h.known.mp hstate
      have hsent := hlive.sent_opening (.inl hconfig)
      rw [sendChallengeAuthorization, sendChallengeResponse, send_packet_eq]
      refine ⟨[], ?_, fun buffer hmem => absurd hmem List.not_mem_nil⟩
      simp only [hbefore, Bool.false_eq_true, if_false, hsent, opening, hconfig, List.append_nil,
        List.map_cons, List.map_nil, List.singleton_append, List.cons.injEq, true_and]
      cases hserver : config.isServer <;> by_cases hversion : clientVersion ≥ 3000 <;>
        simp [hserver, hversion]
  | opened config hconfig hstate =>
      have hwaiting : peer.state ≠ .waitRequest := by
        rw [hstate]
        exact ConnectionState.noConfusion
      have hsent := hlive.sent_opening (.inr hwaiting)
      rw [send_packet_eq]
      refine ⟨[], ?_, fun buffer hmem => absurd hmem List.not_mem_nil⟩
      simp only [hbefore, Bool.false_eq_true, if_false, hsent, opening, hconfig, hstate,
        List.append_nil, List.map_cons, List.map_nil, List.cons_append, List.nil_append]
      cases hserver : config.isServer with
      | true => rfl
      | false =>
          have hversion := h.verified config hconfig hserver hstate
          simp [hversion]
  | reported config record hconfig hstate hallows => exact hlive
  | told config buffers hconfig hserver hstate hbuffers =>
      obtain ⟨answers, hsent, hanswers⟩ := hlive
      rw [send_packets_eq, hbefore]
      refine ⟨answers ++ buffers, ?_, fun buffer hmem => ?_⟩
      · show peer.sent ++ buffers.map packet = (peer.opening ++ (answers ++ buffers)).map packet
        rw [hsent, ← List.append_assoc, ← List.map_append]
      · obtain hold | hnew := List.mem_append.mp hmem
        · exact hanswers buffer hold
        · exact ⟨config, hconfig, hserver, hstate, hbuffers buffer hnew⟩
  | asked config filters hconfig hclient hstate => exact hlive
  | closes closing hclosing =>
      rw [delete_eq] at hdelete
      cases hdelete

/-- Requests stay in the queue. -/
theorem Moves.requests_prefix (hmoves : Moves configs peer next) :
    peer.requests <+: next.requests := by
  cases hmoves with
  | idle => exact List.prefix_refl _
  | ended timeout =>
      rw [delete_eq]
      exact List.prefix_append _ _
  | approved config clientVersion gamestatsId hoffered hstate =>
      rw [sendChallengeAuthorization, sendChallengeResponse, send_packet_eq]
  | opened config hconfig hstate => rw [send_packet_eq]
  | reported config record hconfig hstate hallows => exact List.prefix_append _ _
  | told config buffers hconfig hserver hstate hbuffers => rw [send_packets_eq]
  | asked config filters hconfig hclient hstate => exact List.prefix_append _ _
  | closes closing hclosing =>
      rw [delete_eq, send_packets_eq]
      exact List.prefix_append _ _

end Moves

section Runs

variable {configs : List Config} {address : IPv4} {undef : Int32} {peer next : Peer}

theorem connected_sound (now : Int) (clientVersion gamestatsId : UInt32) :
    Sound configs address (connected address now clientVersion gamestatsId) :=
  ⟨iff_of_true rfl rfl, fun _ hmem => absurd hmem (Option.not_mem_none _),
    fun _ hmem => absurd hmem List.not_mem_nil, fun _ hmem => absurd hmem List.not_mem_nil,
    fun _ hmem => absurd hmem (Option.not_mem_none _), rfl⟩

theorem connected_live (now : Int) (clientVersion gamestatsId : UInt32) :
    (connected address now clientVersion gamestatsId).Live :=
  ⟨[], rfl, fun _ hmem => absurd hmem List.not_mem_nil⟩

/-- The steps of a run, from its end. -/
theorem run_concat (events : List SessionEvent) (event : SessionEvent) :
    peer.run configs undef (events ++ [event]) =
      (peer.run configs undef events).bind fun last => last.step configs undef event := by
  simp [run]

/-- A run goes on, and leaves a peer as it must be. -/
theorem run_sound (undef : Int32) (h : Sound configs address peer) (events : List SessionEvent) :
    ∃ next, peer.run configs undef events = some next ∧ Sound configs address next := by
  induction events using List.reverseRecOn with
  | nil => exact ⟨peer, rfl, h⟩
  | append_singleton events event ih =>
      obtain ⟨last, hrun, hlast⟩ := ih
      obtain ⟨now, answered, next, -, hstep, hmoves⟩ := step_moves undef hlast event
      exact ⟨next, by rw [run_concat, hrun, Option.bind_some, hstep],
        hmoves.sound (hlast.seen now answered)⟩

/-- A configuration that is known, the version and the requests that are queued stay over a run. -/
theorem run_keeps_config (h : Sound configs address peer) {config : Config}
    (hconfig : peer.config = some config) (events : List SessionEvent)
    (hrun : peer.run configs undef events = some next) :
    next.config = some config ∧ next.clientVersion = peer.clientVersion ∧
      peer.requests <+: next.requests := by
  induction events using List.reverseRecOn generalizing next with
  | nil =>
      obtain rfl : peer = next := Option.some.inj hrun
      exact ⟨hconfig, rfl, List.prefix_refl _⟩
  | append_singleton events event ih =>
      obtain ⟨last, hbefore, hlast⟩ := run_sound undef h events
      obtain ⟨hknown, hversion, hrequests⟩ := ih hbefore
      obtain ⟨now, answered, moved, -, hstep, hmoves⟩ := step_moves undef hlast event
      rw [run_concat, hbefore, Option.bind_some, hstep] at hrun
      obtain rfl : moved = next := Option.some.inj hrun
      obtain ⟨hkept, hsame⟩ := hmoves.config_eq (hlast.seen now answered) hknown
      exact ⟨hkept, hsame.trans hversion, hrequests.trans hmoves.requests_prefix⟩

/-- A peer that is not deleted has had no answer to a list. -/
theorem run_unanswered (h : Sound configs address peer)
    (hstart : peer.deleteFlag = false → peer.answered = 0) (events : List SessionEvent)
    (hrun : peer.run configs undef events = some next) :
    next.deleteFlag = false → next.answered = 0 := by
  induction events using List.reverseRecOn generalizing next with
  | nil =>
      obtain rfl : peer = next := Option.some.inj hrun
      exact hstart
  | append_singleton events event ih =>
      obtain ⟨last, hbefore, hlast⟩ := run_sound undef h events
      obtain ⟨now, answered, moved, hanswered, hstep, hmoves⟩ := step_moves undef hlast event
      rw [run_concat, hbefore, Option.bind_some, hstep] at hrun
      obtain rfl : moved = next := Option.some.inj hrun
      intro hopen
      obtain ⟨hsame, hstays⟩ := hmoves.answered_eq
      obtain hkept | hdeleted := hanswered
      · have hlastOpen : last.deleteFlag = false := hstays hopen
        exact hsame.trans (hkept.trans (ih hbefore hlastOpen))
      · rw [hdeleted] at hopen
        cases hopen

end Runs

end Peer

/-- Whatever a connection reads and whenever it ends, no handler uses a configuration that is not
there: nothing is requested before the name of the client has been found among the configurations on
offer, what is requested from then on is what this configuration allows, and neither the
configuration nor the requests change any more. -/
theorem no_null_config (configs : List Config) (undef : Int32) (address : IPv4) (now : Int)
    (clientVersion gamestatsId : UInt32) (events more : List SessionEvent) :
    ∃ peer last, (connected address now clientVersion gamestatsId).run configs undef events =
        some peer ∧
      peer.run configs undef more = some last ∧
      (peer.state = .waitChallengeResponse ↔ peer.config = none) ∧
      (∀ config ∈ peer.config, config ∈ configs ∧ last.config = some config) ∧
      peer.requests <+: last.requests ∧
      ∀ request ∈ peer.requests, ∃ config ∈ peer.config, config.Allows address request := by
  have hstart : Peer.Sound configs address (connected address now clientVersion gamestatsId) :=
    Peer.connected_sound now clientVersion gamestatsId
  obtain ⟨peer, hrun, hsound⟩ := Peer.run_sound undef hstart events
  obtain ⟨last, hmore, hlast⟩ := Peer.run_sound undef hsound more
  refine ⟨peer, last, hrun, hmore, hsound.known, fun config hconfig =>
    ⟨hsound.offered config hconfig, (Peer.run_keeps_config hsound hconfig more hmore).1⟩, ?_,
    hsound.allowed⟩
  cases hconfig : peer.config with
  | none =>
      rw [hsound.no_requests hconfig]
      exact List.nil_prefix
  | some config => exact (Peer.run_keeps_config hsound hconfig more hmore).2.2

/-- What a peer is sent over a whole connection. While it is not deleted these are its opening and,
for a game server, answers. The event that deletes it may send it one of the things that close a
connection, and after that it is sent nothing. -/
theorem conversation_of_run (configs : List Config) (undef : Int32) (address : IPv4) (now : Int)
    (clientVersion gamestatsId : UInt32) (events : List SessionEvent) :
    let start := connected address now clientVersion gamestatsId
    ∃ peer, start.run configs undef events = some peer ∧
      if peer.deleteFlag then
        ∃ early event late before closing, events = early ++ event :: late ∧
          start.run configs undef early = some before ∧ before.deleteFlag = false ∧ before.Live ∧
          before.Closing closing ∧ peer.sent = before.sent ++ closing.map packet
      else peer.Live := by
  intro start
  have hstart : Peer.Sound configs address start :=
    Peer.connected_sound now clientVersion gamestatsId
  induction events using List.reverseRecOn with
  | nil => exact ⟨start, rfl, Peer.connected_live now clientVersion gamestatsId⟩
  | append_singleton events event ih =>
      obtain ⟨last, hrun, hconversation⟩ := ih
      obtain ⟨peer, hpeer, hlast⟩ := Peer.run_sound undef hstart events
      obtain rfl : peer = last := Option.some.inj (hpeer.symm.trans hrun)
      obtain ⟨seen, answered, next, -, hstep, hmoves⟩ := Peer.step_moves undef hlast event
      have hsent := hmoves.sent_eq
      refine ⟨next, by rw [Peer.run_concat, hrun, Option.bind_some, hstep], ?_⟩
      cases hdelete : peer.deleteFlag with
      | true =>
          rw [if_pos hdelete] at hconversation
          obtain ⟨hsame, hdeleted⟩ : next.sent = peer.sent ∧ next.deleteFlag = true := by
            rwa [if_pos hdelete] at hsent
          obtain ⟨early, other, late, before, closing, rfl, hbefore, hopen, hlive, hclosing,
            hkept⟩ := hconversation
          rw [if_pos hdeleted]
          exact ⟨early, other, late ++ [event], before, closing, by simp, hbefore, hopen, hlive,
            hclosing, hsame.trans hkept⟩
      | false =>
          have hopen : ¬ peer.deleteFlag = true := by simp [hdelete]
          rw [if_neg hopen] at hconversation
          rw [if_neg hopen] at hsent
          split
          · next hdeleted =>
            obtain ⟨closing, hclosing, hkept⟩ := hsent hdeleted
            refine ⟨events, event, [], peer, closing, rfl, hrun, hdelete, hconversation, ?_, hkept⟩
            exact hclosing.unseen
          · next hnext =>
            exact hmoves.live (hlast.seen seen answered) hconversation (by simpa using hnext)

end OpenSpy.UTMaster
