import OpenSpy.GP.Peer
import OpenSpy.Library.Runs

/-!
# The buddy and block lists of a GP peer

A peer holds the statuses of its buddies, the profiles that its user blocked and those that
blocked its user. List replies fill them, messages of other peers and commands edit them, and
`inform_status_update` reads them to decide what it shows. It also writes: a profile in either
block list is pushed onto `m_blocks` once more. `lists_right_iff` says that the lists hold what
the users did exactly as long as no event informs about such a profile.
-/

namespace OpenSpy.GP

open Bytes Runs

/-- `status_str[0] != 0`. -/
def hasText (text : Bytes) : Bool :=
  text.headD 0 != 0

/-- `htonl(address.ip)`. -/
def htonl (ip : IPv4) : Nat :=
  ip.a.toNat * 2 ^ 24 + ip.b.toNat * 2 ^ 16 + ip.c.toNat * 2 ^ 8 + ip.d.toNat

/-- What a status packet says behind the status. The quiet flags go out as a character. -/
def statusDetails (status : GPStatus) : Bytes :=
  (if hasText status.statusStr then ascii "|ss|" ++ status.statusStr else []) ++
  (if hasText status.locationStr then ascii "|ls|" ++ status.locationStr else []) ++
  (if htonl status.ip ≠ 0 then
    ascii "|ip|" ++ printNat (htonl status.ip) ++ ascii "|p|" ++ printNat status.port.toNat
  else []) ++
  (if status.quietFlags ≠ 0 then ascii "|qm|" ++ [status.quietFlags] else [])

/-- The packet of `inform_status_update`. -/
def statusPacket (profileid : Int) (status : GPStatus) : Bytes :=
  ascii "\\bm\\100\\f\\" ++ printInt profileid ++ ascii "\\msg\\|s|" ++
    (printInt status.status ++ statusDetails status)

/-- The number of entries of a list reply, and the ids with commas between them. -/
def listPacket (name : Bytes) (results : List Int) : Bytes :=
  ascii "\\" ++ name ++ ascii "\\" ++ printNat results.length ++ ascii "\\list\\" ++
    (results.flatMap fun id => printInt id ++ ascii ",").dropLast

/-- What a message of a buddy says for itself, signed. -/
def signedMessage (type fromProfileid : Int) (text : Bytes) : Bytes :=
  ascii "\\bm\\" ++ printInt type ++ ascii "\\f\\" ++ printInt fromProfileid ++ ascii "\\msg\\" ++
    text ++ ascii "|signed|d41d8cd98f00b204e9800998ecf8427e"

namespace Peer

variable (peer : Peer)

/-- `is_blocked` of `inform_status_update`. -/
def isBlocked (profileid : Int) : Bool :=
  peer.blocks.contains profileid || peer.blockedBy.contains profileid

/-- `Peer::inform_status_update`. -/
def informStatusUpdate (profileid : Int) (status : GPStatus) (noUpdate : Bool) : Peer :=
  let isBlocked := peer.isBlocked profileid
  if (peer.buddies.find? profileid).isSome || isBlocked then
    let buddies := if noUpdate then peer.buddies else peer.buddies.insert profileid status
    let blocks := if isBlocked then peer.blocks ++ [profileid] else peer.blocks
    let status := if status.status = gpOffline || isBlocked then gpDefaultStatus else status
    { peer with buddies := buddies, blocks := blocks }.sendPacket (statusPacket profileid status)
  else peer

/-- `Peer::m_session_handle_update`. -/
def sessionHandleUpdate (results : OrderedMap Int GPStatus) : Peer :=
  results.entries.foldl (fun peer entry => peer.informStatusUpdate entry.1 entry.2 false) peer

/-- The loop body of `send_list_status`. -/
def sendStatusOf (profileid : Int) : Peer :=
  match peer.buddies.find? profileid with
  | some status => peer.informStatusUpdate profileid status true
  | none => peer.informStatusUpdate profileid gpDefaultStatus true

/-- `Peer::send_list_status`. -/
def sendListStatus : Peer :=
  if !peer.gotBlocks || !peer.gotBuddies then peer
  else (peer.blocks ++ peer.blockedBy ++ peer.buddies.keys).foldl sendStatusOf peer

/-- `Peer::m_block_list_lookup_callback`. -/
def blockListLookupCallback (results : List Int) : Peer :=
  let peer :=
    if results.length > 0 then
      { peer with blocks := peer.blocks ++ results }.sendPacket (listPacket (ascii "blk") results)
    else peer
  { peer with gotBlocks := true }.sendListStatus

/-- The loop of `m_buddy_list_lookup_callback`. A profile without an entry in `status_map` has
status zero, which is `GP_OFFLINE`. -/
def addBuddies (statusMap : OrderedMap Int GPStatus) (results : List Int) : Peer :=
  results.foldl (fun peer id =>
    let status := (statusMap.find? id).getD gpDefaultStatus
    let status := if status.status = gpOffline then gpDefaultStatus else status
    { peer with buddies := peer.buddies.insert id status }) peer

/-- `Peer::m_buddy_list_lookup_callback`. -/
def buddyListLookupCallback (results : List Int) (statusMap : OrderedMap Int GPStatus) : Peer :=
  let peer :=
    if results.length > 0 then
      (peer.addBuddies statusMap results).sendPacket (listPacket (ascii "bdy") results)
    else peer
  { peer with gotBuddies := true }.sendListStatus

/-- The end of the next two functions: a buddy is shown as it is now. -/
def informBuddy (fromProfileid : Int) : Peer :=
  match peer.buddies.find? fromProfileid with
  | some status => peer.informStatusUpdate fromProfileid status true
  | none => peer

/-- `Peer::send_user_blocked`. -/
def sendUserBlocked (fromProfileid : Int) : Peer :=
  if peer.blockedBy.contains fromProfileid then peer
  else { peer with blockedBy := peer.blockedBy ++ [fromProfileid] }.informBuddy fromProfileid

/-- `Peer::send_user_block_deleted`. -/
def sendUserBlockDeleted (fromProfileid : Int) : Peer :=
  if peer.blockedBy.contains fromProfileid then
    { peer with blockedBy := peer.blockedBy.erase fromProfileid }.informBuddy fromProfileid
  else peer

/-- `Peer::send_authorize_add`. -/
def sendAuthorizeAdd (fromProfileid toProfileid : Int) (silent : Bool) : Peer :=
  if !silent && peer.profileId == toProfileid then
    ({ peer with buddies := peer.buddies.insert fromProfileid gpDefaultStatus }.addRequest
      (.lookupBuddyStatus fromProfileid)).sendPacket
      (signedMessage 4 fromProfileid
        (ascii "I have authorized your request to add me to your list"))
  else peer

/-- `Peer::send_revoke_message`. -/
def sendRevokeMessage (fromProfileid dateUnixTimestamp : Int) : Peer :=
  ({ peer with buddies := peer.buddies.erase fromProfileid }.informStatusUpdate fromProfileid
    gpDefaultStatus true).sendPacket
    (signedMessage 6 fromProfileid (ascii "I have revoked you from my list.") ++
      if dateUnixTimestamp ≠ 0 then ascii "\\date\\" ++ printInt dateUnixTimestamp else [])

/-- `Peer::handle_addblock`. -/
def handleAddblock (dataParser : List (Bytes × Bytes)) : Peer :=
  if hasKey dataParser (ascii "profileid") then
    let profileid := getValueInt dataParser (ascii "profileid")
    if peer.blocks.contains profileid then peer.sendError .addblockAlreadyBlocked []
    else { peer with blocks := peer.blocks ++ [profileid] }.addRequest
      (.addBlock peer.profileId profileid)
  else peer.sendError .parse []

/-- `Peer::handle_removeblock`. -/
def handleRemoveblock (dataParser : List (Bytes × Bytes)) : Peer :=
  if hasKey dataParser (ascii "profileid") then
    let profileid := getValueInt dataParser (ascii "profileid")
    if peer.blocks.contains profileid then
      { peer with blocks := peer.blocks.erase profileid }.addRequest
        (.delBlock peer.profileId profileid)
    else peer.sendError .removeblockNotBlocked []
  else peer.sendError .parse []

/-- `Peer::handle_delbuddy`. -/
def handleDelbuddy (dataParser : List (Bytes × Bytes)) : Peer :=
  if hasKey dataParser (ascii "delprofileid") then
    let delprofileid := getValueInt dataParser (ascii "delprofileid")
    if (peer.buddies.find? delprofileid).isSome then
      { peer with buddies := peer.buddies.erase delprofileid }.addRequest
        (.delBuddy peer.profileId delprofileid)
    else peer.sendError .delbuddyNotBuddy []
  else peer.sendError .parse []

end Peer

/-- What edits or reads the lists of a peer. -/
inductive ListEvent where
  | blockList (results : List Int)
  | buddyList (results : List Int) (statusMap : OrderedMap Int GPStatus)
  | statusUpdate (profileid : Int) (status : GPStatus) (noUpdate : Bool)
  | sessionUpdate (results : OrderedMap Int GPStatus)
  | userBlocked (fromProfileid : Int)
  | userBlockDeleted (fromProfileid : Int)
  | authorizeAdd (fromProfileid toProfileid : Int) (silent : Bool)
  | revokeMessage (fromProfileid dateUnixTimestamp : Int)
  | addblock (dataParser : List (Bytes × Bytes))
  | removeblock (dataParser : List (Bytes × Bytes))
  | delbuddy (dataParser : List (Bytes × Bytes))

/-- One event on a peer. -/
def Peer.onList (peer : Peer) : ListEvent → Peer
  | .blockList results => peer.blockListLookupCallback results
  | .buddyList results statusMap => peer.buddyListLookupCallback results statusMap
  | .statusUpdate profileid status noUpdate => peer.informStatusUpdate profileid status noUpdate
  | .sessionUpdate results => peer.sessionHandleUpdate results
  | .userBlocked fromProfileid => peer.sendUserBlocked fromProfileid
  | .userBlockDeleted fromProfileid => peer.sendUserBlockDeleted fromProfileid
  | .authorizeAdd fromProfileid toProfileid silent =>
      peer.sendAuthorizeAdd fromProfileid toProfileid silent
  | .revokeMessage fromProfileid date => peer.sendRevokeMessage fromProfileid date
  | .addblock dataParser => peer.handleAddblock dataParser
  | .removeblock dataParser => peer.handleRemoveblock dataParser
  | .delbuddy dataParser => peer.handleDelbuddy dataParser

/-- What the users did: the profiles that this user blocked, those that blocked the user, and
those that were loaded as buddies or authorised the user, and not removed since. -/
structure UserLists where
  blocked : Finset Int
  blockedBy : Finset Int
  buddies : Finset Int

/-- The user of a profile and the other users do something. -/
def UserLists.record (lists : UserLists) (profileId : Int) : ListEvent → UserLists
  | .blockList results => { lists with blocked := lists.blocked ∪ results.toFinset }
  | .buddyList results _ => { lists with buddies := lists.buddies ∪ results.toFinset }
  | .statusUpdate .. | .sessionUpdate _ => lists
  | .userBlocked profileid => { lists with blockedBy := insert profileid lists.blockedBy }
  | .userBlockDeleted profileid => { lists with blockedBy := lists.blockedBy.erase profileid }
  | .authorizeAdd fromProfileid toProfileid silent =>
      if !silent && profileId == toProfileid then
        { lists with buddies := insert fromProfileid lists.buddies }
      else lists
  | .revokeMessage profileid _ => { lists with buddies := lists.buddies.erase profileid }
  | .addblock dataParser =>
      if hasKey dataParser (ascii "profileid") then
        { lists with
          blocked := insert (getValueInt dataParser (ascii "profileid")) lists.blocked }
      else lists
  | .removeblock dataParser =>
      if hasKey dataParser (ascii "profileid") then
        { lists with
          blocked := lists.blocked.erase (getValueInt dataParser (ascii "profileid")) }
      else lists
  | .delbuddy dataParser =>
      if hasKey dataParser (ascii "delprofileid") then
        { lists with
          buddies := lists.buddies.erase (getValueInt dataParser (ascii "delprofileid")) }
      else lists

/-- A peer, and beside it what the users did. -/
structure ListSystem where
  peer : Peer
  lists : UserLists

namespace ListSystem

/-- A new peer that acts for a profile. -/
def start (ip : IPv4) (port : UInt16) (now profileId : Int) : ListSystem :=
  ⟨{ Peer.init ip port now with profileId := profileId }, ⟨∅, ∅, ∅⟩⟩

/-- One event. -/
def step (s : ListSystem) (event : ListEvent) : ListSystem :=
  ⟨s.peer.onList event, s.lists.record s.peer.profileId event⟩

end ListSystem

/-- A status as a packet shows it: whoever is offline has the default status. -/
def realStatus (status : GPStatus) : GPStatus :=
  if status.status = gpOffline then gpDefaultStatus else status

/-- A status update for a profile goes out and shows the real status. -/
def Peer.ShowsRealStatus (peer : Peer) (profileid : Int) (status : GPStatus) (noUpdate : Bool) :
    Prop :=
  (peer.informStatusUpdate profileid status noUpdate).sent =
    peer.sent ++ [statusPacket profileid (realStatus status) ++ finalMarker]

/-- The lists hold what the users did, and a status update shows the real status of the buddies
in neither block list only. The real status of whoever is offline hides nothing. -/
structure ListSystem.ListsRight (s : ListSystem) : Prop where
  once : s.peer.blocks.Nodup
  blocks : ∀ id, id ∈ s.peer.blocks ↔ id ∈ s.lists.blocked
  blocked_by : ∀ id, id ∈ s.peer.blockedBy ↔ id ∈ s.lists.blockedBy
  buddies : ∀ id, id ∈ s.peer.buddies.keys ↔ id ∈ s.lists.buddies
  shown : ∀ id status noUpdate, id ∈ s.lists.buddies → id ∉ s.lists.blocked →
    id ∉ s.lists.blockedBy → s.peer.ShowsRealStatus id status noUpdate
  hidden : ∀ id status noUpdate, status.status ≠ gpOffline →
    s.peer.ShowsRealStatus id status noUpdate →
      id ∈ s.lists.buddies ∧ id ∉ s.lists.blocked ∧ id ∉ s.lists.blockedBy

/-- The event informs about no profile that is in a block list once the event has edited it, and
a block list that arrives names nobody twice. -/
def ListSystem.Spares (s : ListSystem) : ListEvent → Prop
  | .blockList results =>
      (s.peer.blocks ++ results).Nodup ∧
        (s.peer.gotBuddies = true → s.peer.blocks ++ results = [] ∧ s.peer.blockedBy = [])
  | .buddyList _ _ => s.peer.gotBlocks = true → s.peer.blocks = [] ∧ s.peer.blockedBy = []
  | .statusUpdate id _ _ | .revokeMessage id _ => s.peer.isBlocked id = false
  | .sessionUpdate results => ∀ id ∈ results.keys, s.peer.isBlocked id = false
  | .userBlocked id => id ∉ s.peer.blockedBy → id ∉ s.peer.buddies.keys
  | .userBlockDeleted id =>
      id ∈ s.peer.blockedBy → id ∈ s.peer.buddies.keys → id ∉ s.peer.blocks
  | .authorizeAdd .. | .addblock _ | .removeblock _ | .delbuddy _ => True

instance (s : ListSystem) (event : ListEvent) : Decidable (s.Spares event) := by
  cases event <;> unfold ListSystem.Spares <;> infer_instance

/-- The lists have the profiles that they should have, though `m_blocks` maybe not once each. -/
structure Agree (peer : Peer) (lists : UserLists) : Prop where
  blocks : ∀ id, id ∈ peer.blocks ↔ id ∈ lists.blocked
  once : peer.blockedBy.Nodup
  blocked_by : ∀ id, id ∈ peer.blockedBy ↔ id ∈ lists.blockedBy
  buddies : ∀ id, id ∈ peer.buddies.keys ↔ id ∈ lists.buddies

/-- What a peer's lists become when it informs about some profiles. -/
structure Informs (peer after : Peer) (ids : List Int) : Prop where
  blocks : after.blocks = peer.blocks ++ ids.filter peer.isBlocked
  blocked_by : after.blockedBy = peer.blockedBy
  buddies : (∀ id ∈ ids, peer.isBlocked id = false) →
    ∀ id, id ∈ after.buddies.keys ↔ id ∈ peer.buddies.keys

theorem is_blocked_iff {peer : Peer} {id : Int} :
    peer.isBlocked id = true ↔ id ∈ peer.blocks ∨ id ∈ peer.blockedBy := by
  simp [Peer.isBlocked]

theorem is_blocked_eq_false {peer : Peer} {id : Int} :
    peer.isBlocked id = false ↔ id ∉ peer.blocks ∧ id ∉ peer.blockedBy := by
  rw [← Bool.not_eq_true, is_blocked_iff, not_or]

section Inform

variable {peer after : Peer}

/-- Nobody is informed about. -/
theorem Informs.none (hblocks : after.blocks = peer.blocks)
    (hby : after.blockedBy = peer.blockedBy) (hbuddies : after.buddies = peer.buddies) :
    Informs peer after [] :=
  ⟨by simp [hblocks], hby, fun _ _ => by rw [hbuddies]⟩

/-- Who is blocked stays the same, for only a profile that is blocked is pushed. -/
theorem Informs.is_blocked {ids : List Int} (h : Informs peer after ids) (id : Int) :
    after.isBlocked id = peer.isBlocked id := by
  rw [Bool.eq_iff_iff, is_blocked_iff, is_blocked_iff, h.blocks, h.blocked_by]
  simp only [List.mem_append, List.mem_filter, is_blocked_iff]
  tauto

theorem inform_status_update_informs (peer : Peer) (id : Int) (status : GPStatus)
    (noUpdate : Bool) : Informs peer (peer.informStatusUpdate id status noUpdate) [id] := by
  unfold Peer.informStatusUpdate
  cases hblocked : peer.isBlocked id with
  | true =>
      refine ⟨?_, ?_, fun h => ?_⟩
      · simp [hblocked, Peer.sendPacket]
      · simp [Peer.sendPacket]
      · exact absurd hblocked (by simp [h id (List.mem_singleton_self id)])
  | false =>
      by_cases hbuddy : (peer.buddies.find? id).isSome
      · refine ⟨?_, ?_, fun _ other => ?_⟩
        · simp [hblocked, hbuddy, Peer.sendPacket]
        · simp [hbuddy, Peer.sendPacket]
        · have hmem := OrderedMap.find_is_some.mp hbuddy
          cases noUpdate with
          | true => simp [hbuddy, Peer.sendPacket]
          | false =>
              simp only [hbuddy, Bool.or_false, if_true, Peer.sendPacket, Bool.false_eq_true,
                if_false, OrderedMap.mem_keys_insert, or_iff_right_iff_imp]
              rintro rfl
              exact hmem
      · refine ⟨?_, ?_, fun _ other => ?_⟩ <;> simp [hblocked, hbuddy]

/-- One inform after the other. -/
theorem Informs.foldl {α : Type} {inform : Peer → α → Peer} {key : α → Int}
    (hinform : ∀ peer a, Informs peer (inform peer a) [key a]) (peer : Peer) (list : List α) :
    Informs peer (list.foldl inform peer) (list.map key) := by
  induction list generalizing peer with
  | nil => exact .none rfl rfl rfl
  | cons a list ih =>
      have hfirst := hinform peer a
      have hrest := ih (inform peer a)
      have hsame : (inform peer a).isBlocked = peer.isBlocked := funext hfirst.is_blocked
      refine ⟨?_, hrest.blocked_by.trans hfirst.blocked_by, fun h id => ?_⟩
      · rw [List.foldl_cons, hrest.blocks, hfirst.blocks, hsame, List.append_assoc,
          List.map_cons, ← List.filter_append, List.singleton_append]
      · rw [List.map_cons, List.forall_mem_cons] at h
        rw [List.foldl_cons, hrest.buddies (by simpa [hsame] using h.2),
          hfirst.buddies (by simpa using h.1)]

theorem send_status_of_informs (peer : Peer) (id : Int) :
    Informs peer (peer.sendStatusOf id) [id] := by
  unfold Peer.sendStatusOf
  split <;> exact inform_status_update_informs peer id _ _

theorem session_handle_update_informs (peer : Peer) (results : OrderedMap Int GPStatus) :
    Informs peer (peer.sessionHandleUpdate results) results.keys :=
  .foldl (fun peer entry => inform_status_update_informs peer entry.1 entry.2 false) peer
    results.entries

theorem inform_buddy_informs (peer : Peer) (id : Int) :
    Informs peer (peer.informBuddy id) (if id ∈ peer.buddies.keys then [id] else []) := by
  unfold Peer.informBuddy
  cases hfind : peer.buddies.find? id with
  | none =>
      rw [if_neg (OrderedMap.find_eq_none.mp hfind)]
      exact .none rfl rfl rfl
  | some status =>
      rw [if_pos (OrderedMap.find_is_some.mp (by simp [hfind]))]
      exact inform_status_update_informs peer id status true

/-- The profiles that `send_list_status` informs about. -/
def listed (peer : Peer) : List Int :=
  if peer.gotBlocks && peer.gotBuddies then peer.blocks ++ peer.blockedBy ++ peer.buddies.keys
  else []

theorem send_list_status_informs (peer : Peer) :
    Informs peer peer.sendListStatus (listed peer) := by
  unfold Peer.sendListStatus listed
  by_cases h : (peer.gotBlocks && peer.gotBuddies) = true
  · have hfold := @Informs.foldl _ _ id send_status_of_informs peer
      (peer.blocks ++ peer.blockedBy ++ peer.buddies.keys)
    rw [List.map_id] at hfold
    simpa [h, ← Bool.not_and] using hfold
  · simpa [h, ← Bool.not_and] using Informs.none rfl rfl rfl

/-- With both lists there, `send_list_status` informs about everybody in them. -/
theorem listed_spared {peer : Peer} :
    (∀ id ∈ listed peer, peer.isBlocked id = false) ↔
      ((peer.gotBlocks && peer.gotBuddies) = true → peer.blocks = [] ∧ peer.blockedBy = []) := by
  unfold listed
  by_cases h : (peer.gotBlocks && peer.gotBuddies) = true
  · simp only [h, if_true, forall_const]
    constructor
    · intro hspared
      constructor <;> refine List.eq_nil_iff_forall_not_mem.mpr fun id hmem => ?_
      · exact (is_blocked_eq_false.mp (hspared id (by simp [hmem]))).1 hmem
      · exact (is_blocked_eq_false.mp (hspared id (by simp [hmem]))).2 hmem
    · rintro ⟨hblocks, hby⟩ id -
      exact is_blocked_eq_false.mpr (by simp [hblocks, hby])
  · simp [h]

/-- Informing keeps the lists right exactly if nobody who is informed about is blocked. -/
theorem Informs.right_iff {lists : UserLists} {ids : List Int} (hagree : Agree peer lists)
    (h : Informs peer after ids) :
    Agree after lists ∧ after.blocks.Nodup ↔
      peer.blocks.Nodup ∧ ∀ id ∈ ids, peer.isBlocked id = false := by
  constructor
  · rintro ⟨hafter, hnodup⟩
    rw [h.blocks] at hnodup
    obtain ⟨hbefore, -, hdisjoint⟩ := List.nodup_append.mp hnodup
    refine ⟨hbefore, fun id hid => ?_⟩
    by_contra hblocked
    rw [Bool.not_eq_false] at hblocked
    have hpushed : id ∈ ids.filter peer.isBlocked := List.mem_filter.mpr ⟨hid, hblocked⟩
    -- pushed a second time, or pushed though the user did not block it
    have hmem : id ∈ peer.blocks :=
      (hagree.blocks id).mpr ((hafter.blocks id).mp (h.blocks ▸ List.mem_append_right _ hpushed))
    exact hdisjoint id hmem id hpushed rfl
  · rintro ⟨hnodup, hspared⟩
    have hblocks : after.blocks = peer.blocks := by
      rw [h.blocks, List.filter_eq_nil_iff.mpr fun id hid => by simp [hspared id hid],
        List.append_nil]
    refine ⟨⟨fun id => ?_, ?_, fun id => ?_, fun id => ?_⟩, hblocks ▸ hnodup⟩
    · rw [hblocks, hagree.blocks]
    · exact h.blocked_by ▸ hagree.once
    · rw [h.blocked_by, hagree.blocked_by]
    · rw [h.buddies hspared, hagree.buddies]

end Inform

section Events

variable {peer : Peer} {lists : UserLists}

/-- An error edits no list. -/
theorem Agree.send_error (h : Agree peer lists) (hnodup : peer.blocks.Nodup)
    (code : GPErrorCode) :
    Agree (peer.sendError code []) lists ∧ (peer.sendError code []).blocks.Nodup := by
  obtain ⟨hbuddies, hblocks, hby⟩ := peer.send_error_lists code []
  exact ⟨⟨by simpa only [hblocks] using h.blocks, hby ▸ h.once,
    by simpa only [hby] using h.blocked_by, by simpa only [hbuddies] using h.buddies⟩,
    hblocks ▸ hnodup⟩

/-- The block list callback loads the list, and `send_list_status` does the rest. -/
theorem block_list_loaded (peer : Peer) (results : List Int) :
    ∃ loaded : Peer, peer.blockListLookupCallback results = loaded.sendListStatus ∧
      loaded.blocks = peer.blocks ++ results ∧ loaded.blockedBy = peer.blockedBy ∧
      loaded.buddies = peer.buddies ∧
      (loaded.gotBlocks && loaded.gotBuddies) = peer.gotBuddies := by
  refine ⟨_, rfl, ?_, ?_, ?_, ?_⟩ <;> cases results <;> simp [Peer.sendPacket]

theorem block_list_iff (h : Agree peer lists) (results : List Int) :
    Agree (peer.blockListLookupCallback results)
        { lists with blocked := lists.blocked ∪ results.toFinset } ∧
      (peer.blockListLookupCallback results).blocks.Nodup ↔
      (peer.blocks ++ results).Nodup ∧
        (peer.gotBuddies = true → peer.blocks ++ results = [] ∧ peer.blockedBy = []) := by
  obtain ⟨loaded, hloaded, hblocks, hby, hbuddies, hgot⟩ := block_list_loaded peer results
  have hagree : Agree loaded { lists with blocked := lists.blocked ∪ results.toFinset } := by
    refine ⟨fun id => ?_, hby ▸ h.once, fun id => ?_, fun id => ?_⟩
    · simp [hblocks, h.blocks id]
    · rw [hby, h.blocked_by]
    · rw [hbuddies, h.buddies]
  rw [hloaded, (send_list_status_informs loaded).right_iff hagree, listed_spared, hblocks, hby,
    hgot]

/-- The loop over the buddies adds them and touches nothing else. -/
theorem add_buddies_spec (statusMap : OrderedMap Int GPStatus) (results : List Int)
    (peer : Peer) :
    (∀ id, id ∈ (peer.addBuddies statusMap results).buddies.keys ↔
        id ∈ peer.buddies.keys ∨ id ∈ results) ∧
      (peer.addBuddies statusMap results).blocks = peer.blocks ∧
      (peer.addBuddies statusMap results).blockedBy = peer.blockedBy ∧
      (peer.addBuddies statusMap results).gotBlocks = peer.gotBlocks := by
  induction results generalizing peer with
  | nil => simp [Peer.addBuddies]
  | cons first results ih =>
      obtain ⟨hkeys, hblocks, hby, hgot⟩ := ih { peer with
        buddies := peer.buddies.insert first
          (if ((statusMap.find? first).getD gpDefaultStatus).status = gpOffline then
            gpDefaultStatus
          else (statusMap.find? first).getD gpDefaultStatus) }
      refine ⟨fun id => (hkeys id).trans ?_, hblocks, hby, hgot⟩
      rw [OrderedMap.mem_keys_insert, List.mem_cons]
      tauto

/-- The buddy list callback likewise. -/
theorem buddy_list_loaded (peer : Peer) (results : List Int)
    (statusMap : OrderedMap Int GPStatus) :
    ∃ loaded : Peer, peer.buddyListLookupCallback results statusMap = loaded.sendListStatus ∧
      loaded.blocks = peer.blocks ∧ loaded.blockedBy = peer.blockedBy ∧
      (∀ id, id ∈ loaded.buddies.keys ↔ id ∈ peer.buddies.keys ∨ id ∈ results) ∧
      (loaded.gotBlocks && loaded.gotBuddies) = peer.gotBlocks := by
  obtain ⟨hkeys, hsame⟩ := add_buddies_spec statusMap results peer
  refine ⟨_, rfl, ?_, ?_, ?_, ?_⟩ <;> cases results <;> simp_all [Peer.sendPacket]

theorem buddy_list_iff (h : Agree peer lists) (hnodup : peer.blocks.Nodup) (results : List Int)
    (statusMap : OrderedMap Int GPStatus) :
    Agree (peer.buddyListLookupCallback results statusMap)
        { lists with buddies := lists.buddies ∪ results.toFinset } ∧
      (peer.buddyListLookupCallback results statusMap).blocks.Nodup ↔
      (peer.gotBlocks = true → peer.blocks = [] ∧ peer.blockedBy = []) := by
  obtain ⟨loaded, hloaded, hblocks, hby, hbuddies, hgot⟩ :=
    buddy_list_loaded peer results statusMap
  have hagree : Agree loaded { lists with buddies := lists.buddies ∪ results.toFinset } := by
    refine ⟨fun id => ?_, hby ▸ h.once, fun id => ?_, fun id => ?_⟩
    · rw [hblocks, h.blocks]
    · rw [hby, h.blocked_by]
    · simp [hbuddies, h.buddies id]
  rw [hloaded, (send_list_status_informs loaded).right_iff hagree, listed_spared, hblocks, hby,
    hgot]
  exact and_iff_right hnodup

theorem user_blocked_iff (h : Agree peer lists) (hnodup : peer.blocks.Nodup) (id : Int) :
    Agree (peer.sendUserBlocked id) { lists with blockedBy := insert id lists.blockedBy } ∧
      (peer.sendUserBlocked id).blocks.Nodup ↔
      (id ∉ peer.blockedBy → id ∉ peer.buddies.keys) := by
  unfold Peer.sendUserBlocked
  by_cases hmem : id ∈ peer.blockedBy
  · have hsame : insert id lists.blockedBy = lists.blockedBy :=
      Finset.insert_eq_of_mem ((h.blocked_by id).mp hmem)
    simp [hmem, hsame, h, hnodup]
  · have hagree : Agree { peer with blockedBy := peer.blockedBy ++ [id] }
        { lists with blockedBy := insert id lists.blockedBy } := by
      refine ⟨h.blocks, ?_, fun other => ?_, h.buddies⟩
      · exact List.nodup_append.mpr ⟨h.once, by simp, by grind⟩
      · simp [h.blocked_by other, or_comm]
    rw [if_neg (by simpa using hmem), (inform_buddy_informs _ id).right_iff hagree]
    -- the profile is in `m_blocked_by` when it is looked up
    by_cases hbuddy : id ∈ peer.buddies.keys <;>
      simp [hbuddy, hmem, hnodup, is_blocked_eq_false]

theorem user_block_deleted_iff (h : Agree peer lists) (hnodup : peer.blocks.Nodup) (id : Int) :
    Agree (peer.sendUserBlockDeleted id) { lists with blockedBy := lists.blockedBy.erase id } ∧
      (peer.sendUserBlockDeleted id).blocks.Nodup ↔
      (id ∈ peer.blockedBy → id ∈ peer.buddies.keys → id ∉ peer.blocks) := by
  unfold Peer.sendUserBlockDeleted
  by_cases hmem : id ∈ peer.blockedBy
  · have hagree : Agree { peer with blockedBy := peer.blockedBy.erase id }
        { lists with blockedBy := lists.blockedBy.erase id } := by
      refine ⟨h.blocks, h.once.erase id, fun other => ?_, h.buddies⟩
      simp [h.once.mem_erase_iff, h.blocked_by other]
    rw [if_pos (by simpa using hmem), (inform_buddy_informs _ id).right_iff hagree]
    -- it is not in `m_blocked_by` any more
    by_cases hbuddy : id ∈ peer.buddies.keys <;>
      simp [hbuddy, hmem, hnodup, is_blocked_eq_false, h.once.mem_erase_iff]
  · have hsame : lists.blockedBy.erase id = lists.blockedBy :=
      Finset.erase_eq_of_notMem (mt (h.blocked_by id).mpr hmem)
    simp [hmem, hsame, h, hnodup]

/-- Whoever authorises the user is a buddy from then on. -/
theorem authorize_add_right (h : Agree peer lists) (hnodup : peer.blocks.Nodup)
    (fromProfileid toProfileid : Int) (silent : Bool) :
    Agree (peer.sendAuthorizeAdd fromProfileid toProfileid silent)
        (if !silent && peer.profileId == toProfileid then
          { lists with buddies := insert fromProfileid lists.buddies }
        else lists) ∧
      (peer.sendAuthorizeAdd fromProfileid toProfileid silent).blocks.Nodup := by
  unfold Peer.sendAuthorizeAdd
  by_cases hadd : (!silent && peer.profileId == toProfileid) = true
  · rw [if_pos hadd, if_pos hadd]
    exact ⟨⟨h.blocks, h.once, h.blocked_by, fun id => by
      simp [Peer.sendPacket, Peer.addRequest, h.buddies id]⟩, hnodup⟩
  · rw [if_neg hadd, if_neg hadd]
    exact ⟨h, hnodup⟩

theorem revoke_message_iff (h : Agree peer lists) (hnodup : peer.blocks.Nodup) (id date : Int) :
    Agree (peer.sendRevokeMessage id date) { lists with buddies := lists.buddies.erase id } ∧
      (peer.sendRevokeMessage id date).blocks.Nodup ↔ peer.isBlocked id = false := by
  have hagree : Agree { peer with buddies := peer.buddies.erase id }
      { lists with buddies := lists.buddies.erase id } :=
    ⟨h.blocks, h.once, h.blocked_by, fun other => by simp [h.buddies other, and_comm]⟩
  have hinforms := inform_status_update_informs { peer with buddies := peer.buddies.erase id } id
    gpDefaultStatus true
  have hsent : Informs { peer with buddies := peer.buddies.erase id }
      (peer.sendRevokeMessage id date) [id] :=
    ⟨hinforms.blocks, hinforms.blocked_by, hinforms.buddies⟩
  rw [hsent.right_iff hagree]
  simp [hnodup, is_blocked_eq_false]

/-- `addblock` pushes a profile that is not there, and an error comes for one that is. -/
theorem addblock_right (h : Agree peer lists) (hnodup : peer.blocks.Nodup)
    (dataParser : List (Bytes × Bytes)) :
    Agree (peer.handleAddblock dataParser)
        (if hasKey dataParser (ascii "profileid") then
          { lists with
            blocked := insert (getValueInt dataParser (ascii "profileid")) lists.blocked }
        else lists) ∧
      (peer.handleAddblock dataParser).blocks.Nodup := by
  unfold Peer.handleAddblock
  extract_lets id
  by_cases hkey : hasKey dataParser (ascii "profileid") = true
  · rw [if_pos hkey, if_pos hkey]
    by_cases hmem : id ∈ peer.blocks
    · have hsame : insert id lists.blocked = lists.blocked :=
        Finset.insert_eq_of_mem ((h.blocks id).mp hmem)
      rw [if_pos (by simpa using hmem), hsame]
      exact h.send_error hnodup _
    · rw [if_neg (by simpa using hmem)]
      refine ⟨⟨fun other => ?_, h.once, h.blocked_by, h.buddies⟩, ?_⟩
      · simp [Peer.addRequest, h.blocks other, or_comm, id]
      · exact List.nodup_append.mpr ⟨hnodup, by simp, by grind⟩
  · rw [if_neg hkey, if_neg hkey]
    exact h.send_error hnodup _

/-- `removeblock` erases a profile that is there once, and an error comes for one that is not. -/
theorem removeblock_right (h : Agree peer lists) (hnodup : peer.blocks.Nodup)
    (dataParser : List (Bytes × Bytes)) :
    Agree (peer.handleRemoveblock dataParser)
        (if hasKey dataParser (ascii "profileid") then
          { lists with
            blocked := lists.blocked.erase (getValueInt dataParser (ascii "profileid")) }
        else lists) ∧
      (peer.handleRemoveblock dataParser).blocks.Nodup := by
  unfold Peer.handleRemoveblock
  extract_lets id
  by_cases hkey : hasKey dataParser (ascii "profileid") = true
  · rw [if_pos hkey, if_pos hkey]
    by_cases hmem : id ∈ peer.blocks
    · rw [if_pos (by simpa using hmem)]
      refine ⟨⟨fun other => ?_, h.once, h.blocked_by, h.buddies⟩, hnodup.erase id⟩
      simp [Peer.addRequest, hnodup.mem_erase_iff, h.blocks other, id]
    · have hsame : lists.blocked.erase id = lists.blocked :=
        Finset.erase_eq_of_notMem (mt (h.blocks id).mpr hmem)
      rw [if_neg (by simpa using hmem), hsame]
      exact h.send_error hnodup _
  · rw [if_neg hkey, if_neg hkey]
    exact h.send_error hnodup _

/-- `delbuddy` erases a buddy, and an error comes for a profile that is none. -/
theorem delbuddy_right (h : Agree peer lists) (hnodup : peer.blocks.Nodup)
    (dataParser : List (Bytes × Bytes)) :
    Agree (peer.handleDelbuddy dataParser)
        (if hasKey dataParser (ascii "delprofileid") then
          { lists with
            buddies := lists.buddies.erase (getValueInt dataParser (ascii "delprofileid")) }
        else lists) ∧
      (peer.handleDelbuddy dataParser).blocks.Nodup := by
  unfold Peer.handleDelbuddy
  extract_lets id
  by_cases hkey : hasKey dataParser (ascii "delprofileid") = true
  · rw [if_pos hkey, if_pos hkey]
    by_cases hmem : id ∈ peer.buddies.keys
    · rw [if_pos (OrderedMap.find_is_some.mpr hmem)]
      exact ⟨⟨h.blocks, h.once, h.blocked_by, fun other => by
        simp [Peer.addRequest, h.buddies other, and_comm, id]⟩, hnodup⟩
    · have hsame : lists.buddies.erase id = lists.buddies :=
        Finset.erase_eq_of_notMem (mt (h.buddies id).mpr hmem)
      rw [if_neg (mt OrderedMap.find_is_some.mp hmem), hsame]
      exact h.send_error hnodup _
  · rw [if_neg hkey, if_neg hkey]
    exact h.send_error hnodup _

end Events

/-- One event keeps the lists right exactly if it spares the blocked profiles. -/
theorem step_right_iff {s : ListSystem} (h : Agree s.peer s.lists) (hnodup : s.peer.blocks.Nodup)
    (event : ListEvent) :
    Agree (s.step event).peer (s.step event).lists ∧ (s.step event).peer.blocks.Nodup ↔
      s.Spares event := by
  cases event with
  | blockList results => exact block_list_iff h results
  | buddyList results statusMap => exact buddy_list_iff h hnodup results statusMap
  | statusUpdate id status noUpdate =>
      have hinforms := inform_status_update_informs s.peer id status noUpdate
      exact (hinforms.right_iff h).trans (by simp [hnodup, ListSystem.Spares])
  | sessionUpdate results =>
      have hinforms := session_handle_update_informs s.peer results
      exact (hinforms.right_iff h).trans (and_iff_right hnodup)
  | userBlocked id => exact user_blocked_iff h hnodup id
  | userBlockDeleted id => exact user_block_deleted_iff h hnodup id
  | authorizeAdd fromProfileid toProfileid silent =>
      exact iff_of_true (authorize_add_right h hnodup fromProfileid toProfileid silent) trivial
  | revokeMessage id date => exact revoke_message_iff h hnodup id date
  | addblock dataParser => exact iff_of_true (addblock_right h hnodup dataParser) trivial
  | removeblock dataParser => exact iff_of_true (removeblock_right h hnodup dataParser) trivial
  | delbuddy dataParser => exact iff_of_true (delbuddy_right h hnodup dataParser) trivial

/-- Nobody is in `m_blocked_by` twice, whatever happens. -/
theorem blocked_by_once_step {s : ListSystem} (h : s.peer.blockedBy.Nodup) (event : ListEvent) :
    (s.step event).peer.blockedBy.Nodup := by
  have hsent (code : GPErrorCode) : (s.peer.sendError code []).blockedBy.Nodup :=
    (s.peer.send_error_lists code []).2.2 ▸ h
  cases event with
  | blockList results =>
      obtain ⟨loaded, hloaded, -, hby, -⟩ := block_list_loaded s.peer results
      simpa [ListSystem.step, Peer.onList, hloaded, (send_list_status_informs loaded).blocked_by,
        hby] using h
  | buddyList results statusMap =>
      obtain ⟨loaded, hloaded, -, hby, -⟩ := buddy_list_loaded s.peer results statusMap
      simpa [ListSystem.step, Peer.onList, hloaded, (send_list_status_informs loaded).blocked_by,
        hby] using h
  | statusUpdate id status noUpdate =>
      exact (inform_status_update_informs s.peer id status noUpdate).blocked_by ▸ h
  | sessionUpdate results => exact (session_handle_update_informs s.peer results).blocked_by ▸ h
  | userBlocked id =>
      show (s.peer.sendUserBlocked id).blockedBy.Nodup
      unfold Peer.sendUserBlocked
      split
      · exact h
      · rename_i hmem
        rw [(inform_buddy_informs _ id).blocked_by]
        exact List.nodup_append.mpr ⟨h, by simp, by grind⟩
  | userBlockDeleted id =>
      show (s.peer.sendUserBlockDeleted id).blockedBy.Nodup
      unfold Peer.sendUserBlockDeleted
      split
      · rw [(inform_buddy_informs _ id).blocked_by]
        exact h.erase id
      · exact h
  | authorizeAdd fromProfileid toProfileid silent =>
      show (s.peer.sendAuthorizeAdd fromProfileid toProfileid silent).blockedBy.Nodup
      unfold Peer.sendAuthorizeAdd
      split <;> exact h
  | revokeMessage id date =>
      exact (inform_status_update_informs { s.peer with buddies := s.peer.buddies.erase id } id
        gpDefaultStatus true).blocked_by ▸ h
  | addblock dataParser =>
      show (s.peer.handleAddblock dataParser).blockedBy.Nodup
      unfold Peer.handleAddblock
      extract_lets
      split_ifs <;> first | exact hsent _ | exact h
  | removeblock dataParser =>
      show (s.peer.handleRemoveblock dataParser).blockedBy.Nodup
      unfold Peer.handleRemoveblock
      extract_lets
      split_ifs <;> first | exact hsent _ | exact h
  | delbuddy dataParser =>
      show (s.peer.handleDelbuddy dataParser).blockedBy.Nodup
      unfold Peer.handleDelbuddy
      extract_lets
      split_ifs <;> first | exact hsent _ | exact h

section Shown

theorem no_digit_append {first rest : Bytes} (hfirst : NoDigit first) (hrest : NoDigit rest) :
    NoDigit (first ++ rest) := by
  cases first with
  | nil => exact hrest
  | cons b first => exact hfirst

theorem no_digit_field (present : Prop) [Decidable present] (rest : Bytes) :
    NoDigit (if present then char '|' :: rest else []) := by
  split <;> simp [NoDigit]
  decide

/-- What stands behind the status in a packet does not go on with its digits. -/
theorem status_details_no_digit (status : GPStatus) : NoDigit (statusDetails status) :=
  no_digit_append (no_digit_append (no_digit_append (no_digit_field _ _) (no_digit_field _ _))
    (no_digit_field _ _)) (no_digit_field _ _)

/-- A packet tells the status apart. -/
theorem status_of_packet {id : Int} {status other : GPStatus}
    (h : statusPacket id status = statusPacket id other) : status.status = other.status := by
  have hrest := List.append_cancel_left h
  have hvalue := congrArg signedValue hrest
  rwa [signed_value_print_int _ (status_details_no_digit status),
    signed_value_print_int _ (status_details_no_digit other)] at hvalue

/-- The packet that an inform sends, if any. -/
theorem inform_status_update_sent (peer : Peer) (id : Int) (status : GPStatus) (noUpdate : Bool) :
    (peer.informStatusUpdate id status noUpdate).sent =
      if (peer.buddies.find? id).isSome || peer.isBlocked id then
        peer.sent ++ [statusPacket id
          (if status.status = gpOffline || peer.isBlocked id then gpDefaultStatus else status) ++
            finalMarker]
      else peer.sent := by
  unfold Peer.informStatusUpdate
  extract_lets isBlocked buddies blocks shown
  split <;> rfl

/-- A buddy that is in neither list is shown as it is. -/
theorem shows_real_status {peer : Peer} {id : Int} (hbuddy : id ∈ peer.buddies.keys)
    (hblocked : peer.isBlocked id = false) (status : GPStatus) (noUpdate : Bool) :
    peer.ShowsRealStatus id status noUpdate := by
  rw [Peer.ShowsRealStatus, inform_status_update_sent, OrderedMap.find_is_some.mpr hbuddy, hblocked]
  simp [realStatus]

/-- Everybody else is not. -/
theorem buddy_of_shown {peer : Peer} {id : Int} {status : GPStatus} {noUpdate : Bool}
    (honline : status.status ≠ gpOffline) (h : peer.ShowsRealStatus id status noUpdate) :
    id ∈ peer.buddies.keys ∧ peer.isBlocked id = false := by
  rw [Peer.ShowsRealStatus, inform_status_update_sent, realStatus, if_neg honline] at h
  cases hblocked : peer.isBlocked id with
  | true =>
      rw [hblocked, Bool.or_true, if_pos rfl, Bool.or_true, if_pos rfl] at h
      have hpacket := List.append_cancel_right
        (List.singleton_inj.mp (List.append_cancel_left h))
      exact absurd (status_of_packet hpacket).symm honline
  | false =>
      refine ⟨?_, rfl⟩
      by_contra hbuddy
      rw [hblocked, Bool.or_false, if_neg (mt OrderedMap.find_is_some.mp hbuddy)] at h
      simp at h

end Shown

/-- With `m_blocked_by` as it always is, the lists are right if they agree, each profile once in
`m_blocks`. -/
theorem lists_right_agree {s : ListSystem} (hby : s.peer.blockedBy.Nodup) :
    s.ListsRight ↔ Agree s.peer s.lists ∧ s.peer.blocks.Nodup := by
  constructor
  · exact fun h => ⟨⟨h.blocks, hby, h.blocked_by, h.buddies⟩, h.once⟩
  · rintro ⟨h, hnodup⟩
    refine ⟨hnodup, h.blocks, h.blocked_by, h.buddies, fun id status noUpdate hbuddy hblocked hby =>
      ?_, fun id status noUpdate honline hshown => ?_⟩
    · exact shows_real_status ((h.buddies id).mpr hbuddy)
        (is_blocked_eq_false.mpr ⟨mt (h.blocks id).mp hblocked, mt (h.blocked_by id).mp hby⟩)
        status noUpdate
    · obtain ⟨hbuddy, hblocked⟩ := buddy_of_shown honline hshown
      obtain ⟨hblocks, hby⟩ := is_blocked_eq_false.mp hblocked
      exact ⟨(h.buddies id).mp hbuddy, mt (h.blocks id).mpr hblocks,
        mt (h.blocked_by id).mpr hby⟩

/-- A new peer has no lists, and nobody did anything. -/
theorem start_agree (ip : IPv4) (port : UInt16) (now profileId : Int) :
    Agree (ListSystem.start ip port now profileId).peer
      (ListSystem.start ip port now profileId).lists := by
  refine ⟨?_, List.nodup_nil, ?_, ?_⟩ <;> simp [ListSystem.start, Peer.init]

/-- The lists hold what the users did all through a run, and status updates show what they
should, exactly if every event of the run spares the profiles in the block lists. -/
theorem lists_right_iff (ip : IPv4) (port : UInt16) (now profileId : Int) (run : List ListEvent) :
    (∀ before, before <+: run →
      (after ListSystem.step (.start ip port now profileId) before).ListsRight) ↔
      AtEach ListSystem.step (.start ip port now profileId) ListSystem.Spares run := by
  have hby (run : List ListEvent) :
      (after ListSystem.step (.start ip port now profileId) run).peer.blockedBy.Nodup :=
    @invariant _ _ ListSystem.step _ (fun s => s.peer.blockedBy.Nodup) List.nodup_nil
      (fun _ event h => blocked_by_once_step h event) run
  simp only [lists_right_agree (hby _)]
  exact @throughout_iff _ _ ListSystem.step _
    (fun s => Agree s.peer s.lists ∧ s.peer.blocks.Nodup) ListSystem.Spares
    ⟨start_agree ip port now profileId, List.nodup_nil⟩
    (fun s event h => step_right_iff h.1 h.2 event) run

/-- The profile that the block list below names is shown to be blocked, and unblocked again: it
stays in `m_blocks`. -/
def unblockedAgain : List ListEvent :=
  [.addblock [(ascii "addblock", []), (ascii "profileid", ascii "7")],
    .statusUpdate 7 ⟨1, ascii "Online", [], ⟨0, 0, 0, 0⟩, 0, 0⟩ false,
    .removeblock [(ascii "removeblock", []), (ascii "profileid", ascii "7")]]

theorem unblock_keeps_blocked :
    ¬ ∀ (ip : IPv4) (port : UInt16) (now profileId : Int) (run : List ListEvent),
      (after ListSystem.step (.start ip port now profileId) run).ListsRight := by
  intro h
  have hblocks := (h ⟨127, 0, 0, 1⟩ 5000 0 1 unblockedAgain).blocks 7
  revert hblocks
  decide

end OpenSpy.GP
