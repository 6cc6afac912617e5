import OpenSpy.UTMaster.Conversation
import OpenSpy.UTMaster.ServerEvents

/-!
# What stays listed of a game server

`Status` is what a listing knows of an address: nothing, that it was reported, or that it was
withdrawn. The store of the tasks shows the status of every address, whatever is done in between for
others (`shows_status`), since no two addresses lead to one server key. A connection withdraws the
address that it reported last and no other, and what is read of a peer that is already deleted is
reported again: `left_listed_iff` says of which addresses the record stays listed.
-/

namespace OpenSpy.UTMaster

open Bytes MachineInt Runs

/-- What is known of an address. -/
inductive Status where
  | unknown
  | listed
  | withdrawn
  deriving DecidableEq, Repr

/-- A request about an address changes its status. -/
def Status.next (address : Address) (status : Status) : Request → Status
  | .listServers _ => status
  | .heartbeat record => if record.address = address then .listed else status
  | .deleteServer deleted =>
      if deleted = address ∧ status ≠ .unknown then .withdrawn else status

/-- The request that a task is run for. -/
def Task.request : Task → Request
  | heartbeat request => .heartbeat request.record
  | deleteServer address => .deleteServer address

/-- The status of an address behind some requests. -/
def statusOf (address : Address) (requests : List Request) : Status :=
  requests.foldl (Status.next address) .unknown

namespace Store

/-- The key that a server is given. -/
def serverKey (gamename : Bytes) (id : Int) : Bytes :=
  gamename ++ char ':' :: printInt id ++ [char ':']

/-- Each address leads to a key of its own, of an id that was already given. -/
structure Apart (s : Store) : Prop where
  given : 0 ≤ s.pk
  keys : ∀ address key, s.ipMap address = some key →
    ∃ gamename id, 0 < id ∧ id ≤ s.pk ∧ key = serverKey gamename id
  distinct : ∀ address other key, s.ipMap address = some key → s.ipMap other = some key →
    address = other

/-- The record of an address says what is known of the address. -/
def Shows (s : Store) (address : Address) : Status → Prop
  | .unknown => s.ipMap address = none
  | .listed => (s.ipMap address).isSome ∧ ¬ s.MarkedDeleted address
  | .withdrawn => (s.ipMap address).isSome ∧ s.MarkedDeleted address

end Store

section Keys

/-- What is in front of the last mark of a text. -/
theorem append_mark_inj {mark : UInt8} {front other text more : Bytes} (htext : mark ∉ text)
    (hmore : mark ∉ more) (h : front ++ mark :: text = other ++ mark :: more) : text = more := by
  have hrev := congrArg List.reverse h
  rw [List.reverse_append, List.reverse_append, List.reverse_cons, List.reverse_cons,
    List.append_assoc, List.append_assoc, List.singleton_append, List.singleton_append] at hrev
  have hcut : ∀ {last rest : Bytes}, mark ∉ last →
      (last.reverse ++ mark :: rest).takeWhile (· ≠ mark) = last.reverse := by
    intro last rest hlast
    rw [List.takeWhile_append_of_pos, List.takeWhile_cons_of_neg (by simp), List.append_nil]
    intro b hb
    have hne : b ≠ mark := fun heq => hlast (heq ▸ List.mem_reverse.mp hb)
    simpa using hne
  have hsame := congrArg (List.takeWhile (· ≠ mark)) hrev
  rw [hcut htext, hcut hmore] at hsame
  exact List.reverse_injective hsame

/-- Keys of different ids are different. -/
theorem server_key_inj {gamename other : Bytes} {id next : Int}
    (h : Store.serverKey gamename id = Store.serverKey other next) : id = next := by
  have hcolon : ∀ n : Int, char ':' ∉ printInt n := print_int_not_mem (by decide) (by decide)
  have hkeys := List.append_cancel_right h
  exact print_int_injective (append_mark_inj (hcolon id) (hcolon next) hkeys)

theorem server_key_ne_nil (gamename : Bytes) (id : Int) : Store.serverKey gamename id ≠ [] := by
  simp [Store.serverKey]

end Keys

namespace Store

variable {s : Store} {address : Address}

theorem Apart.ip_map_ne (h : s.Apart) (address : Address) : s.ipMap address ≠ some [] := by
  intro hnil
  obtain ⟨gamename, id, -, -, hkey⟩ := h.keys address [] hnil
  exact server_key_ne_nil gamename id hkey.symm

/-- What a heartbeat does to the store, whether its server is known or new. -/
theorem perform_heartbeat_eq (h : s.Apart) (hpk : s.pk < 2 ^ 31 - 1) (request : HeartbeatRequest) :
    ∃ key kind, (s.performHeartbeat request).servers =
        Function.update s.servers key (Redis.hmset (s.servers key)
          (cStrings (basicKeys key request.now request.record))) ∧
      (s.performHeartbeat request).ipMap =
        Function.update s.ipMap request.record.address (some key) ∧
      (s.performHeartbeat request).events = s.events ++ [⟨kind, key⟩] ∧
      (s.ipMap request.record.address = some key ∧ (s.performHeartbeat request).pk = s.pk ∨
        s.ipMap request.record.address = none ∧ key = serverKey request.gamename (s.pk + 1) ∧
          (s.performHeartbeat request).pk = s.pk + 1) := by
  have hid : int32 (s.pk + 1) = s.pk + 1 := by
    have hgiven := h.given
    exact int32_eq_self (by omega) (by omega)
  unfold performHeartbeat getServerKeyFromRequest
  rw [get_server_key_from_ip_map_eq]
  cases hserver : s.ipMap request.record.address with
  | none =>
      rw [Option.getD_none, hid]
      exact ⟨_, _, rfl, rfl, rfl, .inr ⟨rfl, rfl, rfl⟩⟩
  | some key =>
      have hkey : key.length > 0 := List.length_pos_iff.mpr fun heq =>
        h.ip_map_ne request.record.address (heq ▸ hserver)
      rw [Option.getD_some, if_pos hkey]
      exact ⟨key, _, rfl, rfl, rfl, .inl ⟨rfl, rfl⟩⟩

/-- What a deletion does to the store. -/
theorem perform_delete_server_eq (h : s.Apart) (address : Address) :
    match s.ipMap address with
    | none => s.performDeleteServer address = s
    | some key => (s.performDeleteServer address).servers =
          Function.update s.servers key
            (Function.update (s.servers key) (ascii "deleted") (some (ascii "1"))) ∧
        (s.performDeleteServer address).ipMap = s.ipMap ∧
        (s.performDeleteServer address).pk = s.pk := by
  unfold performDeleteServer
  rw [get_server_key_from_ip_map_eq]
  cases hserver : s.ipMap address with
  | none => rfl
  | some key =>
      have hkey : key.length > 0 := List.length_pos_iff.mpr fun heq =>
        h.ip_map_ne address (heq ▸ hserver)
      rw [Option.getD_some, if_pos hkey]
      exact ⟨rfl, rfl, rfl⟩

/-- A key that a heartbeat gives or finds leads from no other address. -/
theorem Apart.key_ne (h : s.Apart) {request : HeartbeatRequest} {key other : Bytes}
    (hkey : s.ipMap request.record.address = some key ∨
      key = serverKey request.gamename (s.pk + 1))
    (haddress : address ≠ request.record.address) (hother : s.ipMap address = some other) :
    other ≠ key := by
  rintro rfl
  obtain hknown | hnew := hkey
  · exact haddress (h.distinct _ _ _ hother hknown)
  · obtain ⟨gamename, id, -, hid, hgiven⟩ := h.keys address other hother
    have hsame := server_key_inj (hgiven.symm.trans hnew)
    omega

/-- Every task keeps the keys apart, as long as ids are left. -/
theorem Apart.run_task (h : s.Apart) (hpk : s.pk < 2 ^ 31 - 1) (task : Task) :
    (s.runTask task).Apart ∧ (s.runTask task).pk ≤ s.pk + 1 := by
  cases task with
  | heartbeat request =>
      obtain ⟨key, kind, -, hmap, -, hpks⟩ := perform_heartbeat_eq h hpk request
      have hkey : s.ipMap request.record.address = some key ∨
          key = serverKey request.gamename (s.pk + 1) :=
        hpks.imp And.left fun hnew => hnew.2.1
      have hle : s.pk ≤ (s.performHeartbeat request).pk ∧
          (s.performHeartbeat request).pk ≤ s.pk + 1 := by
        obtain ⟨-, hpk⟩ | ⟨-, -, hpk⟩ := hpks <;> omega
      refine ⟨⟨h.given.trans hle.1, fun address other hother => ?_,
        fun address other found haddress hother => ?_⟩, hle.2⟩
      · rw [runTask, hmap, Function.update_apply] at hother
        split at hother
        · obtain rfl : key = other := Option.some.inj hother
          obtain ⟨hknown, hpk⟩ | ⟨-, hnew, hpk⟩ := hpks
          · rw [runTask, hpk]
            exact h.keys _ key hknown
          · have hgiven := h.given
            exact ⟨request.gamename, s.pk + 1, by omega, hpk ▸ Int.le_refl _, hnew⟩
        · obtain ⟨gamename, id, hpos, hid, hgiven⟩ := h.keys address other hother
          exact ⟨gamename, id, hpos, hid.trans hle.1, hgiven⟩
      · rw [runTask, hmap, Function.update_apply] at haddress hother
        split at haddress <;> split at hother
        · next hfirst hsecond => exact hfirst.trans hsecond.symm
        · next hfirst hsecond =>
          obtain rfl : key = found := Option.some.inj haddress
          exact absurd rfl (h.key_ne hkey hsecond hother)
        · next hfirst hsecond =>
          obtain rfl : key = found := Option.some.inj hother
          exact absurd rfl (h.key_ne hkey hfirst haddress)
        · exact h.distinct _ _ _ haddress hother
  | deleteServer address =>
      have hspec := perform_delete_server_eq h address
      rw [runTask]
      split at hspec
      · rw [hspec]
        exact ⟨h, by omega⟩
      · obtain ⟨-, hmap, hpk⟩ := hspec
        exact ⟨⟨hpk ▸ h.given,
          fun address other hother => hpk ▸ h.keys address other (hmap ▸ hother),
          fun address other found haddress hother =>
            h.distinct address other found (hmap ▸ haddress) (hmap ▸ hother)⟩, by omega⟩

/-- The status of an address depends on its key and the record of that key. -/
theorem Shows.congr {next : Store} {status : Status} (h : s.Shows address status)
    (hmap : next.ipMap address = s.ipMap address)
    (hrecord : ∀ key, s.ipMap address = some key → next.servers key = s.servers key) :
    next.Shows address status := by
  have hfield : next.deletedField address = s.deletedField address := by
    unfold deletedField
    rw [hmap]
    cases hkey : s.ipMap address with
    | none => rfl
    | some key => exact congrFun (hrecord key hkey) _
  have hmarked : next.MarkedDeleted address ↔ s.MarkedDeleted address := by
    unfold MarkedDeleted
    rw [hfield]
  cases status with
  | unknown => exact hmap.trans h
  | listed => exact ⟨hmap ▸ h.1, fun hnext => h.2 (hmarked.mp hnext)⟩
  | withdrawn => exact ⟨hmap ▸ h.1, hmarked.mpr h.2⟩

theorem Shows.known {status : Status} (h : s.Shows address status) :
    status = .unknown ↔ s.ipMap address = none := by
  cases status with
  | unknown => exact iff_of_true rfl h
  | listed => exact iff_of_false Status.noConfusion (Option.isSome_iff_ne_none.mp h.1)
  | withdrawn => exact iff_of_false Status.noConfusion (Option.isSome_iff_ne_none.mp h.1)

/-- The store goes on to show what is known of an address. -/
theorem Shows.run_task {status : Status} (hshows : s.Shows address status) (h : s.Apart)
    (hpk : s.pk < 2 ^ 31 - 1) (task : Task) :
    (s.runTask task).Shows address (status.next address task.request) := by
  cases task with
  | heartbeat request =>
      obtain ⟨key, kind, hservers, hmap, -, hpks⟩ := perform_heartbeat_eq h hpk request
      rw [Task.request, Status.next, runTask]
      split
      · next haddress =>
        have hdeleted : (s.performHeartbeat request).deletedField address = some (ascii "0") := by
          rw [deletedField, hmap, haddress, Function.update_self, Option.bind_some, hservers,
            Function.update_self, deleted_of_basic_keys]
        refine ⟨by rw [hmap, haddress, Function.update_self]; rfl, ?_⟩
        rw [MarkedDeleted, hdeleted]
        decide
      · next haddress =>
        have hne : address ≠ request.record.address := Ne.symm haddress
        refine hshows.congr (by rw [hmap, Function.update_of_ne hne]) fun other hother => ?_
        have hkey : s.ipMap request.record.address = some key ∨
            key = serverKey request.gamename (s.pk + 1) :=
          hpks.imp And.left fun hnew => hnew.2.1
        rw [hservers, Function.update_of_ne (h.key_ne hkey hne hother)]
  | deleteServer deleted =>
      have hspec := perform_delete_server_eq h deleted
      rw [Task.request, Status.next, runTask]
      split
      · next hown =>
        obtain ⟨rfl, hknown⟩ := hown
        split at hspec
        · next hnone => exact absurd (hshows.known.mpr hnone) hknown
        · next key hkey =>
          obtain ⟨hservers, hmap, -⟩ := hspec
          refine ⟨by rw [hmap, hkey]; rfl, ?_⟩
          rw [MarkedDeleted, deletedField, hmap, hkey, Option.bind_some, hservers,
            Function.update_self, Function.update_self]
      · next hother =>
        split at hspec
        · rwa [hspec]
        · next key hkey =>
          obtain ⟨hservers, hmap, -⟩ := hspec
          refine hshows.congr (by rw [hmap]) fun other haddress => ?_
          have hne : other ≠ key := by
            rintro rfl
            have hsame := h.distinct _ _ _ hkey haddress
            refine hother ⟨hsame, fun hunknown => ?_⟩
            rw [hshows.known.mp hunknown] at haddress
            cases haddress
          rw [hservers, Function.update_of_ne hne]

theorem empty_apart : Store.empty.Apart :=
  ⟨Int.le_refl 0, fun _ _ hkey => absurd hkey.symm (Option.some_ne_none _),
    fun _ _ _ hkey _ => absurd hkey.symm (Option.some_ne_none _)⟩

/-- Whatever tasks are run, the keys are apart, and no more ids are given than tasks are run. -/
theorem after_apart (tasks : List Task) (hids : tasks.length < 2 ^ 31) :
    (after runTask .empty tasks).Apart ∧ (after runTask .empty tasks).pk ≤ tasks.length := by
  induction tasks using List.reverseRecOn with
  | nil => exact ⟨empty_apart, Int.le_refl 0⟩
  | append_singleton tasks task ih =>
      rw [List.length_append, List.length_singleton] at hids
      obtain ⟨hapart, hpk⟩ := ih (by omega)
      obtain ⟨hnext, hnextPk⟩ := hapart.run_task (by omega) task
      rw [after_concat, List.length_append, List.length_singleton]
      exact ⟨hnext, by omega⟩

/-- Whatever tasks are run, the store shows of every address what was requested about it. -/
theorem shows_status (tasks : List Task) (hids : tasks.length < 2 ^ 31) (address : Address) :
    (after runTask .empty tasks).Shows address (statusOf address (tasks.map Task.request)) := by
  induction tasks using List.reverseRecOn with
  | nil => rfl
  | append_singleton tasks task ih =>
      rw [List.length_append, List.length_singleton] at hids
      obtain ⟨hapart, hpk⟩ := after_apart tasks (by omega)
      rw [after_concat, statusOf, List.map_append, List.foldl_append]
      exact (ih (by omega)).run_task hapart (by omega) task

end Store

section Requests

variable {address : Address} {requests : List Request} {configs : List Config} {undef : Int32}
  {peer next : Peer}

/-- A request about an address. -/
def Request.about (address : Address) : Request → Bool
  | listServers _ => false
  | heartbeat record => record.address = address
  | deleteServer deleted => deleted = address

/-- The address that was reported last. -/
def reportedLast (requests : List Request) : Option Address :=
  requests.foldl (fun last request =>
    match request with
    | .heartbeat record => some record.address
    | .listServers _ | .deleteServer _ => last) none

/-- Every deletion is one of the address that was reported last, and so will be the next one. -/
def Peer.Linked (peer : Peer) : Prop :=
  peer.serverAddress = (reportedLast peer.requests).getD ⟨⟨0, 0, 0, 0⟩, 0⟩ ∧
    ∀ before deleted after, peer.requests = before ++ .deleteServer deleted :: after →
      deleted = (reportedLast before).getD ⟨⟨0, 0, 0, 0⟩, 0⟩

theorem reported_last_concat (request : Request) :
    reportedLast (requests ++ [request]) =
      match request with
      | .heartbeat record => some record.address
      | .listServers _ | .deleteServer _ => reportedLast requests := by
  rw [reportedLast, List.foldl_append]
  rfl

/-- What is not about an address leaves its status. -/
theorem status_of_filter :
    statusOf address (requests.filter (Request.about address)) = statusOf address requests := by
  have hskip : ∀ status request, Request.about address request = false →
      Status.next address status request = status := by
    intro status request habout
    cases request with
    | listServers filters => rfl
    | heartbeat record => exact if_neg (by simpa [Request.about] using habout)
    | deleteServer deleted =>
        exact if_neg fun hown => absurd hown.1 (by simpa [Request.about] using habout)
  unfold statusOf
  generalize Status.unknown = status
  induction requests generalizing status with
  | nil => rfl
  | cons request requests ih =>
      rw [List.foldl_cons]
      cases habout : Request.about address request with
      | true =>
          rw [List.filter_cons_of_pos habout, List.foldl_cons]
          exact ih _
      | false =>
          rw [List.filter_cons_of_neg (by simp [habout]), hskip status request habout]
          exact ih _

/-- Behind the last report of an address it is withdrawn if it is deleted at all. -/
theorem status_behind_report {status : Status} (hknown : status ≠ .unknown)
    (hlast : ∀ record, .heartbeat record ∈ requests → record.address ≠ address) :
    requests.foldl (Status.next address) status =
      if .deleteServer address ∈ requests then .withdrawn else status := by
  induction requests generalizing status with
  | nil => rfl
  | cons request requests ih =>
      have hrest : ∀ record, .heartbeat record ∈ requests → record.address ≠ address :=
        fun record hmem => hlast record (List.mem_cons_of_mem _ hmem)
      rw [List.foldl_cons]
      by_cases hdeleted : request = .deleteServer address
      · subst hdeleted
        rw [Status.next, if_pos ⟨rfl, hknown⟩, ih Status.noConfusion hrest,
          if_pos List.mem_cons_self, ite_self]
      · have hkept : Status.next address status request = status := by
          cases request with
          | listServers filters => rfl
          | heartbeat record => exact if_neg (hlast record List.mem_cons_self)
          | deleteServer deleted =>
              exact if_neg fun hown => hdeleted (congrArg Request.deleteServer hown.1)
        rw [hkept, ih hknown hrest]
        simp [Ne.symm hdeleted]

/-- An address that was not reported is not known. -/
theorem status_unreported
    (h : ∀ record, .heartbeat record ∈ requests → record.address ≠ address) :
    statusOf address requests = .unknown := by
  unfold statusOf
  induction requests with
  | nil => rfl
  | cons request requests ih =>
      have hkept : Status.next address .unknown request = .unknown := by
        cases request with
        | listServers filters => rfl
        | heartbeat record => exact if_neg (h record List.mem_cons_self)
        | deleteServer deleted => exact if_neg fun hown => hown.2 rfl
      rw [List.foldl_cons, hkept]
      exact ih fun record hmem => h record (List.mem_cons_of_mem _ hmem)

/-- The last report of an address, if there is one. -/
theorem last_report (address : Address) (requests : List Request) :
    (∀ record, .heartbeat record ∈ requests → record.address ≠ address) ∨
      ∃ before record after, requests = before ++ .heartbeat record :: after ∧
        record.address = address ∧
        ∀ later, .heartbeat later ∈ after → later.address ≠ address := by
  induction requests using List.reverseRecOn with
  | nil => exact .inl fun _ hmem => absurd hmem List.not_mem_nil
  | append_singleton requests request ih =>
      by_cases hreport : ∃ record, request = .heartbeat record ∧ record.address = address
      · obtain ⟨record, rfl, haddress⟩ := hreport
        exact .inr ⟨requests, record, [], rfl, haddress, fun _ hmem => absurd hmem List.not_mem_nil⟩
      · have hother : ∀ record, request = .heartbeat record → record.address ≠ address :=
          fun record heq haddress => hreport ⟨record, heq, haddress⟩
        obtain hnone | ⟨before, record, after, rfl, haddress, hlast⟩ := ih
        · refine .inl fun record hmem => ?_
          obtain hbefore | heq := List.mem_append.mp hmem
          · exact hnone record hbefore
          · exact hother record (List.mem_singleton.mp heq).symm
        · refine .inr ⟨before, record, after ++ [request], by simp, haddress, fun later hmem => ?_⟩
          obtain hbefore | heq := List.mem_append.mp hmem
          · exact hlast later hbefore
          · exact hother later (List.mem_singleton.mp heq).symm

/-- If something is reported behind other requests, the last report is one of these. -/
theorem reported_last_mem (front : List Request) {requests : List Request} {record : ServerRecord}
    (h : .heartbeat record ∈ requests) :
    ∃ later, .heartbeat later ∈ requests ∧
      reportedLast (front ++ requests) = some later.address := by
  induction requests using List.reverseRecOn generalizing record with
  | nil => exact absurd h List.not_mem_nil
  | append_singleton requests request ih =>
      rw [← List.append_assoc, reported_last_concat]
      have hrest : .heartbeat record ∈ requests → ∃ later,
          .heartbeat later ∈ requests ++ [request] ∧
            reportedLast (front ++ requests) = some later.address := by
        intro hmem
        obtain ⟨later, hlater, hlast⟩ := ih hmem
        exact ⟨later, List.mem_append_left _ hlater, hlast⟩
      obtain hbefore | heq := List.mem_append.mp h
      · cases request with
        | listServers filters => exact hrest hbefore
        | heartbeat later => exact ⟨later, by simp, rfl⟩
        | deleteServer deleted => exact hrest hbefore
      · obtain rfl := List.mem_singleton.mp heq
        exact ⟨record, by simp, rfl⟩

/-- What a report and the requests behind it come to. -/
theorem status_report (before : List Request) (record : ServerRecord) {after : List Request}
    (hlast : ∀ later, .heartbeat later ∈ after → later.address ≠ record.address) :
    statusOf record.address (before ++ .heartbeat record :: after) =
      if .deleteServer record.address ∈ after then .withdrawn else .listed := by
  rw [statusOf, List.foldl_append, List.foldl_cons, Status.next, if_pos rfl]
  exact status_behind_report Status.noConfusion hlast

/-- An address is withdrawn exactly if its last report is followed at once by a deletion. -/
theorem withdrawn_iff (address : Address) {requests : List Request}
    (hlinked : ∀ before deleted after, requests = before ++ .deleteServer deleted :: after →
      deleted = (reportedLast before).getD ⟨⟨0, 0, 0, 0⟩, 0⟩)
    (hserver : ∀ record filters, .heartbeat record ∈ requests → .listServers filters ∉ requests) :
    statusOf address requests = .withdrawn ↔
      ∃ before record after,
        requests = before ++ .heartbeat record :: .deleteServer address :: after ∧
          record.address = address ∧
          ∀ later, .heartbeat later ∈ after → later.address ≠ address := by
  constructor
  · intro hstatus
    obtain hnone | ⟨before, record, after, rfl, rfl, hlast⟩ := last_report address requests
    · rw [status_unreported hnone] at hstatus
      cases hstatus
    · have hdeleted : .deleteServer record.address ∈ after := by
        by_contra hkept
        rw [status_report before record hlast, if_neg hkept] at hstatus
        cases hstatus
      obtain ⟨between, rest, rfl, hfirst⟩ := List.eq_append_cons_of_mem hdeleted
      have hquiet : ∀ later, .heartbeat later ∉ between := by
        intro later hlater
        obtain ⟨other, hother, hreported⟩ :=
          reported_last_mem (before ++ [.heartbeat record]) hlater
        have hsame := hlinked (before ++ [.heartbeat record] ++ between) record.address rest
          (by simp)
        rw [hreported] at hsame
        exact hlast other (List.mem_append_left _ hother) hsame.symm
      cases between with
      | nil =>
          exact ⟨before, record, rest, rfl, rfl, fun later hmem =>
            hlast later (List.mem_cons_of_mem _ hmem)⟩
      | cons request between =>
          cases request with
          | listServers filters => exact absurd (by simp) (hserver record filters (by simp))
          | heartbeat later => exact absurd List.mem_cons_self (hquiet later)
          | deleteServer deleted =>
              have hown := hlinked (before ++ [.heartbeat record]) deleted _ (by simp; rfl)
              rw [reported_last_concat, Option.getD_some] at hown
              exact absurd (hown ▸ List.mem_cons_self) hfirst
  · rintro ⟨before, record, after, rfl, rfl, hlast⟩
    rw [status_report before record, if_pos List.mem_cons_self]
    intro later hmem
    obtain heq | hafter := List.mem_cons.mp hmem
    · cases heq
    · exact hlast later hafter

/-- One more request keeps the deletions to the address that was reported last. -/
theorem Peer.Linked.add {request : Request} (h : peer.Linked)
    (hrequest : match request with
      | .heartbeat record => next.serverAddress = record.address
      | .listServers _ => next.serverAddress = peer.serverAddress
      | .deleteServer deleted =>
          next.serverAddress = peer.serverAddress ∧ deleted = peer.serverAddress)
    (hrequests : next.requests = peer.requests ++ [request]) :
    next.Linked := by
  refine ⟨?_, fun before deleted after heq => ?_⟩
  · rw [hrequests, reported_last_concat]
    cases request with
    | listServers filters => exact hrequest.trans h.1
    | heartbeat record => exact hrequest
    | deleteServer deleted => exact hrequest.1.trans h.1
  · rw [hrequests] at heq
    obtain rfl | ⟨after, last, rfl⟩ := List.eq_nil_or_concat after
    · obtain ⟨hbefore, hlast⟩ := List.append_inj' heq rfl
      obtain rfl := List.singleton_inj.mp hlast
      rw [← hbefore, ← h.1]
      exact hrequest.2
    · rw [List.concat_eq_append, ← List.cons_append, ← List.append_assoc] at heq
      exact h.2 before deleted after (List.append_inj' heq rfl).1

/-- Every move keeps the deletions to the address that was reported last. -/
theorem Peer.Moves.linked (hmoves : Moves configs peer next) (h : peer.Linked) : next.Linked := by
  have hdelete : ∀ (peer : Peer) timeout, peer.Linked → (peer.delete timeout).Linked := by
    intro peer timeout hpeer
    have heq := delete_eq peer timeout
    cases hrequests : peer.withdrawal with
    | nil =>
        rw [heq, hrequests, List.append_nil]
        exact hpeer
    | cons request others =>
        have hown : request = .deleteServer peer.serverAddress ∧ others = [] := by
          unfold withdrawal at hrequests
          split at hrequests
          · split at hrequests
            · exact ⟨(List.cons.inj hrequests).1.symm, (List.cons.inj hrequests).2.symm⟩
            · cases hrequests
          · cases hrequests
        obtain ⟨rfl, rfl⟩ := hown
        rw [heq, hrequests]
        refine hpeer.add ?_ rfl
        exact ⟨rfl, rfl⟩
  cases hmoves with
  | idle => exact h
  | ended timeout => exact hdelete peer timeout h
  | approved config clientVersion gamestatsId hoffered hstate =>
      rw [sendChallengeAuthorization, sendChallengeResponse, send_packet_eq]
      exact h
  | opened config hconfig hstate =>
      rw [send_packet_eq]
      exact h
  | reported config record hconfig hstate hallows => exact h.add rfl rfl
  | told config buffers hconfig hserver hstate hbuffers =>
      rw [send_packets_eq]
      exact h
  | asked config filters hconfig hclient hstate => exact h.add rfl rfl
  | closes closing hclosing =>
      refine hdelete _ false ?_
      rw [send_packets_eq]
      exact h

theorem run_linked (now : Int) (ip : IPv4) (clientVersion gamestatsId : UInt32)
    (events : List SessionEvent)
    (hrun : (connected ip now clientVersion gamestatsId).run configs undef events = some peer) :
    peer.Linked := by
  induction events using List.reverseRecOn generalizing peer with
  | nil =>
      obtain rfl := Option.some.inj hrun
      exact ⟨rfl, fun before deleted after heq => absurd heq (by simp [connected])⟩
  | append_singleton events event ih =>
      obtain ⟨last, hbefore, hlast⟩ := Peer.run_sound undef
        (@Peer.connected_sound configs ip now clientVersion gamestatsId) events
      obtain ⟨seen, answered, moved, -, hstep, hmoves⟩ := Peer.step_moves undef hlast event
      rw [Peer.run_concat, hbefore, Option.bind_some, hstep] at hrun
      obtain rfl : moved = peer := Option.some.inj hrun
      have hlinked := ih hbefore
      exact hmoves.linked ⟨hlinked.1, hlinked.2⟩

end Requests

/-- Whatever a connection reads and whatever tasks are run for others in between, the record of an
address that its own tasks are about is marked as deleted in the end exactly if the connection was
deleted next after it had reported the address for the last time. It stays listed if another address
was reported before that, or if the last report was read from a peer that was already deleted. At no
time two addresses lead to one key. -/
theorem withdrawn_in_store_iff {configs : List Config} {undef : Int32} {ip : IPv4} {now : Int}
    {clientVersion gamestatsId : UInt32} {events : List SessionEvent} {peer : Peer}
    (hrun : (connected ip now clientVersion gamestatsId).run configs undef events = some peer)
    (address : Address) {tasks : List Task} (hids : tasks.length < 2 ^ 31)
    (htasks : (tasks.map Task.request).filter (Request.about address) =
      peer.requests.filter (Request.about address)) :
    ((after Store.runTask .empty tasks).MarkedDeleted address ↔
      ∃ before record after,
        peer.requests = before ++ .heartbeat record :: .deleteServer address :: after ∧
          record.address = address ∧
          ∀ later, .heartbeat later ∈ after → later.address ≠ address) ∧
      ∀ run rest, tasks = run ++ rest → ∀ one other key,
        (after Store.runTask .empty run).ipMap one = some key →
        (after Store.runTask .empty run).ipMap other = some key → one = other := by
  refine ⟨?_, fun run rest htasks one other key hone hother => ?_⟩
  case refine_2 =>
    have hlength : run.length ≤ tasks.length := by
      rw [htasks, List.length_append]
      exact Nat.le_add_right _ _
    exact (Store.after_apart run (by omega)).1.distinct one other key hone hother
  have hshows := Store.shows_status tasks hids address
  rw [← status_of_filter, htasks, status_of_filter] at hshows
  obtain ⟨last, hlast, hsound⟩ := Peer.run_sound undef
    (@Peer.connected_sound configs ip now clientVersion gamestatsId) events
  obtain rfl : peer = last := Option.some.inj (hrun.symm.trans hlast)
  have hserver : ∀ record filters, .heartbeat record ∈ peer.requests →
      .listServers filters ∉ peer.requests := by
    intro record filters hrecord hfilters
    obtain ⟨config, hconfig, hallows, -⟩ := hsound.allowed _ hrecord
    obtain ⟨other, hother, hclient⟩ := hsound.allowed _ hfilters
    obtain rfl : config = other := Option.some.inj (hconfig.symm.trans hother)
    exact Bool.false_ne_true (hclient.symm.trans hallows)
  rw [← withdrawn_iff address (run_linked now ip clientVersion gamestatsId events hrun).2 hserver]
  cases hstatus : statusOf address peer.requests with
  | unknown =>
      rw [hstatus] at hshows
      refine iff_of_false (fun hmarked => ?_) Status.noConfusion
      rw [Store.MarkedDeleted, Store.deletedField, show _ = none from hshows] at hmarked
      cases hmarked
  | listed =>
      rw [hstatus] at hshows
      exact iff_of_false hshows.2 Status.noConfusion
  | withdrawn =>
      rw [hstatus] at hshows
      exact iff_of_true hshows.2 rfl

/-- The configuration of game servers. -/
def serverConfig : Config :=
  { clientName := ascii "UT2K4SERVER"
    gameid := 1
    gamename := ascii "ut2004"
    motd := []
    isServer := true
    latestClientVersion := 3369
    packages := []
    communityMotd := []
    maps := [] }

/-- What a game server says: who it is, its uplink, and a heartbeat. -/
def hostMessages : List Bytes :=
  [writeFString (ascii "hash") ++ writeFString (ascii "response") ++
      writeFString serverConfig.clientName ++ writeInt 3369 ++ [3] ++ writeFString (ascii "int") ++
      writeInt 0 ++ [0],
    writeInt 0 ++ writeInt 0,
    1 :: (writeCompactInt 0 ++ writeInt 0 ++ writeFString [] ++ writeInt 7777 ++ writeInt 0 ++
      writeFString (ascii "host") ++ writeFString (ascii "DM-Rankin") ++
      writeFString (ascii "xDeathMatch") ++ writeInt 0 ++ writeInt 16 ++ writeInt 0 ++ writeInt 0 ++
      writeFString [] ++ writeCompactInt 0 ++ writeCompactInt 0)]

/-- A game server that says so and goes. -/
def hostEvents : List SessionEvent :=
  hostMessages.map (fun message => .read 0 (packet message)) ++ [.closed]

/-- What is reported of it. -/
def reportedHost : ServerRecord :=
  { hostRecord with
    gameid := 1
    rules := [(ascii "ServerVersion", ascii "3369")] }

/-- The server is gone from the list. -/
theorem withdrawn_in_store_host :
    (after Store.runTask .empty
        [.heartbeat ⟨0, ascii "ut2004", reportedHost⟩, .deleteServer hostAddress]).MarkedDeleted
      hostAddress := by
  obtain ⟨peer, hrun, -⟩ :=
    Peer.run_sound 0 (@Peer.connected_sound [serverConfig] hostAddress.ip 0 0 0) hostEvents
  have hrequests : ((connected hostAddress.ip 0 0 0).run [serverConfig] 0 hostEvents).map
      (·.requests) = some [.heartbeat reportedHost, .deleteServer hostAddress] := by
    decide +kernel
  rw [hrun] at hrequests
  have hpeer : peer.requests = [.heartbeat reportedHost, .deleteServer hostAddress] :=
    Option.some.inj hrequests
  exact (withdrawn_in_store_iff hrun hostAddress (by decide) (by rw [hpeer]; rfl)).1.mpr
    ⟨[], reportedHost, [], hpeer, rfl, fun later hmem => absurd hmem List.not_mem_nil⟩

end OpenSpy.UTMaster
