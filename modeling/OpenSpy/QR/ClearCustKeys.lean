import OpenSpy.Library.KeySpace

/-!
# Clearing the custom keys of a server

`ClearServerCustKeys` of `Heartbeat.cpp` scans the key space for the keys that begin with the key
of the server and `custkeys`, and deletes each batch before it asks for the next one. Its two loops
over a batch go on by two elements, as in a reply of `HSCAN`, where a value follows each field.
`clear_server_cust_keys_iff` says when no key of the server is left and no other key is gone.
-/

namespace OpenSpy.QR

open Bytes MachineInt Redis

/-- The cursor behind a reply, whose first element is this. -/
def nextCursor (cursor : Int) : Element → Int
  | .string text => atoi text
  | .integer value => int32 value
  | .other => cursor

/-- The elements at which `i += 2` comes by. -/
def everySecond {α : Type*} : List α → List α
  | [] => []
  | [key] => [key]
  | key :: _ :: rest => key :: everySecond rest

/-- The elements at which it does not. -/
def passedOver {α : Type*} : List α → List α
  | [] => []
  | [_] => []
  | _ :: key :: rest => key :: passedOver rest

section Model

variable {α : Type*}

/-- The loop of `ClearServerCustKeys`, which ends when there is no reply or an error. -/
def clearLoop : Int → List Reply → Connection α → Connection α
  | _, [], conn => conn
  | cursor, reply :: replies, conn =>
      match conn.scan reply with
      | (some (.scan element keys), conn) =>
          let cursor := nextCursor cursor element
          let conn := conn.appendDels (everySecond keys)
          let conn := conn.getReplies (everySecond keys)
          if cursor ≠ 0 then clearLoop cursor replies conn else conn
      | (_, conn) => conn

/-- The pattern of the scan, which is a C string. -/
def custKeysMatch (serverKey : Bytes) : Bytes :=
  cString (serverKey ++ ascii "custkeys*")

/-- `ClearServerCustKeys`. `answers` has the replies to the `SCAN` commands with a pattern. -/
def clearServerCustKeys (answers : Bytes → List Reply) (conn : Connection α) (serverKey : Bytes) :
    Connection α :=
  clearLoop 0 (answers (custKeysMatch serverKey)) conn

end Model

/-- What the custom keys of a server begin with. -/
def custKeys (serverKey : Bytes) : Bytes :=
  serverKey ++ ascii "custkeys"

/-- The batches up to the first one whose cursor is 0 as an `int`. -/
def readBatches : List (Nat × List Bytes) → List (Nat × List Bytes)
  | [] => []
  | batch :: batches =>
      batch :: if atoi (printNat batch.1) = 0 then [] else readBatches batches

/-- The batches behind it. -/
def leftBatches : List (Nat × List Bytes) → List (Nat × List Bytes)
  | [] => []
  | batch :: batches => if atoi (printNat batch.1) = 0 then batches else leftBatches batches

/-- The keys of the batches that are deleted. -/
def deletedKeys (batches : List (Nat × List Bytes)) : List Bytes :=
  (readBatches batches).flatMap fun batch => everySecond batch.2

/-- A scan finds the keys of the server one by one: no batch that is read has a second key, or one
of somebody else, none of them is in a batch that is not read, and all of them are C strings. -/
structure FoundOneByOne {α : Type*} (keys : KeySpace α) (serverKey : Bytes)
    (batches : List (Nat × List Bytes)) : Prop where
  single : ∀ batch ∈ readBatches batches, batch.2.length ≤ 1
  own : ∀ batch ∈ readBatches batches, ∀ key ∈ batch.2, custKeys serverKey <+: key
  read : ∀ batch ∈ leftBatches batches, ∀ key ∈ batch.2, ¬ custKeys serverKey <+: key
  strings : ∀ key, custKeys serverKey <+: key → keys key ≠ none → 0 ∉ key

section Batches

variable {batches : List (Nat × List Bytes)}

theorem read_append_left (batches : List (Nat × List Bytes)) :
    readBatches batches ++ leftBatches batches = batches := by
  induction batches with
  | nil => rfl
  | cons batch batches ih =>
      rw [readBatches, leftBatches]
      split
      · rfl
      · rw [List.cons_append, ih]

theorem mem_of_read {batch : Nat × List Bytes} (h : batch ∈ readBatches batches) :
    batch ∈ batches := by
  rw [← read_append_left batches]
  exact List.mem_append_left _ h

theorem mem_of_left {batch : Nat × List Bytes} (h : batch ∈ leftBatches batches) :
    batch ∈ batches := by
  rw [← read_append_left batches]
  exact List.mem_append_right _ h

theorem every_second_perm {α : Type*} (keys : List α) :
    (everySecond keys ++ passedOver keys).Perm keys := by
  fun_induction everySecond keys with
  | case1 => exact .refl _
  | case2 => exact .refl _
  | case3 key second rest ih =>
      rw [passedOver, List.cons_append]
      exact (List.perm_middle.trans (ih.cons second)).cons key

theorem mem_of_every_second {α : Type*} {keys : List α} {key : α}
    (h : key ∈ everySecond keys) : key ∈ keys :=
  (every_second_perm keys).subset (List.mem_append_left _ h)

theorem first_mem_every_second {α : Type*} (first : α) (rest : List α) :
    first ∈ everySecond (first :: rest) := by
  cases rest <;> simp [everySecond]

theorem every_second_of_length {α : Type*} {keys : List α} (h : keys.length ≤ 1) :
    everySecond keys = keys := by
  rcases keys with _ | ⟨key, _ | _⟩
  · rfl
  · rfl
  · simp at h

/-- A key is deleted, or passed over, or in a batch that is not read. -/
theorem batches_perm (batches : List (Nat × List Bytes)) :
    (deletedKeys batches ++ ((readBatches batches).flatMap (passedOver ·.2) ++
      (leftBatches batches).flatMap Prod.snd)).Perm (batches.flatMap Prod.snd) := by
  have hread : (deletedKeys batches ++ (readBatches batches).flatMap (passedOver ·.2)).Perm
      ((readBatches batches).flatMap Prod.snd) :=
    (List.flatMap_append_perm _ _ _).trans
      (List.Perm.flatMap_left _ fun batch _ => every_second_perm batch.2)
  conv_rhs => rw [← read_append_left batches, List.flatMap_append]
  rw [← List.append_assoc]
  exact hread.append_right _

end Batches

section Loop

variable {α : Type*}

/-- What is deleted in a scan. No reply is left unread. -/
theorem clear_loop_batches (cursor : Int) (batches : List (Nat × List Bytes))
    (keys : KeySpace α) :
    clearLoop cursor (batches.map fun batch => .scan (.string (printNat batch.1)) batch.2)
        ⟨keys, []⟩ =
      ⟨((deletedKeys batches).map cString).foldl del keys, []⟩ := by
  induction batches generalizing cursor keys with
  | nil => rfl
  | cons batch batches ih =>
      rw [List.map_cons, clearLoop, Connection.scan_eq rfl]
      simp only [Connection.get_replies_append_dels, nextCursor, deletedKeys, readBatches]
      by_cases hcursor : atoi (printNat batch.1) = 0
      · rw [if_neg (not_not.mpr hcursor), if_pos hcursor, List.flatMap_cons, List.flatMap_nil,
          List.append_nil]
      · rw [if_pos hcursor, if_neg hcursor, ih, List.flatMap_cons, List.map_append,
          List.foldl_append]
        rfl

end Loop

section Patterns

variable {glob : KeyPattern} {serverKey : Bytes}

theorem plain_cust_keys (h : Plain serverKey) : Plain (custKeys serverKey) := by
  intro b hb
  rcases List.mem_append.mp hb with hserver | hcust
  · exact h b hserver
  · exact (by decide +kernel : Plain (ascii "custkeys")) b hcust

/-- A server key without a NUL has the pattern for what begins with it. -/
theorem stands_cust_keys (h : Plain serverKey) (hnul : 0 ∉ serverKey) (key : Bytes) :
    glob.stands (custKeysMatch serverKey) key = true ↔ custKeys serverKey <+: key := by
  have hmatch : custKeysMatch serverKey = custKeys serverKey ++ ascii "*" := by
    rw [custKeysMatch, c_string_append fun b hb h0 => hnul (h0 ▸ hb), custKeys, List.append_assoc]
    rfl
  rw [hmatch, glob.beginning (plain_cust_keys h)]

/-- One with a NUL has the pattern for what is in front of the NUL. -/
theorem stands_front (h : Plain serverKey) (hnul : 0 ∈ serverKey) (key : Bytes) :
    glob.stands (custKeysMatch serverKey) key = true ↔ key = cString serverKey := by
  have hmatch : custKeysMatch serverKey = cString serverKey := by
    obtain ⟨front, rest, rfl, hfront⟩ := List.eq_append_cons_of_mem hnul
    rw [custKeysMatch, List.append_assoc, List.cons_append, c_string_terminated hfront,
      c_string_terminated hfront]
  rw [hmatch]
  exact glob.whole (fun b hb => h b ((List.takeWhile_prefix _).subset hb)) key

end Patterns

section Scan

variable {α : Type*} {glob : KeyPattern} {keys : KeySpace α} {serverKey key : Bytes}

/-- A scan finds keys of the server, or what a server key with a NUL begins with. -/
theorem found_cases (hplain : Plain serverKey)
    (h : glob.stands (custKeysMatch serverKey) key = true) :
    custKeys serverKey <+: key ∨
      0 ∉ key ∧ ∀ other, glob.stands (custKeysMatch serverKey) other = true → other = key := by
  by_cases hnul : 0 ∈ serverKey
  · right
    rw [(stands_front hplain hnul key).mp h]
    exact ⟨zero_not_mem_c_string serverKey, fun other => (stands_front hplain hnul other).mp⟩
  · exact .inl ((stands_cust_keys hplain hnul key).mp h)

/-- It finds every key of the server that is a C string. -/
theorem stands_of_own (hplain : Plain serverKey) (hown : custKeys serverKey <+: key)
    (hnul : 0 ∉ key) : glob.stands (custKeysMatch serverKey) key = true := by
  refine (stands_cust_keys hplain (fun hmem => hnul ?_) key).mpr hown
  exact hown.subset (List.mem_append_left _ hmem)

variable (scan : KeyScan glob keys (custKeysMatch serverKey))

/-- A deleted key is not passed over, and not in a batch that is not read. -/
theorem deleted_nodup :
    (deletedKeys scan.batches ++ ((readBatches scan.batches).flatMap (passedOver ·.2) ++
      (leftBatches scan.batches).flatMap Prod.snd)).Nodup :=
  (batches_perm scan.batches).nodup_iff.mpr scan.nodup

/-- The keys in a batch are there, and found by the pattern. -/
theorem found_there {batch : Nat × List Bytes} (hbatch : batch ∈ scan.batches)
    (hkey : key ∈ batch.2) :
    keys key ≠ none ∧ glob.stands (custKeysMatch serverKey) key = true :=
  (scan.complete key).mp (List.mem_flatMap_of_mem hbatch hkey)

/-- Where the keys are found one by one, just those of the server are deleted. -/
theorem FoundOneByOne.mem_deleted_iff (h : FoundOneByOne keys serverKey scan.batches)
    (hplain : Plain serverKey) (hexists : keys key ≠ none) :
    key ∈ (deletedKeys scan.batches).map cString ↔ custKeys serverKey <+: key := by
  rw [List.mem_map]
  constructor
  · rintro ⟨found, hfound, rfl⟩
    obtain ⟨batch, hread, hmem⟩ := List.mem_flatMap.mp hfound
    have hbatch := mem_of_every_second hmem
    have hown := h.own batch hread found hbatch
    have hthere := found_there scan (mem_of_read hread) hbatch
    rwa [c_string_eq_self (h.strings found hown hthere.1)]
  · intro hown
    have hnul := h.strings key hown hexists
    have hall := (scan.complete key).mpr ⟨hexists, stands_of_own hplain hown hnul⟩
    rw [← read_append_left scan.batches, List.flatMap_append, List.mem_append, List.mem_flatMap,
      List.mem_flatMap] at hall
    rcases hall with ⟨batch, hread, hmem⟩ | ⟨batch, hleft, hmem⟩
    · refine ⟨key, List.mem_flatMap_of_mem hread ?_, c_string_eq_self hnul⟩
      rwa [every_second_of_length (h.single batch hread)]
    · exact absurd hown (h.read batch hleft key hmem)

section Deleted

/-- Just the keys of the server are deleted, of those that are there. -/
def DeletesOwn : Prop :=
  ∀ key, keys key ≠ none →
    (key ∈ (deletedKeys scan.batches).map cString ↔ custKeys serverKey <+: key)

variable {scan}

/-- What is deleted is a C string. -/
theorem DeletesOwn.string (h : DeletesOwn scan) (hown : custKeys serverKey <+: key)
    (hexists : keys key ≠ none) : 0 ∉ key := by
  obtain ⟨found, -, rfl⟩ := List.mem_map.mp ((h key hexists).mpr hown)
  exact zero_not_mem_c_string found

/-- The keys in a batch that is read are the server's. -/
theorem DeletesOwn.own (h : DeletesOwn scan) (hplain : Plain serverKey)
    {batch : Nat × List Bytes} (hread : batch ∈ readBatches scan.batches) (hmem : key ∈ batch.2) :
    custKeys serverKey <+: key := by
  have hthere := found_there scan (mem_of_read hread) hmem
  rcases found_cases hplain hthere.2 with hkey | ⟨hnul, honly⟩
  · exact hkey
  · -- the first key of the batch is deleted, and it is this one
    refine (h key hthere.1).mp (List.mem_map.mpr ⟨key, ?_, c_string_eq_self hnul⟩)
    refine List.mem_flatMap_of_mem hread ?_
    obtain ⟨first, rest, hbatch⟩ := List.exists_cons_of_ne_nil (List.ne_nil_of_mem hmem)
    have hfirst : first ∈ batch.2 := by simp [hbatch]
    rw [← honly first (found_there scan (mem_of_read hread) hfirst).2, hbatch]
    exact first_mem_every_second first rest

/-- A key of the server is deleted under its own name. -/
theorem DeletesOwn.mem_deleted (h : DeletesOwn scan) (hplain : Plain serverKey)
    (hown : custKeys serverKey <+: key) (hexists : keys key ≠ none) :
    key ∈ deletedKeys scan.batches := by
  obtain ⟨found, hfound, heq⟩ := List.mem_map.mp ((h key hexists).mpr hown)
  obtain ⟨batch, hread, hmem⟩ := List.mem_flatMap.mp hfound
  have hbatch := mem_of_every_second hmem
  have hthere := found_there scan (mem_of_read hread) hbatch
  rw [c_string_eq_self (h.string (h.own hplain hread hbatch) hthere.1)] at heq
  rwa [← heq]

/-- Where just the keys of the server are deleted, they are found one by one. -/
theorem DeletesOwn.found_one_by_one (h : DeletesOwn scan) (hplain : Plain serverKey) :
    FoundOneByOne keys serverKey scan.batches := by
  have hdisjoint := (List.nodup_append'.mp (deleted_nodup scan)).2.2
  refine ⟨?_, fun _ hread _ => h.own hplain hread, ?_, fun _ => h.string⟩
  · intro batch hread
    rcases hbatch : batch.2 with _ | ⟨first, _ | ⟨second, rest⟩⟩
    · simp
    · simp
    · have hmem : second ∈ batch.2 := by simp [hbatch]
      have hthere := found_there scan (mem_of_read hread) hmem
      refine absurd ?_ (hdisjoint (h.mem_deleted hplain (h.own hplain hread hmem) hthere.1))
      refine List.mem_append_left _ (List.mem_flatMap_of_mem hread ?_)
      simp [hbatch, passedOver]
  · intro batch hleft key hmem hkey
    have hthere := found_there scan (mem_of_left hleft) hmem
    refine absurd ?_ (hdisjoint (h.mem_deleted hplain hkey hthere.1))
    exact List.mem_append_right _ (List.mem_flatMap_of_mem hleft hmem)

end Deleted

end Scan

/-- A scan at each pattern, for redis with these keys. -/
abbrev Scans {α : Type*} (glob : KeyPattern) (keys : KeySpace α) :=
  (pattern : Bytes) → KeyScan glob keys pattern

/-- When clearing the custom keys of a server clears all of them and no others. -/
theorem clear_server_cust_keys_iff {α : Type*} (glob : KeyPattern) (keys : KeySpace α)
    (scans : Scans glob keys) {serverKey : Bytes} (hplain : Plain serverKey) :
    (clearServerCustKeys (fun pattern => (scans pattern).replies) ⟨keys, []⟩ serverKey).keys =
        (fun key => if custKeys serverKey <+: key then none else keys key) ↔
      FoundOneByOne keys serverKey (scans (custKeysMatch serverKey)).batches := by
  rw [clearServerCustKeys, KeyScan.replies, clear_loop_batches, foldl_del_eq_iff]
  constructor
  · intro h
    exact DeletesOwn.found_one_by_one h hplain
  · intro h key hexists
    exact h.mem_deleted_iff _ hplain hexists

/-- The keys of a server without teams and players are cleared. -/
theorem clear_server_cust_keys_one :
    (clearServerCustKeys
      (fun pattern => (KeyScan.single starPattern
        (List.nodup_singleton (ascii "ut:7:custkeys")) pattern).replies)
      ⟨keysOf [ascii "ut:7:custkeys"], []⟩ (ascii "ut:7:")).keys =
        fun key => if custKeys (ascii "ut:7:") <+: key then none
          else keysOf [ascii "ut:7:custkeys"] key := by
  refine (clear_server_cust_keys_iff starPattern _
    (KeyScan.single starPattern (List.nodup_singleton _)) (by decide +kernel)).mpr
    ⟨by decide +kernel, by decide +kernel, by decide +kernel, ?_⟩
  intro key _ hexists
  have hkey : key = ascii "ut:7:custkeys" := by simpa [keysOf] using hexists
  rw [hkey]
  decide

/-- The rows of two players. -/
def playerRows : List Bytes :=
  [ascii "ut:7:custkeys_player_0", ascii "ut:7:custkeys_player_1"]

/-- The second row in a batch is left. -/
theorem second_row_left :
    Plain (ascii "ut:7:") ∧
      (clearServerCustKeys
        (fun pattern => (KeyScan.single starPattern (by decide : playerRows.Nodup) pattern).replies)
        ⟨keysOf playerRows, []⟩ (ascii "ut:7:")).keys ≠
          fun key => if custKeys (ascii "ut:7:") <+: key then none else keysOf playerRows key := by
  refine ⟨by decide +kernel, fun h => ?_⟩
  have hrow := congrFun h (ascii "ut:7:custkeys_player_1")
  revert hrow
  decide +kernel

end OpenSpy.QR
