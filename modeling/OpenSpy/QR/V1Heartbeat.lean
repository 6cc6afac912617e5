import OpenSpy.Core.KVConstructor
import OpenSpy.QR.ServerInfo

/-!
# The version 1 heartbeat

`handle_v1_heartbeat_data` takes a key such as `player_2` for a value in row 2 of the column
`player`. It puts the value at the end of the column if there is no such row yet, whatever the row
is. `rows_kept_iff` says that the values get to their rows exactly if each row comes behind the one
before it.
-/

namespace OpenSpy.QR

open Bytes Commands MachineInt MultiMap

/-- `m_keys[key] = value`. -/
def setKey (key value : Bytes) (keys : List (Bytes × Bytes)) : List (Bytes × Bytes) :=
  if key ∈ keys.map Prod.fst then keys.map fun pair => if pair.1 = key then (key, value) else pair
  else keys ++ [(key, value)]

/-- A value of a player. There is no answer for an index in front of the values. -/
def ServerInfo.setPlayer (info : ServerInfo) (variableName : Bytes) (playerId : Int)
    (value : Bytes) : Option ServerInfo :=
  if int32 (find info.playerKeys variableName).length ≤ playerId then
    some { info with playerKeys := push variableName value info.playerKeys }
  else if playerId < 0 then none
  else some { info with playerKeys := set variableName playerId.toNat value info.playerKeys }

/-- The loop of `handle_v1_heartbeat_data`. -/
def handlePairs (info : ServerInfo) : List (Bytes × Bytes) → Option ServerInfo
  | [] => some info
  | p :: rest =>
      match isPlayerString p.1 with
      | some (variableName, playerId) => do
          let info ← info.setPlayer variableName playerId p.2
          handlePairs info rest
      | none =>
          if p.1 = ascii "final" then some info -- packet terminator
          else handlePairs { info with keys := setKey p.1 p.2 info.keys } rest

/-- `Driver::handle_v1_heartbeat_data`: the request that it adds. -/
def handleV1HeartbeatData (fromAddress : Address) (reader : List (Bytes × Bytes)) :
    Option PushRequest := do
  let server ← handlePairs (ServerInfo.ofAddress fromAddress) reader
  pure ⟨fromAddress, 0, server, 1⟩

/-- The pairs in front of the packet terminator. -/
def beforeFinal (pairs : List (Bytes × Bytes)) : List (Bytes × Bytes) :=
  pairs.takeWhile fun p => p.1 ≠ ascii "final"

/-- The row of a column that a pair gives a value for. -/
def playerPut (p : Bytes × Bytes) : Option (Put Bytes Bytes) :=
  (playerKey p.1).map fun (name, digits) => ⟨name, decimalValue digits, p.2⟩

/-- The values that pairs give for rows. -/
def playerPuts (pairs : List (Bytes × Bytes)) : List (Put Bytes Bytes) :=
  pairs.filterMap playerPut

section Pairs

variable {pairs : List (Bytes × Bytes)} {info : ServerInfo} {p : Bytes × Bytes}

/-- A pair that gives a value for a row. The number that is read is the row's if it is an `int`. -/
theorem handle_put {given : Put Bytes Bytes} (h : playerPut p = some given) (info : ServerInfo) :
    ∃ playerId, handlePairs info [p] = info.setPlayer given.key playerId given.value ∧
      (given.row < 2 ^ 31 → playerId = given.row) := by
  obtain ⟨⟨name, digits⟩, hkey, rfl⟩ := Option.map_eq_some_iff.mp h
  obtain ⟨-, -, hdigits⟩ := player_key_iff.mp hkey
  refine ⟨atoi digits, ?_, (atoi_digits_eq_iff hdigits).mpr⟩
  rw [handlePairs, is_player_string_eq, hkey]
  exact Option.bind_fun_some _

/-- Any other pair leaves the players alone. -/
theorem handle_other (h : playerPut p = none) (info : ServerInfo) :
    ∃ next, handlePairs info [p] = some next ∧ next.playerKeys = info.playerKeys := by
  rw [playerPut, Option.map_eq_none_iff] at h
  rw [handlePairs, is_player_string_eq, h]
  dsimp only [Option.map_none]
  split
  · exact ⟨_, rfl, rfl⟩
  · exact ⟨_, rfl, rfl⟩

/-- A pair that is not the terminator comes before the others. -/
theorem handle_pairs_cons (h : p.1 ≠ ascii "final") (info : ServerInfo)
    (pairs : List (Bytes × Bytes)) :
    handlePairs info (p :: pairs) = (handlePairs info [p]).bind (handlePairs · pairs) := by
  rw [handlePairs, handlePairs]
  cases isPlayerString p.1 with
  | none =>
      dsimp only
      rw [if_neg h, if_neg h]
      rfl
  | some player =>
      obtain ⟨variableName, playerId⟩ := player
      exact (Option.bind_assoc _ (handlePairs · []) (handlePairs · pairs)).symm

/-- The pairs behind the terminator are not looked at. -/
theorem handle_pairs_before_final (info : ServerInfo) (pairs : List (Bytes × Bytes)) :
    handlePairs info (beforeFinal pairs) = handlePairs info pairs := by
  induction pairs generalizing info with
  | nil => rfl
  | cons p pairs ih =>
      by_cases hfinal : p.1 = ascii "final"
      · have hkey : isPlayerString (ascii "final") = none := by decide
        rw [beforeFinal, List.takeWhile_cons_of_neg (by simp [hfinal]), handlePairs, handlePairs,
          hfinal, hkey]
        rfl
      · rw [beforeFinal, List.takeWhile_cons_of_pos (by simp [hfinal]), handle_pairs_cons hfinal,
          handle_pairs_cons hfinal info pairs]
        congr 1
        funext next
        exact ih next

/-- A pair more. -/
theorem handle_pairs_concat (h : ∀ p ∈ pairs, p.1 ≠ ascii "final") (info : ServerInfo)
    (p : Bytes × Bytes) :
    handlePairs info (pairs ++ [p]) = (handlePairs info pairs).bind (handlePairs · [p]) := by
  induction pairs generalizing info with
  | nil => rfl
  | cons first pairs ih =>
      have hfirst := h first List.mem_cons_self
      rw [List.cons_append, handle_pairs_cons hfirst, handle_pairs_cons hfirst info pairs,
        Option.bind_assoc]
      congr 1
      funext next
      exact ih (fun other hmem => h other (List.mem_cons_of_mem _ hmem)) next

end Pairs

section Rows

variable {pairs : List (Bytes × Bytes)} {info : ServerInfo} {p : Bytes × Bytes}

/-- A value for a row that follows is put at its row. -/
theorem set_player_follows {puts : List (Put Bytes Bytes)}
    (hplayers : info.playerKeys = putAll puts) (hfollow : AtEvery Follows puts)
    (hfew : puts.length < 2 ^ 31) {given : Put Bytes Bytes} (hnext : Follows puts given)
    {playerId : Int} (hid : given.row < 2 ^ 31 → playerId = given.row) :
    info.setPlayer given.key playerId given.value =
      some { info with playerKeys := putAll (puts ++ [given]) } := by
  have hsize : (find info.playerKeys given.key).length ≤ puts.length := by
    rw [hplayers]
    exact find_put_all_length_le puts given.key
  have hrow : given.row ≤ (find info.playerKeys given.key).length := by
    rw [hplayers]
    exact (follows_iff (cell_put_all hfollow) given).mp hnext
  obtain rfl := hid (by omega)
  have hint : int32 (find info.playerKeys given.key).length =
      (find info.playerKeys given.key).length := int32_eq_self (by omega) (by omega)
  rw [ServerInfo.setPlayer, hint, put_all_concat, put, ← hplayers, Int.toNat_natCast]
  by_cases hlen : (find info.playerKeys given.key).length ≤ given.row
  · rw [if_pos (by omega), if_pos hlen]
  · rw [if_neg (by omega), if_neg (by omega), if_neg hlen]

/-- A value for a row that is not there and does not follow does not get to its row. -/
theorem set_player_beyond {playerId : Int} {name value : Bytes} {row : Nat} {next : ServerInfo}
    (hrow : (find info.playerKeys name).length < row)
    (h : info.setPlayer name playerId value = some next) :
    cell next.playerKeys name row = none := by
  unfold ServerInfo.setPlayer at h
  split at h
  · obtain rfl := Option.some.inj h
    rw [cell, find_push, if_pos rfl, List.getElem?_eq_none]
    rw [List.length_append, List.length_singleton]
    exact hrow
  · split at h
    · cases h
    · obtain rfl := Option.some.inj h
      rw [cell, find_set, if_pos rfl, List.getElem?_eq_none]
      rw [List.length_set]
      exact hrow.le

theorem player_puts_concat (pairs : List (Bytes × Bytes)) (p : Bytes × Bytes) :
    playerPuts (pairs ++ [p]) = playerPuts pairs ++ (playerPut p).toList := by
  rw [playerPuts, List.filterMap_append]
  cases hput : playerPut p with
  | none => rw [List.filterMap_cons_none hput]; rfl
  | some next => rw [List.filterMap_cons_some hput]; rfl

/-- While each row follows, the players' values are put at their rows. -/
theorem handle_pairs_follows (hfinal : ∀ p ∈ pairs, p.1 ≠ ascii "final")
    (hfew : (playerPuts pairs).length < 2 ^ 31) (hfollow : AtEvery Follows (playerPuts pairs))
    (hstart : info.playerKeys = []) :
    ∃ next, handlePairs info pairs = some next ∧
      next.playerKeys = putAll (playerPuts pairs) := by
  induction pairs using List.reverseRecOn with
  | nil => exact ⟨info, rfl, hstart⟩
  | append_singleton pairs p ih =>
      have hbefore : ∀ p ∈ pairs, p.1 ≠ ascii "final" := fun other hmem =>
        hfinal other (List.mem_append_left _ hmem)
      rw [handle_pairs_concat hbefore]
      rw [player_puts_concat] at hfew hfollow ⊢
      cases hput : playerPut p with
      | none =>
          rw [hput, Option.toList_none, List.append_nil] at hfew hfollow
          obtain ⟨middle, hmiddle, hplayers⟩ := ih hbefore hfew hfollow
          obtain ⟨next, hnext, hsame⟩ := handle_other hput middle
          rw [Option.toList_none, List.append_nil]
          exact ⟨next, by rw [hmiddle, Option.bind_some, hnext], hsame.trans hplayers⟩
      | some given =>
          rw [hput, Option.toList_some] at hfew hfollow
          rw [List.length_append, List.length_singleton] at hfew
          obtain ⟨hputs, hgiven⟩ := at_every_append.mp hfollow
          obtain ⟨middle, hmiddle, hplayers⟩ := ih hbefore (by omega) hputs
          obtain ⟨playerId, hhandle, hid⟩ := handle_put hput middle
          refine ⟨{ middle with playerKeys := putAll (playerPuts pairs ++ [given]) }, ?_, rfl⟩
          rw [hmiddle, Option.bind_some, hhandle,
            set_player_follows hplayers hputs (by omega) hgiven hid]

end Rows

/-- A reader has no more pairs than its text has tokens. -/
theorem kv_reader_length_le (text : Bytes) : (kvReader text).length ≤ text.length + 1 := by
  have hpairs (kvMap : List (Bytes × Bytes)) (tokens : List Bytes) :
      (readPairs kvMap tokens).length ≤ kvMap.length + tokens.length := by
    fun_induction readPairs kvMap tokens with
    | case1 kvMap => exact Nat.le_refl _
    | case2 kvMap key hkey => simp
    | case3 kvMap key hkey => exact Nat.le_succ _
    | case4 kvMap key value tokens hkey ih =>
        rw [List.length_cons, List.length_cons]
        omega
    | case5 kvMap key value tokens hkey ih =>
        rw [List.length_append, List.length_singleton] at ih
        rw [List.length_cons, List.length_cons]
        omega
  refine (hpairs _ _).trans ?_
  rw [List.length_nil, Nat.zero_add]
  refine (KVReader.getlines_length_le _ _).trans (Nat.succ_le_succ ?_)
  split
  · rw [List.length_tail]
    exact Nat.sub_le _ _
  · exact Nat.le_refl _

/-- The values that pairs gave last for their rows are there. -/
def RowsKept (fromAddress : Address) (pairs : List (Bytes × Bytes)) : Prop :=
  ∃ request, handleV1HeartbeatData fromAddress pairs = some request ∧
    ∀ name row value, given (playerPuts (beforeFinal pairs)) name row = some value →
      cell request.server.playerKeys name row = some value

theorem before_final_prefix {pairs all : List (Bytes × Bytes)} (h : pairs <+: all) :
    beforeFinal pairs <+: beforeFinal all := by
  obtain ⟨rest, rfl⟩ := h
  rw [beforeFinal, beforeFinal, List.takeWhile_append]
  split
  · exact (List.takeWhile_prefix _).trans (List.prefix_append _ _)
  · exact List.prefix_refl _

theorem rows_kept_before_final (fromAddress : Address) (pairs : List (Bytes × Bytes)) :
    RowsKept fromAddress (beforeFinal pairs) ↔ RowsKept fromAddress pairs := by
  have htwice : beforeFinal (beforeFinal pairs) = beforeFinal pairs := List.takeWhile_idem
  unfold RowsKept handleV1HeartbeatData
  rw [htwice, handle_pairs_before_final]

section Packets

variable {pairs : List (Bytes × Bytes)} (fromAddress : Address)
  (hfinal : ∀ p ∈ pairs, p.1 ≠ ascii "final") (hfew : (playerPuts pairs).length < 2 ^ 31)

include hfinal hfew

/-- Where each row follows, the values are there. -/
theorem rows_kept_of_follows (hfollow : AtEvery Follows (playerPuts pairs)) :
    RowsKept fromAddress pairs := by
  have hstart : (ServerInfo.ofAddress fromAddress).playerKeys = [] := rfl
  have hall : beforeFinal pairs = pairs :=
    List.takeWhile_eq_self_iff.mpr fun p hmem => by simp [hfinal p hmem]
  obtain ⟨next, hnext, hplayers⟩ := handle_pairs_follows hfinal hfew hfollow hstart
  refine ⟨⟨fromAddress, 0, next, 1⟩, ?_, fun name row value hgiven => ?_⟩
  · rw [handleV1HeartbeatData, hnext]
    rfl
  · show cell next.playerKeys name row = some value
    rw [hplayers, cell_put_all hfollow, ← hgiven, hall]

/-- Where a pair more keeps the values, its row follows. -/
theorem follows_of_rows_kept (hfollow : AtEvery Follows (playerPuts pairs)) {p : Bytes × Bytes}
    (hp : p.1 ≠ ascii "final") (hkept : RowsKept fromAddress (pairs ++ [p])) :
    AtEvery Follows (playerPuts (pairs ++ [p])) := by
  have hstart : (ServerInfo.ofAddress fromAddress).playerKeys = [] := rfl
  have hall : beforeFinal (pairs ++ [p]) = pairs ++ [p] := by
    refine List.takeWhile_eq_self_iff.mpr fun other hmem => ?_
    rcases List.mem_append.mp hmem with hmem | hmem
    · simp [hfinal other hmem]
    · simp [List.mem_singleton.mp hmem, hp]
  obtain ⟨request, hrequest, hrows⟩ := hkept
  rw [hall, player_puts_concat] at hrows
  rw [player_puts_concat]
  cases hput : playerPut p with
  | none =>
      rw [Option.toList_none, List.append_nil]
      exact hfollow
  | some next =>
      rw [hput, Option.toList_some] at hrows
      rw [Option.toList_some]
      refine at_every_append.mpr ⟨hfollow, (follows_iff (cell_put_all hfollow) next).mpr ?_⟩
      by_contra hbeyond
      obtain ⟨middle, hmiddle, hplayers⟩ := handle_pairs_follows hfinal hfew hfollow hstart
      obtain ⟨playerId, hhandle, -⟩ := handle_put hput middle
      rw [handleV1HeartbeatData, handle_pairs_concat hfinal, hmiddle, Option.bind_some,
        hhandle] at hrequest
      obtain ⟨server, hserver, hsome⟩ := Option.bind_eq_some_iff.mp hrequest
      obtain rfl := Option.some.inj hsome
      have hshown := hrows next.key next.row next.value (by simp [given_concat])
      rw [← hplayers] at hbeyond
      have hnone := set_player_beyond (Nat.lt_of_not_le hbeyond) hserver
      exact absurd (hnone.symm.trans hshown) (by simp)

end Packets

/-- All through the pairs of a packet the values that were given last for their rows are there,
exactly if each row that is given, up to the terminator, comes behind the one before it. A packet is
a datagram, and so has less than `2 ^ 16` bytes. -/
theorem rows_kept_iff (fromAddress : Address) (packet : Bytes) (h : packet.length < 2 ^ 16) :
    (∀ pairs, pairs <+: kvReader packet → RowsKept fromAddress pairs) ↔
      AtEvery Follows (playerPuts (beforeFinal (kvReader packet))) := by
  have hlength : (beforeFinal (kvReader packet)).length ≤ packet.length + 1 :=
    (List.takeWhile_prefix _).length_le.trans (kv_reader_length_le packet)
  have hfinal : ∀ pairs, pairs <+: beforeFinal (kvReader packet) →
      ∀ p ∈ pairs, p.1 ≠ ascii "final" := by
    intro pairs hpre p hmem
    simpa using List.mem_takeWhile_imp (hpre.subset hmem)
  have hfew : ∀ pairs, pairs <+: beforeFinal (kvReader packet) →
      (playerPuts pairs).length < 2 ^ 31 := by
    intro pairs hpre
    have hle := (List.length_filterMap_le playerPut pairs).trans hpre.length_le
    rw [playerPuts]
    omega
  constructor
  · intro hkept
    have hall : ∀ pairs, pairs <+: beforeFinal (kvReader packet) →
        AtEvery Follows (playerPuts pairs) := by
      intro pairs hpre
      induction pairs using List.reverseRecOn with
      | nil => exact at_every_nil
      | append_singleton pairs p ih =>
          have hbefore := (List.prefix_append pairs [p]).trans hpre
          exact follows_of_rows_kept fromAddress (hfinal pairs hbefore) (hfew pairs hbefore)
            (ih hbefore) (hfinal _ hpre p (by simp))
            (hkept _ (hpre.trans (List.takeWhile_prefix _)))
    exact hall _ (List.prefix_refl _)
  · intro hfollow pairs hpre
    have hbefore : beforeFinal pairs <+: beforeFinal (kvReader packet) := before_final_prefix hpre
    rw [← rows_kept_before_final]
    exact rows_kept_of_follows fromAddress (hfinal _ hbefore) (hfew _ hbefore)
      (hfollow.of_prefix (hbefore.filterMap _))

/-- Two rows in their order. -/
theorem rows_kept_iff_two :
    (∀ pairs, pairs <+: kvReader (ascii "\\player_0\\ann\\player_1\\bob\\final\\") →
        RowsKept ⟨⟨10, 0, 0, 1⟩, 6500⟩ pairs) ↔
      AtEvery Follows (playerPuts (beforeFinal (kvReader
        (ascii "\\player_0\\ann\\player_1\\bob\\final\\")))) :=
  rows_kept_iff ⟨⟨10, 0, 0, 1⟩, 6500⟩ _ (by decide)

/-- A row without the one before it. -/
theorem lone_row_moved :
    ¬ ∀ (fromAddress : Address) (packet : Bytes), packet.length < 2 ^ 16 →
      ∀ pairs, pairs <+: kvReader packet → RowsKept fromAddress pairs := by
  intro h
  obtain ⟨request, hrequest, hrows⟩ := h ⟨⟨10, 0, 0, 1⟩, 6500⟩ (ascii "\\player_1\\bob")
    (by decide) _ (List.prefix_refl _)
  have hcell := hrows (ascii "player") 1 (ascii "bob") (by decide)
  have hmoved : (handleV1HeartbeatData ⟨⟨10, 0, 0, 1⟩, 6500⟩
      (kvReader (ascii "\\player_1\\bob"))).map (fun request =>
        cell request.server.playerKeys (ascii "player") 1) = some none := by
    decide +kernel
  rw [hrequest, Option.map_some, hcell] at hmoved
  exact absurd hmoved (by decide)

end OpenSpy.QR
