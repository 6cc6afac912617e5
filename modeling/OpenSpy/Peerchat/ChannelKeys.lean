import OpenSpy.Peerchat.KeyDatabase

/-!
# The keys of a channel

SETCHANKEY stores keys for a channel, GETCHANKEY reads them; for `topic`, `limit` and `key` it
answers with what the channel really has. `stored_eq` says that a run of SETCHANKEY leaves each key
with its last value. A pattern is applied to the three computed keys only: the scan returns all the
stored ones. `getchankey_finds_iff` says which requests are answered as they should be, in terms of
the response that is sent (`on_get_chan_key_eq`).
-/

namespace OpenSpy.Peerchat

open Bytes Redis Runs UserChannelFlag ChannelStore

/-- A SETCHANKEY request, with what its task finds outside of the hashes. -/
structure SetChanKey where
  env : Environment
  store : ChannelStore
  peer : ChatPeer
  channelTarget : Bytes
  kvText : Bytes

/-- The channel whose keys a SETCHANKEY sets, if its peer is allowed to. -/
def SetChanKey.target (request : SetChanKey) : Option (BitVec 32) :=
  let summary := getChannelSummaryByName request.env request.store request.channelTarget
  let fromModeFlags :=
    lookupUserChannelModeFlags request.store summary.channelId request.peer.details.id
  if summary.channelId = 0 then none
  else if !checkActionPermissions request.peer fromModeFlags 0 op then none
  else if request.peer.inChannel summary.channelId then some summary.channelId
  else none

/-- The keys that `Perform_SetChannelKeys` does not pass over. -/
def sentKeys (kvText : Bytes) : List (Bytes × Bytes) :=
  (kvReader kvText).filter fun pair => !isChankeyInjectKey pair.1

/-- The keys of a SETCHANKEY that are told to the channel. -/
def broadcastChannelKeys (kvText : Bytes) : List (Bytes × Bytes) :=
  ((sentKeys kvText).filter fun pair => pair.1.length > 2 && pair.1.take 2 == ascii "b_").foldl
    (fun keys pair => setField pair.1 pair.2 keys) []

/-- What a client sends for the keys of a channel is stored as it is. -/
theorem storable_sent_keys (channelId : BitVec 32) (kvText : Bytes) :
    Storable (.channelKeys channelId) (sentKeys kvText) := by
  intro other _ pair hpair
  obtain ⟨sent, hsent, rfl⟩ := List.mem_map.mp hpair
  obtain ⟨hmem, hkey⟩ := List.mem_filter.mp hsent
  have hplain := kv_reader_plain hmem
  have hstart (text : Bytes) : cString text <+: text := List.takeWhile_prefix _
  refine ⟨by simpa [isChankeyInjectKey] using hkey, ?_, ?_⟩
  · exact fun h => hplain.1 ((hstart sent.1).subset h)
  · exact fun h => hplain.2 ((hstart sent.2).subset h)

/-- `Perform_SetChannelKeys`, and what it publishes. -/
def performSetChannelKeys (request : SetChanKey) (db : KeyDatabase) :
    KeyDatabase × List Published :=
  match request.target with
  | none => (db, [])
  | some channelId =>
      (db.hset (.channelKeys channelId) (sentKeys request.kvText)
          (storable_sent_keys channelId request.kvText),
        if broadcastChannelKeys request.kvText = [] then []
        else [.setChannelKeys channelId (kvString (broadcastChannelKeys request.kvText))])

/-- A SETCHANKEY that is run to its end. -/
def KeyDatabase.setChanKey (db : KeyDatabase) (request : SetChanKey) : KeyDatabase :=
  (performSetChannelKeys request db).1

/-- A request of `handle_getchankey`. -/
structure GetChanKeyRequest where
  channelName : Bytes
  uniquenick : Bytes
  kvData : List (Bytes × Bytes)

/-- `TaskResponse`, as far as `OnGetChanKey` reads it. -/
structure ChannelKeysResponse where
  channelSummary : ChannelSummary
  uniquenick : Bytes
  kvData : List (Bytes × Bytes)
  kvDataWithnames : List (Bytes × Bytes)

/-- `Peer::handle_getchankey`. -/
def handleGetChanKey (channelTarget numeric kvString : Bytes) : GetChanKeyRequest where
  channelName := channelTarget
  uniquenick := numeric
  kvData := requestedKeys kvString

/-- `Perform_GetChannelKeys`. -/
def performGetChannelKeys (env : Environment) (backing : Backing) (request : GetChanKeyRequest) :
    ChannelKeysResponse :=
  let summary := getChannelSummaryByName env backing.store request.channelName
  let texts :=
    if summary.channelId ≠ 0 then channelKeyTexts backing summary request.kvData else ([], [])
  { channelSummary := summary
    uniquenick := request.uniquenick
    kvData := kvReader texts.1
    kvDataWithnames := kvReader texts.2 }

/-- `OnGetChanKey` sends what the response holds. -/
theorem on_get_chan_key_eq (env : Environment) (viewer : Viewer) (backing : Backing)
    (channelTarget numeric kvText : Bytes) :
    let response := performGetChannelKeys env backing (handleGetChanKey channelTarget numeric kvText)
    onGetChanKey env viewer backing numeric kvText (backing.channel env channelTarget) =
      [sendNumeric env viewer 704 (response.channelSummary.channelName ++
        char ' ' :: response.uniquenick ++ ascii " :" ++ kvValues response.kvData ++
        kvString response.kvDataWithnames) true [] true] := rfl

section Claims

variable (channelId : BitVec 32) (run : List SetChanKey) (start : KeyDatabase)

/-- The pairs that those who may have sent for a channel, in the order in which they came. -/
def sentPairs : List (Bytes × Bytes) :=
  run.flatMap fun request => if request.target = some channelId then hashPairs request.kvText else []

/-- The last value that a key of a channel was given. The names of the computed keys are never
stored. -/
def lastStored : Hash :=
  fun key =>
    if key ∈ chankeyInjectKeys then none
    else ((sentPairs channelId run).reverse.lookup key).or
      (start.hash (HashKey.channelKeys channelId).name key)

variable (summary : ChannelSummary) (stored : Hash) (keys : List (Bytes × Bytes))

/-- The topic, the limit and the password marker of a channel. -/
def channelDetails : List (Bytes × Bytes) :=
  [(ascii "topic", summary.topic), (ascii "limit", printBits summary.limit),
    (ascii "key", if summary.password = [] then ascii "0" else ascii "1")]

/-- The value of a key by its name, where the channel's own come first. -/
def channelValue (name : Bytes) : Bytes :=
  (((channelDetails summary).lookup name).or (stored (cString name))).getD []

/-- A requested pattern stands for a name. -/
def Requested (name : Bytes) : Prop :=
  ∃ key ∈ keys, plainKey key = false ∧ maskMatches (cString key.1) name = true

/-- A response has the values of the named keys, and the keys that a pattern stands for. -/
structure GetChanKeyFinds (response : ChannelKeysResponse) : Prop where
  named : response.kvData = namedPairs (channelValue summary stored) (keys.filter plainKey)
  matched : ∀ pair, pair ∈ response.kvDataWithnames ↔
    (pair ∈ channelDetails summary ∨ stored pair.1 = some pair.2) ∧ Requested keys pair.1

/-- A topic that is asked for has no backslash, and if a pattern is asked for, every stored key is
asked for by one. A key without a name and without a value is not alone, with nothing but a pattern
that is empty as a C string. -/
structure GetChanKeyMeets : Prop where
  topic : (∃ key ∈ keys, key.1 = ascii "topic") ∨ Requested keys (ascii "topic") →
    char '\\' ∉ summary.topic
  matched : (∃ key ∈ keys, plainKey key = false) → ∀ field, (stored field).isSome →
    Requested keys field
  empty : stored [] = some [] → ∀ key, (keys.filter fun key => !plainKey key) = [key] →
    cString key.1 ≠ []

end Claims

section Stored

variable {channelId : BitVec 32} {run : List SetChanKey} {start : KeyDatabase}

theorem sent_pairs_concat (request : SetChanKey) :
    sentPairs channelId (run ++ [request]) = sentPairs channelId run ++
      if request.target = some channelId then hashPairs request.kvText else [] := by
  simp [sentPairs]

/-- Entries that are left out by their names do not count for another name. -/
theorem lookup_filter {keep : Bytes → Bool} {key : Bytes} (hkey : keep key = true)
    (pairs : List (Bytes × Bytes)) :
    (pairs.filter fun pair => keep pair.1).lookup key = pairs.lookup key := by
  induction pairs with
  | nil => rfl
  | cons pair pairs ih =>
      by_cases hpair : keep pair.1 = true
      · rw [List.filter_cons, if_pos hpair, List.lookup_cons, List.lookup_cons, ih]
      · have hne : (key == pair.1) = false := by
          rw [beq_eq_false_iff_ne]
          rintro rfl
          exact hpair hkey
        rw [List.filter_cons, if_neg hpair, List.lookup_cons, hne, ih]

/-- Passing over the computed keys changes the value of no other. -/
theorem lookup_sent_keys {key : Bytes} (hkey : key ∉ chankeyInjectKeys) (kvText : Bytes) :
    (cPairs (sentKeys kvText)).reverse.lookup key = (hashPairs kvText).reverse.lookup key := by
  have hsent : cPairs (sentKeys kvText) =
      (hashPairs kvText).filter fun pair => !chankeyInjectKeys.contains pair.1 := by
    show (sentKeys kvText).map _ = ((kvReader kvText).map _).filter _
    rw [List.filter_map]
    rfl
  rw [hsent, ← List.filter_reverse]
  exact @lookup_filter (fun name => !chankeyInjectKeys.contains name) key (by simpa using hkey) _

/-- The computed keys are never stored. -/
theorem KeyDatabase.inject_key_none (db : KeyDatabase) {key : Bytes}
    (hkey : key ∈ chankeyInjectKeys) : db.hash (HashKey.channelKeys channelId).name key = none := by
  rw [Option.eq_none_iff_forall_ne_some]
  intro value hvalue
  exact (db.channelKeys channelId key value hvalue).1 hkey

/-- What one SETCHANKEY does to the keys of a channel. -/
theorem set_chan_key_hash (db : KeyDatabase) (request : SetChanKey) :
    (db.setChanKey request).hash (HashKey.channelKeys channelId).name =
      if request.target = some channelId then
        hmset (db.hash (HashKey.channelKeys channelId).name) (cPairs (sentKeys request.kvText))
      else db.hash (HashKey.channelKeys channelId).name := by
  unfold KeyDatabase.setChanKey performSetChannelKeys
  cases htarget : request.target with
  | none => rfl
  | some other =>
      by_cases hsame : other = channelId
      · subst hsame
        rw [if_pos rfl]
        exact KeyDatabase.hset_self (storable_sent_keys other request.kvText)
      · rw [if_neg fun h => hsame (Option.some.inj h)]
        exact KeyDatabase.hset_of_ne (storable_sent_keys other request.kvText)
          fun h => hsame (HashKey.channelKeys.inj h).symm

/-- A run of SETCHANKEY leaves each key of a channel with its last value. -/
theorem stored_eq :
    (after KeyDatabase.setChanKey start run).hash (HashKey.channelKeys channelId).name =
      lastStored channelId run start := by
  funext key
  by_cases hkey : key ∈ chankeyInjectKeys
  · rw [lastStored, if_pos hkey, KeyDatabase.inject_key_none _ hkey]
  · rw [lastStored, if_neg hkey]
    induction run using List.reverseRecOn with
    | nil => rfl
    | append_singleton run request ih =>
        rw [after_concat, set_chan_key_hash, sent_pairs_concat]
        split
        · rw [hmset_apply, ih, lookup_sent_keys hkey, List.reverse_append, List.lookup_append,
            Option.or_assoc]
        · rw [ih, List.append_nil]

end Stored

section Texts

variable {summary : ChannelSummary} {stored : Hash} {keys scanned : List (Bytes × Bytes)}
  {pair : Bytes × Bytes}

theorem handle_overrides_eq (summary : ChannelSummary) (name : Bytes) :
    handleOverrides summary name = (channelDetails summary).lookup name := by
  by_cases htopic : name = ascii "topic"
  · subst htopic
    rfl
  by_cases hlimit : name = ascii "limit"
  · subst hlimit
    rfl
  by_cases hkey : name = ascii "key"
  · subst hkey
    rfl
  simp only [handleOverrides, channelDetails, if_neg htopic, if_neg hlimit, if_neg hkey,
    List.lookup_cons, beq_false_of_ne htopic, beq_false_of_ne hlimit, beq_false_of_ne hkey,
    List.lookup_nil]

/-- The details that `Perform_GetChannelKeys_InjectOverrides` writes for a pattern. -/
def injectedPairs (summary : ChannelSummary) (searchString : Bytes) : List (Bytes × Bytes) :=
  (channelDetails summary).filter fun pair => maskMatches (cString searchString) pair.1

theorem inject_overrides_eq (summary : ChannelSummary) (searchString : Bytes) :
    injectOverrides summary searchString = kvString (injectedPairs summary searchString) := by
  have hdetails : channelDetails summary =
      chankeyInjectKeys.map fun key => (key, (handleOverrides summary key).getD []) := rfl
  have hfilter (pairs : List (Bytes × Bytes)) (keep : Bytes × Bytes → Bool) :
      kvString (pairs.filter keep) = pairs.flatMap fun pair =>
        if keep pair then char '\\' :: pair.1 ++ char '\\' :: pair.2 else [] := by
    induction pairs with
    | nil => rfl
    | cons pair pairs ih =>
        rw [List.filter_cons, List.flatMap_cons, ← ih]
        split <;> rfl
  rw [injectedPairs, hfilter, hdetails, List.flatMap_map, injectOverrides]
  simp only [match_mask_iff]
  rfl

/-- What the scans for the patterns of a request write. -/
def foundPairs (summary : ChannelSummary) (keys scanned : List (Bytes × Bytes)) :
    List (Bytes × Bytes) :=
  (keys.filter fun key => !plainKey key).flatMap fun key => scanned ++ injectedPairs summary key.1

theorem mem_found_pairs :
    pair ∈ foundPairs summary keys scanned ↔
      (∃ key ∈ keys, plainKey key = false) ∧ pair ∈ scanned ∨
        pair ∈ channelDetails summary ∧ Requested keys pair.1 := by
  simp only [foundPairs, injectedPairs, List.mem_flatMap, List.mem_filter, List.mem_append,
    Bool.not_eq_true']
  constructor
  · intro h
    obtain ⟨key, hkey, hpair | hpair⟩ := h
    · exact .inl ⟨⟨key, hkey⟩, hpair⟩
    · exact .inr ⟨hpair.1, key, hkey.1, hkey.2, hpair.2⟩
  · intro h
    rcases h with ⟨hpattern, hpair⟩ | ⟨hpair, hrequested⟩
    · obtain ⟨key, hkey⟩ := hpattern
      exact ⟨key, hkey, .inl hpair⟩
    · obtain ⟨key, hkey, hplain, hmatch⟩ := hrequested
      exact ⟨key, ⟨hkey, hplain⟩, .inr ⟨hpair, hmatch⟩⟩

/-- The details have different names, those of the computed keys. -/
theorem channel_detail_lookup (h : pair ∈ channelDetails summary) :
    pair.1 ∈ chankeyInjectKeys ∧ (channelDetails summary).lookup pair.1 = some pair.2 := by
  simp only [channelDetails, List.mem_cons, List.not_mem_nil, or_false] at h
  rcases h with rfl | rfl | rfl
  · exact ⟨show ascii "topic" ∈ chankeyInjectKeys by decide, rfl⟩
  · exact ⟨show ascii "limit" ∈ chankeyInjectKeys by decide, rfl⟩
  · exact ⟨show ascii "key" ∈ chankeyInjectKeys by decide, rfl⟩

/-- A detail is plain, unless it is a topic with a backslash. -/
theorem channel_detail_plain (h : pair ∈ channelDetails summary)
    (htopic : pair.1 = ascii "topic" → char '\\' ∉ summary.topic) : IsPlainPair pair := by
  have hlimit : char '\\' ∉ printBits summary.limit :=
    print_int_not_mem (by decide) (by decide) _
  have hmarker : char '\\' ∉ if summary.password = [] then ascii "0" else ascii "1" := by
    split <;> decide
  simp only [channelDetails, List.mem_cons, List.not_mem_nil, or_false] at h
  rcases h with rfl | rfl | rfl
  · exact ⟨show char '\\' ∉ ascii "topic" by decide, htopic rfl⟩
  · exact ⟨show char '\\' ∉ ascii "limit" by decide, hlimit⟩
  · exact ⟨show char '\\' ∉ ascii "key" by decide, hmarker⟩

/-- The scan returns the stored keys, which are keys of a channel. -/
structure ScanOf (stored : Hash) (scanned : List (Bytes × Bytes)) : Prop where
  mem : ∀ pair, pair ∈ scanned ↔ stored pair.1 = some pair.2
  keys : ∀ pair ∈ scanned, IsChannelKey pair

/-- No name is found with two values. -/
theorem found_same (h : ScanOf stored scanned) {name value other : Bytes}
    (hvalue : (name, value) ∈ foundPairs summary keys scanned)
    (hother : (name, other) ∈ foundPairs summary keys scanned) : value = other := by
  rw [mem_found_pairs] at hvalue hother
  rcases hvalue with ⟨-, hvalue⟩ | ⟨hvalue, -⟩ <;> rcases hother with ⟨-, hother⟩ | ⟨hother, -⟩
  · rw [h.mem] at hvalue hother
    exact Option.some.inj (hvalue.symm.trans hother)
  · exact absurd (channel_detail_lookup hother).1 (h.keys _ hvalue).1
  · exact absurd (channel_detail_lookup hvalue).1 (h.keys _ hother).1
  · exact Option.some.inj
      ((channel_detail_lookup hvalue).2.symm.trans (channel_detail_lookup hother).2)

/-- What is found is plain, unless it is a topic with a backslash. -/
theorem found_plain (h : ScanOf stored scanned)
    (htopic : Requested keys (ascii "topic") → char '\\' ∉ summary.topic) :
    ∀ pair ∈ foundPairs summary keys scanned, IsPlainPair pair := by
  intro pair hpair
  rcases mem_found_pairs.mp hpair with ⟨-, hpair⟩ | ⟨hpair, hrequested⟩
  · exact (h.keys pair hpair).2
  · exact channel_detail_plain hpair fun hname => htopic (hname ▸ hrequested)

/-- What is found comes back, but for the empty pair at the end. -/
theorem mem_found_text (h : ScanOf stored scanned)
    (htopic : Requested keys (ascii "topic") → char '\\' ∉ summary.topic)
    (hmem : pair ∈ foundPairs summary keys scanned)
    (hlast : pair ≠ ([], []) ∨ pair ∈ (foundPairs summary keys scanned).dropLast) :
    pair ∈ kvReader (kvString (foundPairs summary keys scanned)) := by
  rw [kv_reader_kv_string (found_plain h htopic)]
  refine mem_keep_first ?_ hmem hlast
  intro name value other hvalue hother
  exact found_same h (hvalue.resolve_left List.not_mem_nil) (hother.resolve_left List.not_mem_nil)

/-- Nothing else comes back. -/
theorem mem_found_of_text (h : ScanOf stored scanned)
    (htopic : Requested keys (ascii "topic") → char '\\' ∉ summary.topic)
    (hmem : pair ∈ kvReader (kvString (foundPairs summary keys scanned))) :
    pair ∈ foundPairs summary keys scanned := by
  rw [kv_reader_kv_string (found_plain h htopic)] at hmem
  exact (mem_of_keep_first hmem).resolve_left List.not_mem_nil

/-- A mask that stands for the empty text is empty itself, or stands for every text. -/
theorem mask_matches_nil {mask : Bytes} (hne : mask ≠ []) (h : maskMatches mask [] = true)
    (name : Bytes) : maskMatches mask name = true := by
  have hskip (mark : UInt8) (rest : Bytes × Bytes) (hrest : skipPrefix mark mask [] = some rest) :
      rest = (mask, []) ∧ skipPrefix mark mask name = some (mask, name) := by
    unfold skipPrefix at hrest ⊢
    split at hrest
    · cases hrest
    · next hmark => exact ⟨(Option.some.inj hrest).symm, if_neg hmark⟩
  unfold maskMatches at h ⊢
  cases hnick : skipPrefix (char '!') mask [] with
  | none => simp [hnick] at h
  | some rest =>
      obtain ⟨rfl, hname⟩ := hskip _ _ hnick
      cases hhost : skipPrefix (char '@') mask [] with
      | none => simp [hnick, hhost] at h
      | some rest =>
          obtain ⟨rfl, hhostName⟩ := hskip _ _ hhost
          simp only [hnick, hhost, Option.bind_some, Option.any_some] at h
          simp only [hname, hhostName, Option.bind_some, Option.any_some]
          obtain ⟨symbol, mask, rfl⟩ := List.exists_cons_of_ne_nil hne
          unfold maskGlob at h ⊢
          by_cases hstar : symbol = char '*'
          · obtain ⟨rest, hrest, hglob⟩ := (Glob.glob_star (by simpa using hstar) mask []).mp h
            rw [List.suffix_nil.mp hrest] at hglob
            exact (Glob.glob_star (by simpa using hstar) mask name).mpr
              ⟨[], List.nil_suffix, hglob⟩
          · exact absurd h (Glob.glob_letter_nil (by simpa using hstar) mask)

/-- The patterns of a request. -/
theorem mem_patterns {key : Bytes × Bytes} :
    (key ∈ keys.filter fun key => !plainKey key) ↔ key ∈ keys ∧ plainKey key = false := by
  simp

theorem patterns_of_exists (h : ∃ key ∈ keys, plainKey key = false) :
    ∃ first rest, (keys.filter fun key => !plainKey key) = first :: rest := by
  obtain ⟨key, hkey⟩ := h
  exact List.exists_cons_of_ne_nil (List.ne_nil_of_mem (mem_patterns.mpr hkey))

theorem first_pattern {first : Bytes × Bytes} {rest : List (Bytes × Bytes)}
    (h : (keys.filter fun key => !plainKey key) = first :: rest) :
    first ∈ keys ∧ plainKey first = false := by
  rw [← mem_patterns, h]
  exact List.mem_cons_self

theorem mem_drop_last_append {α : Type*} {a : α} {front back : List α} (h : a ∈ front)
    (hback : back ≠ []) : a ∈ (front ++ back).dropLast := by
  rw [List.dropLast_append_of_ne_nil hback]
  exact List.mem_append_left _ h

/-- The empty mask stands for the empty text only. -/
theorem empty_mask {name : Bytes} (h : maskMatches [] name = true) : name = [] := by
  simpa [maskMatches, skipPrefix, maskGlob] using h

/-- What the first pattern finds comes in front of the details for it. -/
theorem found_pairs_cons {first : Bytes × Bytes} {rest : List (Bytes × Bytes)}
    (hpatterns : (keys.filter fun key => !plainKey key) = first :: rest) :
    foundPairs summary keys scanned = scanned ++ (injectedPairs summary first.1 ++
      rest.flatMap fun key => scanned ++ injectedPairs summary key.1) := by
  rw [foundPairs, hpatterns, List.flatMap_cons, List.append_assoc]

/-- An empty pair that is asked for is not the last of what is found. -/
theorem empty_pair_inside (h : ScanOf stored scanned) (hmeets : GetChanKeyMeets summary stored keys)
    (hempty : stored [] = some []) (hpattern : ∃ key ∈ keys, plainKey key = false) :
    ([], []) ∈ (foundPairs summary keys scanned).dropLast := by
  have hscanned : ([], []) ∈ scanned := (h.mem ([], [])).mpr hempty
  obtain ⟨first, rest, hpatterns⟩ := patterns_of_exists hpattern
  rw [found_pairs_cons hpatterns]
  refine mem_drop_last_append hscanned ?_
  cases rest with
  | nil =>
      -- the only pattern stands for the empty name, and so for the details
      obtain ⟨key, hkey, hplain, hmatch⟩ := hmeets.matched hpattern [] (by rw [hempty]; rfl)
      have hmem := mem_patterns.mpr ⟨hkey, hplain⟩
      rw [hpatterns, List.mem_singleton] at hmem
      subst hmem
      have hall := mask_matches_nil (hmeets.empty hempty key hpatterns) hmatch
      have hinjected : (ascii "topic", summary.topic) ∈ injectedPairs summary key.1 :=
        List.mem_filter.mpr ⟨List.mem_cons_self, hall _⟩
      exact List.append_ne_nil_of_left_ne_nil (List.ne_nil_of_mem hinjected) _
  | cons second rest =>
      have hagain : ([], []) ∈ (second :: rest).flatMap fun key =>
          scanned ++ injectedPairs summary key.1 :=
        List.mem_flatMap.mpr ⟨second, List.mem_cons_self, List.mem_append_left _ hscanned⟩
      exact List.append_ne_nil_of_right_ne_nil _ (List.ne_nil_of_mem hagain)

/-- The value of a named key is plain, unless it is a topic with a backslash. -/
theorem channel_value_plain {name : Bytes}
    (hstored : ∀ field value, stored field = some value → IsPlainPair (field, value))
    (htopic : name = ascii "topic" → char '\\' ∉ summary.topic) :
    char '\\' ∉ channelValue summary stored name := by
  unfold channelValue
  cases hdetail : (channelDetails summary).lookup name with
  | some value =>
      obtain ⟨before, after, hpairs, -⟩ := List.lookup_eq_some_iff.mp hdetail
      have hmem : (name, value) ∈ channelDetails summary := by simp [hpairs]
      exact (channel_detail_plain hmem htopic).2
  | none =>
      cases hvalue : stored (cString name) with
      | none => exact List.not_mem_nil
      | some value => exact (hstored _ _ hvalue).2

end Texts

section Finding

variable {summary : ChannelSummary} {stored : Hash} {scanned : List (Bytes × Bytes)}
  {kvText : Bytes} {response : ChannelKeysResponse}

/-- The response to a request, as it is read from its texts. -/
structure ReadsTexts (summary : ChannelSummary) (stored : Hash)
    (keys scanned : List (Bytes × Bytes)) (response : ChannelKeysResponse) : Prop where
  named : response.kvData =
    kvReader (kvString (namedPairs (channelValue summary stored) (keys.filter plainKey)))
  matched : response.kvDataWithnames = kvReader (kvString (foundPairs summary keys scanned))

theorem GetChanKeyMeets.finds (h : GetChanKeyMeets summary stored (requestedKeys kvText))
    (hscan : ScanOf stored scanned)
    (hreads : ReadsTexts summary stored (requestedKeys kvText) scanned response) :
    GetChanKeyFinds summary stored (requestedKeys kvText) response := by
  constructor
  · rw [hreads.named, kv_reader_named_iff List.filter_sublist]
    intro key hkey
    have hasked (hname : key.1 = ascii "topic") : char '\\' ∉ summary.topic :=
      h.topic (.inl ⟨key, List.mem_of_mem_filter hkey, hname⟩)
    refine channel_value_plain ?_ hasked
    exact fun field value hvalue => (hscan.keys (field, value) ((hscan.mem _).mpr hvalue)).2
  · intro pair
    have htopic := fun hrequested => h.topic (.inr hrequested)
    rw [hreads.matched]
    constructor
    · intro hpair
      rcases mem_found_pairs.mp (mem_found_of_text hscan htopic hpair) with
        ⟨hpattern, hpair⟩ | ⟨hpair, hrequested⟩
      · have hvalue := (hscan.mem pair).mp hpair
        exact ⟨.inr hvalue, h.matched hpattern pair.1 (by rw [hvalue]; rfl)⟩
      · exact ⟨.inl hpair, hrequested⟩
    · intro hpair
      obtain ⟨hvalue, hrequested⟩ := hpair
      have hpattern : ∃ key ∈ requestedKeys kvText, plainKey key = false := by
        obtain ⟨key, hkey, hplain, -⟩ := hrequested
        exact ⟨key, hkey, hplain⟩
      have hfound : pair ∈ foundPairs summary (requestedKeys kvText) scanned := by
        rw [mem_found_pairs]
        exact hvalue.symm.imp (fun hstored => ⟨hpattern, (hscan.mem pair).mpr hstored⟩)
          fun hdetail => ⟨hdetail, hrequested⟩
      refine mem_found_text hscan htopic hfound ?_
      by_cases hempty : pair = ([], [])
      · subst hempty
        refine .inr (empty_pair_inside hscan h ?_ hpattern)
        -- no detail is the empty pair
        refine hvalue.resolve_left fun hdetail => ?_
        exact absurd (channel_detail_lookup hdetail).1 (by decide)
      · exact .inl hempty

/-- The topic that is found has no backslash. -/
theorem GetChanKeyFinds.topic (h : GetChanKeyFinds summary stored (requestedKeys kvText) response)
    (hreads : ReadsTexts summary stored (requestedKeys kvText) scanned response)
    (hasked : (∃ key ∈ requestedKeys kvText, key.1 = ascii "topic") ∨
      Requested (requestedKeys kvText) (ascii "topic")) : char '\\' ∉ summary.topic := by
  rcases hasked with ⟨key, hkey, hname⟩ | hrequested
  · have hplain : key ∈ (requestedKeys kvText).filter plainKey := by
      refine List.mem_filter.mpr ⟨hkey, ?_⟩
      rw [plainKey, hname]
      decide
    have hmem : (key.1, channelValue summary stored key.1) ∈ response.kvData := by
      rw [h.named]
      exact List.mem_map_of_mem hplain
    rw [hreads.named, hname] at hmem
    exact (kv_reader_plain hmem).2
  · have hmem : (ascii "topic", summary.topic) ∈ response.kvDataWithnames :=
      (h.matched _).mpr ⟨.inl List.mem_cons_self, hrequested⟩
    rw [hreads.matched] at hmem
    exact (kv_reader_plain hmem).2

theorem ScanOf.twice (h : ScanOf stored scanned) : ScanOf stored (scanned ++ scanned) :=
  ⟨fun pair => by rw [List.mem_append, or_self, h.mem],
    fun pair hpair => h.keys pair (by simpa using hpair)⟩

/-- A key that the scan returns twice is not only at the end of the text, and so it is found. -/
theorem GetChanKeyFinds.requested_of_twice
    (h : GetChanKeyFinds summary stored (requestedKeys kvText) response)
    (hscan : ScanOf stored scanned)
    (hreads : ReadsTexts summary stored (requestedKeys kvText) (scanned ++ scanned) response)
    (hpattern : ∃ key ∈ requestedKeys kvText, plainKey key = false) {field : Bytes}
    (hfield : (stored field).isSome) : Requested (requestedKeys kvText) field := by
  obtain ⟨value, hvalue⟩ := Option.isSome_iff_exists.mp hfield
  obtain ⟨first, rest, hpatterns⟩ := patterns_of_exists hpattern
  have hpair := (hscan.mem (field, value)).mpr hvalue
  have hinside : (field, value) ∈
      (foundPairs summary (requestedKeys kvText) (scanned ++ scanned)).dropLast := by
    rw [found_pairs_cons hpatterns, List.append_assoc]
    exact mem_drop_last_append hpair
      (List.append_ne_nil_of_left_ne_nil (List.ne_nil_of_mem hpair) _)
  have hread := mem_found_text hscan.twice (fun hrequested => h.topic hreads (.inr hrequested))
    (List.mem_of_mem_dropLast hinside) (.inr hinside)
  rw [← hreads.matched] at hread
  exact ((h.matched _).mp hread).2

/-- An empty pattern alone does not find an empty pair alone. -/
theorem GetChanKeyFinds.not_empty_alone
    (h : GetChanKeyFinds summary stored (requestedKeys kvText) response)
    (hreads : ReadsTexts summary stored (requestedKeys kvText) [([], [])] response)
    (hempty : stored [] = some []) {key : Bytes × Bytes}
    (hkey : ((requestedKeys kvText).filter fun key => !plainKey key) = [key]) :
    cString key.1 ≠ [] := by
  intro hnil
  have hmem := first_pattern hkey
  have hinjected : injectedPairs summary key.1 = [] := by
    rw [injectedPairs, List.filter_eq_nil_iff]
    intro pair hpair hmatch
    rw [hnil] at hmatch
    have hname := (channel_detail_lookup hpair).1
    rw [empty_mask hmatch] at hname
    exact absurd hname (by decide)
  have hfound : foundPairs summary (requestedKeys kvText) [([], [])] = [([], [])] := by
    rw [found_pairs_cons hkey, hinjected]
    rfl
  have hread := (h.matched ([], [])).mpr
    ⟨.inr hempty, key, hmem.1, hmem.2, by rw [hnil]; rfl⟩
  rw [hreads.matched, hfound] at hread
  cases hread

end Finding

section Scanning

variable {env : Environment} {store : ChannelStore} {glob : FieldPattern} {db : KeyDatabase}
  {channelTarget numeric kvText : Bytes} {channelId : BitVec 32}

/-- The pairs that the scan of the keys of a channel returns. -/
def KeyScans.channelPairs (scans : KeyScans glob db) (channelId : BitVec 32) :
    List (Bytes × Bytes) :=
  (scans (HashKey.channelKeys channelId).name (ascii "*")).batches.flatten

/-- A complete scan returns the stored keys. -/
theorem scan_of_batches (scans : KeyScans glob db) (channelId : BitVec 32) :
    ScanOf (db.hash (HashKey.channelKeys channelId).name) (scans.channelPairs channelId) := by
  have hmem (pair : Bytes × Bytes) : pair ∈ scans.channelPairs channelId ↔
      db.hash (HashKey.channelKeys channelId).name pair.1 = some pair.2 := by
    rw [KeyScans.channelPairs, MatchScan.mem_flatten, and_iff_left (glob.star pair.1)]
  exact ⟨hmem, fun pair hpair => db.channelKeys channelId pair.1 pair.2 ((hmem pair).mp hpair)⟩

/-- The texts of `Perform_GetChannelKeys`. -/
theorem channel_key_texts_eq (scans : KeyScans glob db) (summary : ChannelSummary)
    (keys : List (Bytes × Bytes)) :
    channelKeyTexts (keyBacking store scans) summary keys =
      (kvString (namedPairs
          (channelValue summary (db.hash (HashKey.channelKeys summary.channelId).name))
          (keys.filter plainKey)),
        kvString (foundPairs summary keys (scans.channelPairs summary.channelId))) := by
  refine Prod.ext ?_ ?_
  · simp only [channelKeyTexts, keyBacking, key_hash_field, handle_overrides_eq, kvString,
      namedPairs, List.flatMap_map]
    rfl
  · simp only [channelKeyTexts, lookupChannelWildcard, keyBacking, scan_text_eq,
      inject_overrides_eq, ← kv_string_append]
    rw [foundPairs, kvString, List.flatMap_assoc]
    rfl

/-- The response to a request for a channel that is there. -/
theorem response_reads (scans : KeyScans glob db) {summary : ChannelSummary}
    (hsummary : getChannelSummaryByName env store channelTarget = summary)
    (hchannel : summary.channelId ≠ 0) :
    ReadsTexts summary (db.hash (HashKey.channelKeys summary.channelId).name)
      (requestedKeys kvText) (scans.channelPairs summary.channelId)
      (performGetChannelKeys env (keyBacking store scans)
        (handleGetChanKey channelTarget numeric kvText)) := by
  have hresponse : performGetChannelKeys env (keyBacking store scans)
      (handleGetChanKey channelTarget numeric kvText) =
        ⟨summary, numeric,
          kvReader (channelKeyTexts (keyBacking store scans) summary (requestedKeys kvText)).1,
          kvReader (channelKeyTexts (keyBacking store scans) summary (requestedKeys kvText)).2⟩ := by
    have hstore : (keyBacking store scans).store = store := rfl
    unfold performGetChannelKeys handleGetChanKey
    simp only [hstore, hsummary]
    rw [if_pos hchannel]
  rw [hresponse, channel_key_texts_eq]
  constructor <;> simp only

/-- The scan that returns every batch a second time. -/
theorem twice_channel_pairs (db : KeyDatabase) (glob : FieldPattern) (channelId : BitVec 32) :
    KeyScans.channelPairs (fun name pattern => (db.scans glob name pattern).twice) channelId =
      (db.scans glob).channelPairs channelId ++ (db.scans glob).channelPairs channelId :=
  List.flatten_append

/-- The scan of a hash with the empty pair alone. -/
theorem only_empty_pair
    (h : ∀ field, (db.hash (HashKey.channelKeys channelId).name field).isSome → field = [])
    (hempty : db.hash (HashKey.channelKeys channelId).name [] = some []) :
    (db.scans glob).channelPairs channelId = [([], [])] := by
  have hscan := scan_of_batches (db.scans glob) channelId
  have hnodup : ((db.scans glob).channelPairs channelId).Nodup := by
    have hfields := fields_of_nodup glob (db.hash (HashKey.channelKeys channelId).name) (ascii "*")
      (List.nodup_dedup (Classical.choose (db.listed (HashKey.channelKeys channelId).name)))
    rwa [← List.append_nil (fieldsOf _ _ _ _)] at hfields
  have hall : ∀ pair ∈ (db.scans glob).channelPairs channelId, pair = ([], []) := by
    intro pair hpair
    have hvalue := (hscan.mem pair).mp hpair
    have hname := h pair.1 (by rw [hvalue]; rfl)
    rw [hname, hempty] at hvalue
    exact Prod.ext hname (Option.some.inj hvalue).symm
  have hmem : ([], []) ∈ (db.scans glob).channelPairs channelId := (hscan.mem _).mpr hempty
  generalize (db.scans glob).channelPairs channelId = pairs at hnodup hall hmem
  cases pairs with
  | nil => cases hmem
  | cons first rest =>
      obtain rfl := hall first List.mem_cons_self
      cases rest with
      | nil => rfl
      | cons second rest =>
          obtain rfl := hall second (by simp)
          simp at hnodup

end Scanning

section Requests

variable {env : Environment} {store : ChannelStore} {glob : FieldPattern} {db : KeyDatabase}
  {channelTarget numeric kvText : Bytes}

/-- Where every scan is answered as it should be, the request asks for nothing else. -/
theorem meets_of_finds {summary : ChannelSummary}
    (hsummary : getChannelSummaryByName env store channelTarget = summary)
    (hchannel : summary.channelId ≠ 0)
    (h : ∀ scans : KeyScans glob db, GetChanKeyFinds summary
      (db.hash (HashKey.channelKeys summary.channelId).name) (requestedKeys kvText)
      (performGetChannelKeys env (keyBacking store scans)
        (handleGetChanKey channelTarget numeric kvText))) :
    GetChanKeyMeets summary (db.hash (HashKey.channelKeys summary.channelId).name)
      (requestedKeys kvText) := by
  have hreads (scans : KeyScans glob db) :=
    @response_reads env store glob db channelTarget numeric kvText scans summary hsummary hchannel
  have hscan := scan_of_batches (db.scans glob) summary.channelId
  have hmatched (hpattern : ∃ key ∈ requestedKeys kvText, plainKey key = false) (field : Bytes)
      (hfield : (db.hash (HashKey.channelKeys summary.channelId).name field).isSome) :
      Requested (requestedKeys kvText) field := by
    let twice : KeyScans glob db := fun name pattern => (db.scans glob name pattern).twice
    have htwice := hreads twice
    rw [twice_channel_pairs] at htwice
    exact (h twice).requested_of_twice hscan htwice hpattern hfield
  refine ⟨(h (db.scans glob)).topic (hreads (db.scans glob)), hmatched, ?_⟩
  intro hempty key hkey hnil
  have hpattern : ∃ key ∈ requestedKeys kvText, plainKey key = false :=
    ⟨key, first_pattern hkey⟩
  -- the only pattern is empty, so that the empty name is the only one
  have honly : ∀ field, (db.hash (HashKey.channelKeys summary.channelId).name field).isSome →
      field = [] := by
    intro field hfield
    obtain ⟨other, hother, hplain, hmatch⟩ := hmatched hpattern field hfield
    have hsame := mem_patterns.mpr ⟨hother, hplain⟩
    rw [hkey, List.mem_singleton] at hsame
    rw [hsame, hnil] at hmatch
    exact empty_mask hmatch
  have hpairs := hreads (db.scans glob)
  rw [only_empty_pair honly hempty] at hpairs
  exact (h (db.scans glob)).not_empty_alone hpairs hempty hkey hnil

end Requests

/-- After any run of SETCHANKEY, a GETCHANKEY for a channel returns the last values of the named
keys, the stored keys that a pattern stands for, and for topic, limit and key what the channel has,
whatever the batches of the scan, exactly if a topic that is asked for has no backslash, a request
with patterns asks for every stored key by one of them, and a key without name and value is not
asked for by an empty pattern alone. -/
theorem getchankey_finds_iff (env : Environment) (store : ChannelStore) (glob : FieldPattern)
    (start : KeyDatabase) (run : List SetChanKey) (channelTarget numeric kvText : Bytes) :
    let summary := getChannelSummaryByName env store channelTarget
    let stored := lastStored summary.channelId run start
    (∀ scans : KeyScans glob (after KeyDatabase.setChanKey start run), summary.channelId ≠ 0 →
      GetChanKeyFinds summary stored (requestedKeys kvText)
        (performGetChannelKeys env (keyBacking store scans)
          (handleGetChanKey channelTarget numeric kvText))) ↔
      (summary.channelId ≠ 0 → GetChanKeyMeets summary stored (requestedKeys kvText)) := by
  intro summary stored
  have hstored : (after KeyDatabase.setChanKey start run).hash
      (HashKey.channelKeys summary.channelId).name = stored := stored_eq
  constructor
  · intro h hchannel
    rw [← hstored] at h ⊢
    exact meets_of_finds rfl hchannel fun scans => h scans hchannel
  · intro h scans hchannel
    have hmeets := h hchannel
    rw [← hstored] at hmeets ⊢
    exact hmeets.finds (scan_of_batches scans summary.channelId)
      (response_reads scans rfl hchannel)

/-- Alice sets two keys of her channel. -/
def aliceSets : SetChanKey :=
  ⟨quietEnvironment, aliceChannel, aliceInChannel, ascii "#a", ascii "\\hostname\\h\\b_team\\r"⟩

/-- A pattern finds a key that it does not stand for. -/
theorem pattern_finds_all :
    ¬ ∀ (env : Environment) (store : ChannelStore) (glob : FieldPattern) (start : KeyDatabase)
      (run : List SetChanKey) (channelTarget numeric kvText : Bytes),
      let summary := getChannelSummaryByName env store channelTarget
      ∀ scans : KeyScans glob (after KeyDatabase.setChanKey start run), summary.channelId ≠ 0 →
        GetChanKeyFinds summary (lastStored summary.channelId run start) (requestedKeys kvText)
          (performGetChannelKeys env (keyBacking store scans)
            (handleGetChanKey channelTarget numeric kvText)) := by
  intro h
  have hfinds := h quietEnvironment aliceChannel starPattern .empty [aliceSets] (ascii "#a")
    (ascii "0") (ascii "\\b_*")
  simp only [← stored_eq] at hfinds
  have hmeets := meets_of_finds rfl (by decide) fun scans => hfinds scans (by decide)
  have hasked := hmeets.matched ⟨(ascii "b_*", ascii "stub"), by decide, by decide⟩
    (ascii "hostname") (by decide)
  obtain ⟨key, hkey, hpattern, hmatch⟩ := hasked
  have hkeys : requestedKeys (ascii "\\b_*") = [(ascii "b_*", ascii "stub")] := by decide
  rw [hkeys, List.mem_singleton] at hkey
  subst hkey
  exact absurd hmatch (by decide)

end OpenSpy.Peerchat
