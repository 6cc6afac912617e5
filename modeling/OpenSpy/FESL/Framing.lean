import OpenSpy.Core.KVLines
import OpenSpy.Library.Chunks

/-!
# The framing of FESL messages

`Peer::SendPacket` writes a header of twelve bytes, whose third word is the length of the whole
message, and a text of keys and values with a NUL at its end. `Peer::on_stream_read` takes what
one read returns for one message: it skips the length, and no byte is kept for the next read.
The text that `on_stream_read` gives to `KVReader` has the NUL in it, which the reader takes for
one more key (`kv_reader_lines_nul`). So no message that arrives whole is handled with exactly its
pairs; `messages_handled_iff` says what a stream of messages leads to.
-/

namespace OpenSpy.FESL

open Bytes

/-- `FESL_COMMAND_TYPE`. -/
inductive CommandType where
  | fsys | account | subs | dobj
  deriving DecidableEq, Repr

/-- The value of a `FESL_COMMAND_TYPE`. -/
def CommandType.value : CommandType → Nat
  | .fsys => 0x66737973
  | .account => 0x61636374
  | .subs => 0x73756273
  | .dobj => 0x646F626A

/-- An entry of `m_commands`. Its function is left out: an entry stands for it. -/
structure CommandHandler where
  type : CommandType
  command : Bytes
  deriving DecidableEq, Repr

/-- `Peer::m_commands`. -/
def mCommands : List CommandHandler :=
  [⟨.fsys, ascii "Hello"⟩, ⟨.fsys, ascii "Ping"⟩, ⟨.fsys, ascii "MemCheck"⟩,
    ⟨.fsys, ascii "Goodbye"⟩, ⟨.subs, ascii "GetEntitlementByBundle"⟩,
    ⟨.dobj, ascii "GetObjectInventory"⟩, ⟨.account, ascii "Login"⟩,
    ⟨.account, ascii "NuLogin"⟩, ⟨.account, ascii "NuGetPersonas"⟩,
    ⟨.account, ascii "NuLoginPersona"⟩, ⟨.account, ascii "NuAddPersona"⟩,
    ⟨.account, ascii "GetTelemetryToken"⟩, ⟨.account, ascii "RegisterGame"⟩,
    ⟨.account, ascii "GetCountryList"⟩, ⟨.account, ascii "GetTos"⟩,
    ⟨.account, ascii "GetSubAccounts"⟩, ⟨.account, ascii "LoginSubAccount"⟩,
    ⟨.account, ascii "AddSubAccount"⟩, ⟨.account, ascii "AddAccount"⟩,
    ⟨.account, ascii "UpdateAccount"⟩, ⟨.account, ascii "DisableSubAccount"⟩,
    ⟨.account, ascii "GetAccount"⟩, ⟨.account, ascii "GameSpyPreAuth"⟩,
    ⟨.account, ascii "SendAccountName"⟩, ⟨.account, ascii "SendPassword"⟩]

/-- A word of the header, in network order. -/
def htonl (word : Nat) : Bytes :=
  [.ofNat (word / 2 ^ 24), .ofNat (word / 2 ^ 16), .ofNat (word / 2 ^ 8), .ofNat word]

/-- `ntohl` of the bytes of a word. -/
def ntohl (bytes : Bytes) : Nat :=
  bytes.foldl (fun word byte => word * 2 ^ 8 + byte.toNat) 0

/-- `sizeof(FESL_HEADER)`. -/
def headerSize : Nat :=
  12

/-- A call of a handler with its `kv_list`. -/
structure Call where
  handler : CommandHandler
  kvList : List (Bytes × Bytes)
  deriving DecidableEq, Repr

/-- The loop over `m_commands`, for a type and the bytes behind the header. -/
def findCommand (type : Nat) (requestData : Bytes) : Option Call :=
  let kvData := kvReaderLines (char '=') (char '\n') requestData
  (mCommands.find? fun entry =>
    entry.type.value = type ∧ entry.command = getValue kvData (ascii "TXN")).map
      fun entry => ⟨entry, kvData⟩

/-- `Peer::on_stream_read`: the call that a chunk leads to. -/
def onStreamRead (chunk : Bytes) : Option Call :=
  if chunk.length < headerSize then none
  else findCommand (ntohl (chunk.take 4)) (chunk.drop headerSize)

/-- A pair as it stands in a line of a message. -/
structure FitsMessage (pair : Bytes × Bytes) : Prop where
  keyNeNil : pair.1 ≠ []
  key : char '=' ∉ pair.1 ∧ char '\n' ∉ pair.1 ∧ 0 ∉ pair.1
  value : char '\n' ∉ pair.2 ∧ 0 ∉ pair.2

instance (pair : Bytes × Bytes) : Decidable (FitsMessage pair) :=
  decidable_of_iff (pair.1 ≠ [] ∧ (char '=' ∉ pair.1 ∧ char '\n' ∉ pair.1 ∧ 0 ∉ pair.1) ∧
      char '\n' ∉ pair.2 ∧ 0 ∉ pair.2)
    ⟨fun ⟨hne, hkey, hvalue⟩ => ⟨hne, hkey, hvalue⟩,
      fun h => ⟨h.keyNeNil, h.key, h.value⟩⟩

/-- A message for one of the commands: the second word of its header and the pairs of its text,
the first `TXN` of which names the command. -/
structure Message where
  handler : CommandHandler
  known : handler ∈ mCommands
  subtype : Nat
  pairs : List (Bytes × Bytes)
  fits : ∀ pair ∈ pairs, FitsMessage pair
  txn : pairs.lookup (ascii "TXN") = some handler.command

namespace Message

variable (message : Message)

/-- The text: a line for each pair. -/
def data : Bytes :=
  linesText (char '=') (char '\n') message.pairs

/-- `Peer::SendPacket`: the bytes of the message. -/
def encode : Bytes :=
  htonl message.handler.type.value ++ htonl message.subtype ++
    htonl (message.data.length + headerSize + 1) ++ (message.data ++ [0])

/-- What the handler of the message is to be called with: the pairs of the message. -/
def call : Call :=
  ⟨message.handler, message.pairs⟩

/-- The call with one more pair: the key is the NUL, the value that of the last pair. -/
def callWithNul : Call :=
  ⟨message.handler, message.pairs ++ [([0], lastValue message.pairs)]⟩

/-- Each key is there once, and each value is a token of its own. -/
structure Plain : Prop where
  distinct : (message.pairs.map Prod.fst).Nodup
  values : ∀ pair ∈ message.pairs, pair.2 ≠ [] ∧ char '=' ∉ pair.2

end Message

section Nul

variable {pairs : List (Bytes × Bytes)}

theorem nul_ne_nil : ([0] : Bytes) ≠ [] := by
  decide

/-- A line of a message has no end in it. -/
theorem FitsMessage.not_mem_line {pair : Bytes × Bytes} (h : FitsMessage pair) :
    char '\n' ∉ pairLine (char '=') pair := by
  have heq : char '\n' ≠ char '=' := by decide
  simp [pairLine, h.key.2.1, h.value.1, heq]

/-- A text of a message does not start with a separator. -/
theorem head_ne_of_fits (h : ∀ pair ∈ pairs, FitsMessage pair) (rest : Bytes)
    (hrest : rest.head? ≠ some (char '=')) :
    (linesText (char '=') (char '\n') pairs ++ rest).head? ≠ some (char '=') := by
  cases pairs with
  | nil => exact hrest
  | cons pair pairs =>
      have hpair := h pair (List.mem_cons_self ..)
      rw [lines_text_cons, pairLine, List.append_assoc, List.append_assoc,
        List.head?_append_of_ne_nil _ hpair.keyNeNil]
      exact fun heq => hpair.key.1 (List.mem_of_head? heq)

/-- The lines of a text with its NUL: the NUL is one of its own. -/
theorem getlines_with_nul (h : ∀ pair ∈ pairs, FitsMessage pair) :
    getlines (char '\n') (linesText (char '=') (char '\n') pairs ++ [0]) =
      pairs.map (pairLine (char '=')) ++ [[0]] := by
  rw [getlines_lines_text_append fun pair hmem => (h pair hmem).not_mem_line]
  rfl

/-- Whatever was read before, the NUL of a text is the key of the last pair. -/
theorem kv_reader_lines_nul (h : ∀ pair ∈ pairs, FitsMessage pair) :
    ∃ before value, kvReaderLines (char '=') (char '\n')
      (linesText (char '=') (char '\n') pairs ++ [0]) = before ++ [([0], value)] := by
  have hlast : getlines (char '=') [0] = [[0]] := by decide
  rw [kvReaderLines, if_neg (head_ne_of_fits h [0] (by decide)), getlines_with_nul h,
    List.foldl_append, List.foldl_cons, List.foldl_nil, hlast, readLine]
  exact ⟨_, _, if_pos nul_ne_nil⟩

end Nul

namespace Message

variable {message : Message}

theorem ntohl_htonl_type (type : CommandType) : ntohl (htonl type.value) = type.value := by
  cases type <;> decide

theorem length_data : message.data.length = linesLength message.pairs := by
  rw [data]
  induction message.pairs with
  | nil => rfl
  | cons pair pairs ih =>
      rw [lines_text_cons, linesLength, List.map_cons, List.sum_cons, ← linesLength, ← ih]
      simp [pairLine]
      omega

@[simp] theorem length_encode :
    message.encode.length = headerSize + message.data.length + 1 := by
  simp [encode, htonl, headerSize]
  omega

theorem encode_ne_nil (message : Message) : message.encode ≠ [] := by
  simp [encode, htonl]

/-- A chunk that starts with the header of a message is read as a text for its type. -/
theorem on_stream_read_header (text : Bytes) :
    onStreamRead (htonl message.handler.type.value ++ htonl message.subtype ++
      htonl (message.data.length + headerSize + 1) ++ text) =
        findCommand message.handler.type.value text := by
  rw [onStreamRead, if_neg (by simp [htonl, headerSize])]
  have htype : (htonl message.handler.type.value ++ htonl message.subtype ++
      htonl (message.data.length + headerSize + 1) ++ text).take 4 =
        htonl message.handler.type.value := by simp [htonl]
  have hdrop : (htonl message.handler.type.value ++ htonl message.subtype ++
      htonl (message.data.length + headerSize + 1) ++ text).drop headerSize = text := by
    simp [htonl, headerSize]
  rw [htype, hdrop, ntohl_htonl_type]

/-- The pairs of a call are those that the reader finds. -/
theorem kv_list_of_find {type : Nat} {requestData : Bytes} {value : Call}
    (h : findCommand type requestData = some value) :
    value.kvList = kvReaderLines (char '=') (char '\n') requestData := by
  obtain ⟨entry, -, rfl⟩ := Option.map_eq_some_iff.mp h
  rfl

/-- No message that arrives whole is handled with exactly its pairs. -/
theorem on_stream_read_encode_ne : onStreamRead message.encode ≠ some message.call := by
  intro h
  rw [encode, on_stream_read_header] at h
  obtain ⟨before, value, hread⟩ := kv_reader_lines_nul message.fits
  have hpairs : message.pairs = before ++ [([0], value)] := by
    rw [← hread]
    exact kv_list_of_find h
  have hkey := (message.fits ([0], value) (by simp [hpairs])).key.2.2
  exact hkey (List.mem_singleton.mpr rfl)

/-- The entry of a type and a command. -/
theorem find_entry {handler : CommandHandler} (hknown : handler ∈ mCommands) :
    (mCommands.find? fun entry =>
      entry.type.value = handler.type.value ∧ entry.command = handler.command) = some handler := by
  revert handler
  decide

/-- The first pair of a key has the key's value. -/
theorem get_value_of_lookup {kvMap : List (Bytes × Bytes)} {key value : Bytes}
    (h : kvMap.lookup key = some value) : getValue kvMap key = value := by
  induction kvMap with
  | nil => cases h
  | cons pair kvMap ih =>
      rw [List.lookup_cons] at h
      by_cases hkey : pair.1 = key
      · subst hkey
        simpa [getValue] using h
      · have hother : (key == pair.1) = false := by simpa using fun heq => hkey heq.symm
        rw [hother] at h
        simpa [getValue, hkey] using ih h

/-- A text that is read as the pairs of the message, and some more, leads to its handler. -/
theorem find_command_eq {text : Bytes} {more : List (Bytes × Bytes)}
    (h : kvReaderLines (char '=') (char '\n') text = message.pairs ++ more) :
    findCommand message.handler.type.value text =
      some ⟨message.handler, message.pairs ++ more⟩ := by
  have htxn : getValue (message.pairs ++ more) (ascii "TXN") = message.handler.command :=
    get_value_of_lookup (by rw [List.lookup_append, message.txn]; rfl)
  simp only [findCommand, h, htxn, find_entry message.known, Option.map_some]

/-- A call with the NUL takes as many bytes as the message has. -/
theorem length_encode_le {chunk : Bytes}
    (hread : onStreamRead chunk = some message.callWithNul) :
    message.encode.length ≤ chunk.length := by
  unfold onStreamRead at hread
  split at hread
  · cases hread
  · next hlong =>
      have hlength := kv_reader_lines_length (kv_list_of_find hread).symm
      rw [← length_data, List.length_drop, List.length_singleton] at hlength
      rw [length_encode]
      omega

namespace Plain

theorem fits_line (h : message.Plain) :
    ∀ pair ∈ message.pairs, FitsLine (char '=') (char '\n') pair :=
  fun pair hmem => ⟨(message.fits pair hmem).keyNeNil,
    ⟨(message.fits pair hmem).key.1, (message.fits pair hmem).key.2.1⟩,
    ⟨(h.values pair hmem).2, (message.fits pair hmem).value.1⟩⟩

theorem filter_pairs (h : message.Plain) :
    (message.pairs.filter fun pair => pair.2 ≠ []) = message.pairs :=
  List.filter_eq_self.mpr fun pair hmem => by simpa using (h.values pair hmem).1

theorem pending_key (h : message.Plain) : pendingKey message.pairs = [] := by
  unfold pendingKey
  split
  · next key hlast => exact absurd rfl (h.values (key, []) (List.mem_of_getLast? hlast)).1
  · rfl

/-- The text of a plain message is read as its pairs. -/
theorem kv_reader_lines_data (h : message.Plain) :
    kvReaderLines (char '=') (char '\n') message.data = message.pairs := by
  rw [data, kv_reader_lines_eq (by decide) h.fits_line h.distinct (.inl rfl), h.pending_key,
    h.filter_pairs]
  rfl

/-- With its NUL it is read as its pairs and one more. -/
theorem kv_reader_lines_nul (h : message.Plain) :
    kvReaderLines (char '=') (char '\n') (message.data ++ [0]) =
      message.pairs ++ [([0], lastValue message.pairs)] := by
  have hlast : getlines (char '=') [0] = [[0]] := by decide
  rw [data, kvReaderLines, if_neg (head_ne_of_fits message.fits [0] (by decide)),
    getlines_with_nul message.fits, List.foldl_append, read_lines_eq h.fits_line h.distinct,
    List.foldl_cons, List.foldl_nil, hlast, readLine, h.filter_pairs]
  exact if_pos nul_ne_nil

/-- A chunk that is a plain message leads to its call, with one more pair. -/
theorem on_stream_read_encode (h : message.Plain) :
    onStreamRead message.encode = some message.callWithNul := by
  rw [encode, on_stream_read_header, find_command_eq h.kv_reader_lines_nul, callWithNul]

/-- A chunk that is a plain message without its NUL leads to its call. -/
theorem on_stream_read_drop_last (h : message.Plain) :
    onStreamRead message.encode.dropLast = some message.call := by
  have hdrop : message.encode.dropLast = htonl message.handler.type.value ++
      htonl message.subtype ++ htonl (message.data.length + headerSize + 1) ++ message.data := by
    rw [encode, ← List.append_assoc, List.dropLast_concat]
  have hread : kvReaderLines (char '=') (char '\n') message.data = message.pairs ++ [] := by
    rw [h.kv_reader_lines_data, List.append_nil]
  rw [hdrop, on_stream_read_header, find_command_eq hread, List.append_nil, call]

end Plain

end Message

/-- Messages that come without their NULs, and a NUL behind each, lead to their calls. -/
theorem handled_without_nul {messages : List Message}
    (h : ∀ message ∈ messages, message.Plain) :
    (messages.flatMap fun message => [message.encode.dropLast, [0]]).filterMap onStreamRead =
      messages.map Message.call := by
  have hnul : onStreamRead [0] = none := rfl
  induction messages with
  | nil => rfl
  | cons message messages ih =>
      have hfirst := (h message (List.mem_cons_self ..)).on_stream_read_drop_last
      have hrest := ih fun other hmem => h other (List.mem_cons_of_mem _ hmem)
      rw [List.flatMap_cons, List.filterMap_append, hrest, List.map_cons,
        List.filterMap_cons_some hfirst, List.filterMap_cons_none hnul]
      rfl

/-- The handlers are called with exactly the pairs of the messages however the stream is cut,
if and only if there is no message. Of plain messages every handler gets its message's pairs and
the NUL as one more key if and only if every chunk is one of the messages, and its message's pairs
alone where every NUL comes in a chunk of its own. -/
theorem messages_handled_iff (messages : List Message) :
    ((∀ chunks : List Bytes, (∀ chunk ∈ chunks, chunk ≠ []) →
        chunks.flatten = (messages.map Message.encode).flatten →
        chunks.filterMap onStreamRead = messages.map Message.call) ↔ messages = []) ∧
    ((∀ message ∈ messages, message.Plain) →
      (∀ chunks : List Bytes, (∀ chunk ∈ chunks, chunk ≠ []) →
        chunks.flatten = (messages.map Message.encode).flatten →
        (chunks.filterMap onStreamRead = messages.map Message.callWithNul ↔
          chunks = messages.map Message.encode)) ∧
      (messages.flatMap fun message => [message.encode.dropLast, [0]]).filterMap onStreamRead =
        messages.map Message.call) := by
  refine ⟨⟨fun h => ?_, ?_⟩, fun hplain => ⟨fun chunks hne hstream => ?_, ?_⟩⟩
  · -- where every chunk is a message, the first message is not handled with its pairs
    cases messages with
    | nil => rfl
    | cons message messages =>
        have hwhole := h ((message :: messages).map Message.encode)
          (fun chunk hmem => by
            obtain ⟨other, -, rfl⟩ := List.mem_map.mp hmem
            exact other.encode_ne_nil) rfl
        rw [List.filterMap_map] at hwhole
        exact absurd (Chunks.eq_some_of_filterMap_eq_map hwhole (List.mem_cons_self ..))
          message.on_stream_read_encode_ne
  · rintro rfl chunks hne hstream
    obtain rfl : chunks = [] := List.eq_nil_iff_forall_not_mem.mpr fun chunk hmem =>
      hne chunk hmem (List.flatten_eq_nil_iff.mp hstream chunk hmem)
    rfl
  · rw [← List.filterMap_eq_map]
    exact Chunks.chunks_delivered_iff
      (fun message hmem => (hplain message hmem).on_stream_read_encode)
      (fun message _ chunk value hcall hread =>
        message.length_encode_le (hread.trans hcall.symm))
      (fun message _ => rfl) hne hstream
  · exact handled_without_nul hplain

/-- A ping. -/
def ping : Message where
  handler := ⟨.fsys, ascii "Ping"⟩
  known := by decide
  subtype := 0x80000001
  pairs := [(ascii "TXN", ascii "Ping")]
  fits := by decide
  txn := by decide

/-- The list of the sub accounts is asked for. -/
def getSubAccounts : Message where
  handler := ⟨.account, ascii "GetSubAccounts"⟩
  known := by decide
  subtype := 0x80000002
  pairs := [(ascii "TXN", ascii "GetSubAccounts"), (ascii "TID", ascii "3")]
  fits := by decide
  txn := by decide

theorem ping_and_sub_accounts_handled :
    [ping.encode, getSubAccounts.encode].filterMap onStreamRead =
        [ping, getSubAccounts].map Message.callWithNul ∧
      [ping.encode.dropLast, [0], getSubAccounts.encode.dropLast, [0]].filterMap onStreamRead =
        [ping, getSubAccounts].map Message.call := by
  have hplain : ∀ message ∈ [ping, getSubAccounts], message.Plain := by
    intro message hmem
    simp only [List.mem_cons, List.not_mem_nil, or_false] at hmem
    rcases hmem with rfl | rfl
    · exact ⟨by decide, by decide⟩
    · exact ⟨by decide, by decide⟩
  obtain ⟨hwhole, hnul⟩ := (messages_handled_iff [ping, getSubAccounts]).2 hplain
  exact ⟨(hwhole [ping.encode, getSubAccounts.encode] (by decide) rfl).mpr rfl, hnul⟩

/-- A message that comes in two chunks is not handled. -/
theorem split_ping_not_handled :
    ¬ ∀ (messages : List Message) (chunks : List Bytes), (∀ chunk ∈ chunks, chunk ≠ []) →
      chunks.flatten = (messages.map Message.encode).flatten →
      chunks.filterMap onStreamRead = messages.map Message.call := by
  intro h
  have hhandled := h [ping] [ping.encode.take 5, ping.encode.drop 5] (by decide) (by decide)
  revert hhandled
  decide

end OpenSpy.FESL
