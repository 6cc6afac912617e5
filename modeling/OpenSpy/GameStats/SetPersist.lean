import OpenSpy.Core.DataKeys
import OpenSpy.GameStats.AuthReplies

/-!
# The data of `setpd`

A `setpd` packet states the length of its data. The reader takes that many bytes, and
`handle_setpd` passes the stated length on, whatever the reader made of it. `setpd_inside_iff` says
for which packets nothing is read that was not received.
-/

namespace OpenSpy.GS

open Bytes MachineInt

/-- The values of `persisttype_t` that only the server may set. -/
def pdPrivateRo : Int := 0

def pdPublicRo : Int := 2

/-- What `handle_setpd` uses of a peer, and the packets passed to `SendPacket`. -/
structure SetPersistPeer where
  user : User
  authenticatedProfileids : List Int
  setRequestIndex : UInt32
  deleteFlag : Bool
  sent : List Bytes
  deriving DecidableEq

/-- `Peer::send_error` with `GP_NOT_LOGGED_IN`, which ends the session. -/
def SetPersistPeer.sendNotLoggedIn (peer : SetPersistPeer) : SetPersistPeer :=
  { peer with
    deleteFlag := true
    sent := peer.sent ++ [ascii "\\error\\\\err\\2\\errmsg\\" ++
      ascii "The request cannot be processed because user has not logged in. " ++
      ascii "\\fatal\\1"] }

/-- The request of `handle_setpd`. `encoded` are the arguments of `BinToBase64Str`, the bytes and
how many of them, if it is called. -/
structure SetPersistRequest where
  profileid : Int
  operationId : Int
  waitIndex : UInt32
  dataType : Int
  dataIndex : Int
  kvSet : Bool
  kvSetData : List (Bytes × Bytes)
  encoded : Option (Bytes × Nat)
  deriving DecidableEq

/-- The request is refused, with `GP_NOT_LOGGED_IN`. -/
def SetPersistPeer.Refuses (peer : SetPersistPeer) (fields : List (Bytes × Bytes)) : Prop :=
  getValueInt fields (ascii "pid") ∉ peer.authenticatedProfileids ∨
    getValueInt fields (ascii "ptype") = pdPublicRo ∨
      getValueInt fields (ascii "ptype") = pdPrivateRo

instance (peer : SetPersistPeer) (fields : List (Bytes × Bytes)) :
    Decidable (peer.Refuses fields) :=
  inferInstanceAs (Decidable (_ ∨ _ ∨ _))

/-- `Peer::handle_setpd`: the peer after it, and the request that it adds. -/
def SetPersistPeer.handleSetpd (peer : SetPersistPeer) (fields : List (Bytes × Bytes)) :
    SetPersistPeer × Option SetPersistRequest :=
  let operationId := getValueInt fields (ascii "lid")
  let pid := getValueInt fields (ascii "pid")
  let dataIndex := getValueInt fields (ascii "dindex")
  let persistType := getValueInt fields (ascii "ptype")
  if peer.Refuses fields then (peer.sendNotLoggedIn, none)
  else
    let kvSet := getValueInt fields (ascii "kv") != 0
    let data := getValue fields dataKey
    let clientDataLen := getValueInt fields lengthKey
    ({ peer with setRequestIndex := peer.setRequestIndex + 1 },
      some
        { profileid := pid
          operationId := operationId
          waitIndex := peer.setRequestIndex
          dataType := persistType
          dataIndex := dataIndex
          kvSet := kvSet
          kvSetData := if kvSet then kvReader data else []
          encoded := if kvSet then none else some (data, sizeT clientDataLen) })

/-- A user is logged in and the first key is `setpd`. -/
def SetPersistPeer.AcceptsSetpd (peer : SetPersistPeer) (fields : List (Bytes × Bytes)) : Prop :=
  peer.user.id ≠ 0 ∧ fields.head?.map Prod.fst = some (ascii "setpd")

instance (peer : SetPersistPeer) (fields : List (Bytes × Bytes)) :
    Decidable (peer.AcceptsSetpd fields) :=
  inferInstanceAs (Decidable (_ ∧ _))

/-- `Peer::handle_packet` for `setpd`. -/
def SetPersistPeer.handlePacket (peer : SetPersistPeer) (heap : Nat → UInt8) (packet : Bytes) :
    SetPersistPeer × Option SetPersistRequest :=
  let fields := dataReader heap packet
  if peer.AcceptsSetpd fields then peer.handleSetpd fields else (peer, none)

/-- The number of bytes that is passed to `BinToBase64Str` is not above the length of the data, and
the data is a piece of the packet, whatever the memory held. -/
structure SetpdInside (peer : SetPersistPeer) (packet : Bytes) : Prop where
  passed : ∀ heap, ∀ request ∈ (peer.handlePacket heap packet).2,
    ∀ data count, request.encoded = some (data, count) → count ≤ data.length
  received : ∃ piece, piece <:+: packet ∧ ∀ heap, getValue (dataReader heap packet) dataKey = piece

/-- The fields of a packet, where the memory holds zeros. -/
def packetFields (packet : Bytes) : List (Bytes × Bytes) :=
  dataReader (fun _ => 0) packet

/-- A packet does not state more bytes than follow its data key, unless it states more than it is
long. -/
def FollowedByData (packet : Bytes) : Prop :=
  ∀ before rest, dataField packet = some (before, rest) →
    statedLength before ≤ rest.length ∨ (fieldText packet).length < statedLength before

/-- A packet states the length of its data before the data key, and so many bytes follow. -/
def StatesData (packet : Bytes) : Prop :=
  ∃ before rest, dataField packet = some (before, rest) ∧ hasKey before lengthKey ∧
    statedLength before ≤ rest.length

/-- The data of a packet is not encoded, or no length is stated, or what is stated is there. -/
def EncodesStated (peer : SetPersistPeer) (packet : Bytes) : Prop :=
  peer.Refuses (packetFields packet) ∨ getValueInt (packetFields packet) (ascii "kv") ≠ 0 ∨
    getValueInt (packetFields packet) lengthKey = 0 ∨ StatesData packet

section Setpd

variable {peer : SetPersistPeer} {packet : Bytes} {heap : Nat → UInt8}

theorem followed_by_data_iff {before : List (Bytes × Bytes)} {rest : Bytes}
    (hfield : dataField packet = some (before, rest)) :
    FollowedByData packet ↔
      statedLength before ≤ rest.length ∨ (fieldText packet).length < statedLength before := by
  constructor
  · intro h
    exact h before rest hfield
  · intro h other more hother
    obtain ⟨rfl, rfl⟩ := Prod.mk.inj (Option.some.inj (hfield.symm.trans hother))
    exact h

/-- The data is the same piece of the packet for every memory exactly if it does not end early. -/
theorem received_iff :
    (∃ piece, piece <:+: packet ∧ ∀ heap, getValue (dataReader heap packet) dataKey = piece) ↔
      FollowedByData packet := by
  cases hfield : dataField packet with
  | none =>
      refine iff_of_true ⟨[], List.nil_infix, fun heap => ?_⟩ ?_
      · exact get_value_of_missing (data_reader_no_data hfield heap heap).2
      · intro before rest heq
        simp [hfield] at heq
  | some field =>
      obtain ⟨before, rest⟩ := field
      have hdata := (data_reader_eq hfield).1
      rw [followed_by_data_iff hfield]
      by_cases hlong : (fieldText packet).length < statedLength before
      · refine iff_of_true ⟨[], List.nil_infix, fun heap => ?_⟩ (.inr hlong)
        rw [data_reader_too_long hfield hlong heap, get_value_concat hdata]
      · have hvalue := fun heap => (data_reader_value hfield (not_lt.mp hlong) heap).2
        simp only [hvalue, hlong, or_false]
        constructor
        · rintro ⟨piece, -, hpiece⟩
          by_contra hshort
          exact @block_read_beyond _ (some rest) (not_le.mp hshort)
            ((hpiece _).trans (hpiece _).symm)
        · intro hinside
          refine ⟨rest.take (statedLength before), ?_, fun heap => ?_⟩
          · exact (List.take_prefix _ _).isInfix.trans
              ((data_field_suffix hfield).trans (field_text_suffix packet)).isInfix
          · exact @block_read_inside heap _ (some rest) hinside

/-- Unless the data ends early, the fields do not depend on the memory. -/
theorem packet_fields_eq (h : FollowedByData packet) (heap : Nat → UInt8) :
    dataReader heap packet = packetFields packet := by
  cases hfield : dataField packet with
  | none => exact (data_reader_no_data hfield heap _).1
  | some field =>
      obtain ⟨before, rest⟩ := field
      rcases h before rest hfield with hinside | hlong
      · exact data_reader_inside hfield hinside heap _
      · rw [packetFields, data_reader_too_long hfield hlong, data_reader_too_long hfield hlong]

theorem size_t_eq_zero (s : Bytes) : sizeT (atoi s) = 0 ↔ atoi s = 0 := by
  have hlow := neg_two_pow_le_atoi s
  have hhigh := atoi_lt_two_pow s
  unfold sizeT
  omega

/-- A stated length is 0 as a `size_t` only if it is 0. -/
theorem size_t_value_eq_zero (fields : List (Bytes × Bytes)) (key : Bytes) :
    sizeT (getValueInt fields key) = 0 ↔ getValueInt fields key = 0 := by
  rw [getValueInt]
  split
  · decide
  · exact size_t_eq_zero _

/-- The stated length is at most that of the data exactly if none is stated or the data is there. -/
theorem stated_le_iff (h : FollowedByData packet) :
    sizeT (getValueInt (packetFields packet) lengthKey) ≤
        (getValue (packetFields packet) dataKey).length ↔
      getValueInt (packetFields packet) lengthKey = 0 ∨ StatesData packet := by
  cases hfield : dataField packet with
  | none =>
      have hmissing := get_value_of_missing (data_reader_no_data hfield (fun _ => 0) fun _ => 0).2
      rw [packetFields, hmissing, List.length_nil, Nat.le_zero, size_t_value_eq_zero]
      simp [StatesData, hfield]
  | some field =>
      obtain ⟨before, rest⟩ := field
      have hdata := (data_reader_eq hfield).1
      have hstates : StatesData packet ↔
          hasKey before lengthKey ∧ statedLength before ≤ rest.length := by
        simp [StatesData, hfield]
      have hrest := (data_field_suffix hfield).length_le
      rw [hstates]
      rcases h before rest hfield with hinside | hlong
      · have hfits : statedLength before ≤ (fieldText packet).length := hinside.trans hrest
        obtain ⟨hmore, hvalue⟩ := data_reader_value hfield hfits fun _ => 0
        rw [packetFields, hvalue, block_read_length]
        cases hkey : hasKey before lengthKey with
        | true =>
            rw [get_value_int_more hmore hkey]
            exact iff_of_true le_rfl (.inr ⟨rfl, hinside⟩)
        | false =>
            have hzero : statedLength before = 0 := by
              rw [statedLength, get_value_int_of_missing hkey]
              rfl
            rw [hzero, Nat.le_zero, size_t_value_eq_zero]
            simp
      · have hnot : ¬ statedLength before ≤ rest.length := by omega
        rw [packetFields, data_reader_too_long hfield hlong, get_value_concat hdata,
          List.length_nil, Nat.le_zero, size_t_value_eq_zero]
        simp [hnot]

/-- The request of an accepted packet passes on the data and its stated length unless it is refused
or sets keys. -/
theorem encoded_iff (hpacket : peer.AcceptsSetpd (dataReader heap packet)) {data : Bytes}
    {count : Nat} :
    (∃ request ∈ (peer.handlePacket heap packet).2, request.encoded = some (data, count)) ↔
      ¬ peer.Refuses (dataReader heap packet) ∧
        getValueInt (dataReader heap packet) (ascii "kv") = 0 ∧
          getValue (dataReader heap packet) dataKey = data ∧
            sizeT (getValueInt (dataReader heap packet) lengthKey) = count := by
  rw [SetPersistPeer.handlePacket, if_pos hpacket, SetPersistPeer.handleSetpd]
  by_cases hrefuses : peer.Refuses (dataReader heap packet)
  · simp [hrefuses]
  · by_cases hkv : getValueInt (dataReader heap packet) (ascii "kv") = 0
    · simp [hrefuses, hkv]
    · simp [hrefuses, hkv]

end Setpd

/-- For a packet that is accepted as `setpd`, the number of bytes that is encoded is not above the
length of the data, and the data is a piece of the packet, if and only if the data does not end
early and, where it is encoded, its length is not stated or stands before so many bytes. -/
theorem setpd_inside_iff {peer : SetPersistPeer} {packet : Bytes}
    (haccepted : ∀ heap, peer.AcceptsSetpd (dataReader heap packet)) :
    SetpdInside peer packet ↔ FollowedByData packet ∧ EncodesStated peer packet := by
  have hpassed : FollowedByData packet →
      ((∀ heap, ∀ request ∈ (peer.handlePacket heap packet).2,
        ∀ data count, request.encoded = some (data, count) → count ≤ data.length) ↔
          EncodesStated peer packet) := by
    intro hfollowed
    rw [EncodesStated, ← stated_le_iff hfollowed]
    constructor
    · intro h
      by_contra hnot
      rw [not_or, not_or, not_not] at hnot
      obtain ⟨hrefuses, hkv, hle⟩ := hnot
      obtain ⟨request, hrequest, hencoded⟩ :=
        (encoded_iff (haccepted fun _ => 0)).mpr ⟨hrefuses, hkv, rfl, rfl⟩
      exact hle (h _ request hrequest _ _ hencoded)
    · intro h heap request hrequest data count hencoded
      obtain ⟨hrefuses, hkv, rfl, rfl⟩ :=
        (encoded_iff (haccepted heap)).mp ⟨request, hrequest, hencoded⟩
      rw [packet_fields_eq hfollowed] at hrefuses hkv ⊢
      rcases h with hin | hset | hle
      · exact absurd hin hrefuses
      · exact absurd hkv hset
      · exact hle
  constructor
  · intro h
    have hfollowed := received_iff.mp h.received
    exact ⟨hfollowed, (hpassed hfollowed).mp h.passed⟩
  · rintro ⟨hfollowed, hencodes⟩
    exact ⟨(hpassed hfollowed).mpr hencodes, received_iff.mpr hfollowed⟩

/-- A user who may set the data of profile 5. -/
def settingPeer : SetPersistPeer :=
  ⟨⟨1, [], -1⟩, [5], 0, false, []⟩

/-- Two bytes are stated, and the second is a backslash. -/
def twoBytesStated : Bytes :=
  ascii "\\setpd\\\\pid\\5\\ptype\\3\\length\\2\\data\\a\\\\lid\\1"

theorem setpd_inside_of_two : SetpdInside settingPeer twoBytesStated := by
  have hfield : dataField twoBytesStated =
      some ([(ascii "setpd", []), (ascii "pid", ascii "5"), (ascii "ptype", ascii "3"),
        (ascii "length", ascii "2")], ascii "a\\\\lid\\1") := by
    decide
  refine (setpd_inside_iff fun heap => ?_).mpr ⟨?_, .inr (.inr (.inr ⟨_, _, hfield, ?_⟩))⟩
  · rw [data_reader_inside hfield (by decide) heap fun _ => 0]
    decide
  · rw [followed_by_data_iff hfield]
    decide
  · decide

/-- 99 bytes are stated, in a shorter packet. -/
def manyBytesStated : Bytes :=
  ascii "\\setpd\\\\pid\\5\\ptype\\3\\length\\99\\data\\ab"

/-- The stated bytes are read from behind an empty text. -/
theorem setpd_reads_beyond :
    ¬ ∀ (peer : SetPersistPeer) (packet : Bytes),
      (∀ heap, peer.AcceptsSetpd (dataReader heap packet)) → SetpdInside peer packet := by
  intro h
  have hfield : dataField manyBytesStated =
      some ([(ascii "setpd", []), (ascii "pid", ascii "5"), (ascii "ptype", ascii "3"),
        (ascii "length", ascii "99")], ascii "ab") := by
    decide
  have hread := data_reader_too_long hfield (by decide)
  have haccepted : ∀ heap, settingPeer.AcceptsSetpd (dataReader heap manyBytesStated) := by
    intro heap
    rw [hread heap]
    decide
  obtain ⟨request, hrequest, hencoded⟩ :=
    (@encoded_iff settingPeer manyBytesStated _ (haccepted fun _ => 0) [] 99).mpr (by
      rw [hread fun _ => 0]
      decide)
  exact absurd ((h settingPeer _ haccepted).passed _ request hrequest _ _ hencoded) (by decide)

end OpenSpy.GS
