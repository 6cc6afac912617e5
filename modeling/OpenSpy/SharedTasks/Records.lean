import OpenSpy.Core.Json
import OpenSpy.Library.Decimal

/-!
# User and profile records as JSON

`UserToJson`, `LoadUserFromJson`, `ProfileToJson` and `LoadProfileFromJson`, with the dates of
`Date.cpp`. The servers send records to the backend in this form and get them from it. `load_user`
and `load_profile` say what is read from what was written, and `records_survive_iff` which records
survive. The position of a profile, two floating point numbers, is left out.
-/

namespace OpenSpy.SharedTasks

open Bytes Json

/-- `OS::User`. -/
@[ext]
structure User where
  id : Int32
  email : Bytes
  partnercode : Int32
  password : Bytes
  videocardRam : Int32 × Int32
  cpuSpeed : Int32
  cpuBrandid : Int32
  connectionspeed : Int32
  connectionid : Int32
  hasnetwork : Bool
  emailVerified : Bool
  publicmask : Int32
  deleted : Bool
  deriving DecidableEq

/-- The constructor of `OS::User`. -/
def User.new : User where
  id := 0
  email := []
  partnercode := -1
  password := []
  videocardRam := (0, 0)
  cpuSpeed := 0
  cpuBrandid := 0
  connectionspeed := 0
  connectionid := 0
  hasnetwork := false
  emailVerified := false
  publicmask := 0
  deleted := false

/-- `OS::Date`. -/
@[ext]
structure Date where
  year : UInt16
  month : UInt8
  day : UInt8
  deriving DecidableEq

/-- The constructor of `OS::Date` without arguments. -/
def Date.new : Date :=
  ⟨0, 0, 0⟩

/-- `OS::Profile`. -/
@[ext]
structure Profile where
  id : Int32
  userid : Int32
  nick : Bytes
  uniquenick : Bytes
  namespaceid : Int32
  deleted : Bool
  firstname : Bytes
  lastname : Bytes
  icquin : Int32
  zipcode : Int32
  sex : Int32
  pic : Int32
  ooc : Int32
  ind : Int32
  mar : Int32
  chc : Int32
  i1 : Int32
  birthday : Date
  homepage : Bytes
  countrycode : Bytes
  videocardstring : Bytes × Bytes
  osstring : Bytes
  aim : Bytes
  deriving DecidableEq

/-- The constructor of `OS::Profile`. -/
def Profile.new : Profile where
  id := 0
  userid := 0
  nick := []
  uniquenick := []
  namespaceid := -1
  deleted := false
  firstname := []
  lastname := []
  icquin := 0
  zipcode := 0
  sex := -1
  pic := 0
  ooc := 0
  ind := 0
  mar := 0
  chc := 0
  i1 := 0
  birthday := Date.new
  homepage := []
  countrycode := []
  videocardstring := ([], [])
  osstring := []
  aim := []

section Write

/-- `json_integer`. -/
def jsonInteger (value : Int) : Option Json :=
  some (.integer value)

variable (takesString : Bytes → Bool)

/-- `json_string(text.c_str())`. `takesString` says which texts it takes, those in UTF-8. -/
def jsonString (text : Bytes) : Option Json :=
  if takesString (cString text) then some (.string (cString text)) else none

/-- What `UserToJson` sets, or does not set. -/
def userFields (user : User) : List (Bytes × Option Json) :=
  [(ascii "id", if user.id ≠ 0 then jsonInteger user.id.toInt else none),
    (ascii "email", if user.email.length > 0 then jsonString takesString user.email else none),
    (ascii "password",
      if user.password.length > 0 then jsonString takesString user.password else none),
    (ascii "videocard1ram", jsonInteger user.videocardRam.1.toInt),
    (ascii "videocard2ram", jsonInteger user.videocardRam.2.toInt),
    (ascii "cpuspeed", jsonInteger user.cpuSpeed.toInt),
    (ascii "cpubrandid", jsonInteger user.cpuBrandid.toInt),
    (ascii "connectionspeed", jsonInteger user.connectionspeed.toInt),
    (ascii "hasnetwork", some (.bool user.hasnetwork)),
    (ascii "publicmask", jsonInteger user.publicmask.toInt),
    (ascii "partnercode",
      if user.partnercode ≠ -1 then jsonInteger user.partnercode.toInt else none)]

/-- `UserToJson`. -/
def userToJson (user : User) : Json :=
  .ofFields (userFields takesString user)

/-- What `Date::GetJson` sets. -/
def Date.fields (date : Date) : List (Bytes × Option Json) :=
  [(ascii "day", jsonInteger date.day.toNat), (ascii "month", jsonInteger date.month.toNat),
    (ascii "year", jsonInteger date.year.toNat)]

/-- `Date::GetJson`. -/
def Date.getJson (date : Date) : Json :=
  .ofFields date.fields

/-- What `ProfileToJson` sets, or does not set. -/
def profileFields (profile : Profile) : List (Bytes × Option Json) :=
  let setText (text : Bytes) := if text.length > 0 then jsonString takesString text else none
  let setUnless (unset value : Int32) := if value ≠ unset then jsonInteger value.toInt else none
  [(ascii "id", jsonInteger profile.id.toInt),
    (ascii "nick", setText profile.nick),
    (ascii "uniquenick", setText profile.uniquenick),
    (ascii "firstname", setText profile.firstname),
    (ascii "lastname", setText profile.lastname),
    (ascii "icquin", setUnless 0 profile.icquin),
    (ascii "zipcode", setUnless 0 profile.zipcode),
    (ascii "sex", setUnless (-1) profile.sex),
    (ascii "pic", setUnless 0 profile.pic),
    (ascii "ooc", setUnless 0 profile.ooc),
    (ascii "ind", setUnless 0 profile.ind),
    (ascii "mar", setUnless 0 profile.mar),
    (ascii "chc", setUnless 0 profile.chc),
    (ascii "i1", setUnless 0 profile.i1),
    (ascii "birthday",
      if profile.birthday.year ≠ 0 then some profile.birthday.getJson else none),
    (ascii "countrycode", setText profile.countrycode),
    (ascii "namespaceid", setUnless (-1) profile.namespaceid)]

/-- `ProfileToJson`. -/
def profileToJson (profile : Profile) : Json :=
  .ofFields (profileFields takesString profile)

end Write

section Read

/-- `if(j) field = (int)json_integer_value(j);`. -/
def readInteger (field : Int32) (j : Option Json) : Int32 :=
  if j.isSome then Int32.ofInt (integerValue j) else field

/-- `if(j && json_is_integer(j)) field = (int)json_integer_value(j);`. -/
def readIfInteger (field : Int32) : Option Json → Int32
  | some (.integer value) => Int32.ofInt value
  | _ => field

/-- `if(j && json_is_string(j)) field = json_string_value(j);`. -/
def readIfString (field : Bytes) : Option Json → Bytes
  | some (.string value) => cString value
  | _ => field

/-- `if(j) field = json_string_value(j);`, which is undefined for what is no string. -/
def readString (field : Bytes) (j : Option Json) : Option Bytes :=
  if j.isSome then (stringValue j).map cString else some field

/-- `LoadUserFromJson`. -/
def loadUserFromJson (obj : Option Json) : Option User := do
  let email ← readString User.new.email (objectGet obj (ascii "email"))
  let connectionid := readInteger User.new.connectionid (objectGet obj (ascii "connectionid"))
  some
    { User.new with
      id := readInteger User.new.id (objectGet obj (ascii "id"))
      email := email
      partnercode := readInteger User.new.partnercode (objectGet obj (ascii "partnercode"))
      videocardRam :=
        (readInteger User.new.videocardRam.1 (objectGet obj (ascii "videocard1ram")),
          readInteger User.new.videocardRam.2 (objectGet obj (ascii "videocard2ram")))
      cpuSpeed := readInteger User.new.cpuSpeed (objectGet obj (ascii "cpuspeed"))
      cpuBrandid := readInteger User.new.cpuBrandid (objectGet obj (ascii "cpubrandid"))
      connectionspeed :=
        readInteger User.new.connectionspeed (objectGet obj (ascii "connectionspeed"))
      -- `hasnetwork` is read into `connectionid`
      connectionid :=
        match objectGet obj (ascii "hasnetwork") with
        | some j => if isTrue (some j) then 1 else 0
        | none => connectionid
      publicmask := readIfInteger 0 (objectGet obj (ascii "publicmask"))
      emailVerified := isTrue (objectGet obj (ascii "email_verified"))
      deleted := isTrue (objectGet obj (ascii "deleted")) }

/-- `Date::GetDateFromJSON`. -/
def getDateFromJSON (object : Option Json) : Date where
  day := UInt8.ofInt (integerValue (objectGet object (ascii "day")))
  month := UInt8.ofInt (integerValue (objectGet object (ascii "month")))
  year := UInt16.ofInt (integerValue (objectGet object (ascii "year")))

/-- `if(j) field = OS::Date::GetDateFromJSON(j); else field = OS::Date();`. -/
def readDate (j : Option Json) : Date :=
  if j.isSome then getDateFromJSON j else Date.new

/-- `LoadProfileFromJson`. -/
def loadProfileFromJson (obj : Option Json) : Profile :=
  let getText (field : Bytes) (name : String) := readIfString field (objectGet obj (ascii name))
  let getInteger (field : Int32) (name : String) := readIfInteger field (objectGet obj (ascii name))
  { id := getInteger Profile.new.id "id"
    userid :=
      match objectGet obj (ascii "userid") with
      | some j => readIfInteger Profile.new.userid (some j)
      | none => readInteger Profile.new.userid
          (objectGet (objectGet obj (ascii "user")) (ascii "id"))
    namespaceid := getInteger Profile.new.namespaceid "namespaceid"
    nick := getText Profile.new.nick "nick"
    uniquenick := getText Profile.new.uniquenick "uniquenick"
    firstname := getText Profile.new.firstname "firstname"
    lastname := getText Profile.new.lastname "lastname"
    homepage := getText Profile.new.homepage "homepage"
    -- from here on, what is not there is 0 whatever the constructor says
    icquin := getInteger 0 "icquin"
    sex := getInteger 0 "sex"
    zipcode := getInteger 0 "zipcode"
    pic := getInteger 0 "pic"
    ooc := getInteger 0 "ooc"
    ind := getInteger 0 "ind"
    mar := getInteger 0 "mar"
    chc := getInteger 0 "chc"
    i1 := getInteger 0 "i1"
    birthday := readDate (objectGet obj (ascii "birthday"))
    countrycode := getText Profile.new.countrycode "countrycode"
    videocardstring :=
      (getText Profile.new.videocardstring.1 "videocard1string",
        getText Profile.new.videocardstring.2 "videocard2string")
    osstring := getText Profile.new.osstring "osstring"
    aim := getText Profile.new.aim "aim"
    deleted :=
      match objectGet obj (ascii "deleted") with
      | some (.bool value) => value
      | _ => Profile.new.deleted }

end Read

/-- The user with the fields that have the same name for the writer and the reader. The others are
those of a new user. -/
def User.shared (user : User) : User :=
  { user with
    password := User.new.password
    connectionid := User.new.connectionid
    emailVerified := User.new.emailVerified
    deleted := User.new.deleted }

/-- The profile with the fields that have the same name for the writer and the reader. The others
are those of a new profile. -/
def Profile.shared (profile : Profile) : Profile :=
  { profile with
    userid := Profile.new.userid
    deleted := Profile.new.deleted
    homepage := Profile.new.homepage
    videocardstring := Profile.new.videocardstring
    osstring := Profile.new.osstring
    aim := Profile.new.aim }

/-- The texts that the writer and the reader share. -/
def Profile.texts (profile : Profile) : List Bytes :=
  [profile.nick, profile.uniquenick, profile.firstname, profile.lastname, profile.countrycode]

section Fields

variable (takesString : Bytes → Bool)

/-- A text that JSON can hold: a C string in UTF-8, or none. -/
def Storable (text : Bytes) : Prop :=
  text = [] ∨ (0 ∉ text ∧ takesString text = true)

/-- What is read of a text that was written. -/
def readBack (text : Bytes) : Bytes :=
  if takesString (cString text) then cString text else []

variable {takesString}

theorem read_back_nil : readBack takesString [] = [] := by
  unfold readBack
  split <;> rfl

theorem read_back_eq_iff (text : Bytes) :
    readBack takesString text = text ↔ Storable takesString text := by
  constructor
  · intro h
    rw [Storable, or_iff_not_imp_left]
    intro hne
    unfold readBack at h
    split at h
    · next htakes =>
        have hnul := zero_not_mem_c_string text
        rw [h] at hnul htakes
        exact ⟨hnul, htakes⟩
    · exact absurd h.symm hne
  · rintro (rfl | ⟨hnul, htakes⟩)
    · exact read_back_nil
    · rw [readBack, c_string_eq_self hnul, if_pos htakes]

/-- An empty text is left out, and stays empty. -/
@[simp] theorem read_set_text (text : Bytes) :
    readIfString [] (if text.length > 0 then jsonString takesString text else none) =
      readBack takesString text := by
  split
  · unfold readBack jsonString
    split
    · exact c_string_c_string text
    · rfl
  · next hlength =>
      rw [List.length_eq_zero_iff.mp (Nat.eq_zero_of_not_pos hlength), read_back_nil]
      rfl

@[simp] theorem read_set_string (text : Bytes) :
    readString [] (if text.length > 0 then jsonString takesString text else none) =
      some (readBack takesString text) := by
  rw [← read_set_text]
  split
  · unfold jsonString
    split <;> rfl
  · rfl

/-- What is left out is read as what the reader takes in its place. -/
@[simp] theorem read_set_unless (field unset value : Int32) :
    readIfInteger field (if value ≠ unset then jsonInteger value.toInt else none) =
      if value ≠ unset then value else field := by
  split <;> simp [readIfInteger, jsonInteger]

@[simp] theorem read_unless (field unset value : Int32) :
    readInteger field (if value ≠ unset then jsonInteger value.toInt else none) =
      if value ≠ unset then value else field := by
  split <;> simp [readInteger, jsonInteger, integerValue]

@[simp] theorem read_json_integer (field value : Int32) :
    readInteger field (jsonInteger value.toInt) = value := by
  simp [readInteger, jsonInteger, integerValue]

@[simp] theorem read_if_json_integer (field value : Int32) :
    readIfInteger field (jsonInteger value.toInt) = value := by
  simp [readIfInteger, jsonInteger]

/-- The value that is left out is the one of a new record. -/
@[simp] theorem unless_self (unset value : Int32) :
    (if value ≠ unset then value else unset) = value := by
  split
  · rfl
  · next h => exact (not_not.mp h).symm

end Fields

section Users

variable (takesString : Bytes → Bool) (user : User)

/-- The names that `UserToJson` uses. -/
def userNames : List Bytes :=
  [ascii "id", ascii "email", ascii "password", ascii "videocard1ram", ascii "videocard2ram",
    ascii "cpuspeed", ascii "cpubrandid", ascii "connectionspeed", ascii "hasnetwork",
    ascii "publicmask", ascii "partnercode"]

theorem map_user_fields : (userFields takesString user).map Prod.fst = userNames :=
  rfl

theorem user_get :
    ∀ field ∈ userFields takesString user,
      objectGet (some (userToJson takesString user)) field.1 = field.2 :=
  fun _ hfield => object_get_of_mem (by rw [map_user_fields]; decide) hfield

theorem user_get_none {name : Bytes} (h : name ∉ userNames) :
    objectGet (some (userToJson takesString user)) name = none :=
  object_get_of_not_mem (by rwa [map_user_fields])

/-- What is loaded of a user that was written. -/
theorem load_user :
    loadUserFromJson (some (userToJson takesString user)) =
      some { user.shared with
        email := readBack takesString user.email
        hasnetwork := false
        connectionid := if user.hasnetwork then 1 else 0 } := by
  have hget := user_get takesString user
  simp only [userFields, List.forall_mem_cons] at hget
  obtain ⟨hid, hemail, -, hvideo1, hvideo2, hspeed, hbrand, hconnection, hnetwork, hmask, hpartner,
    -⟩ := hget
  have hverified := user_get_none takesString user (by decide : ascii "email_verified" ∉ userNames)
  have hdeleted := user_get_none takesString user (by decide : ascii "deleted" ∉ userNames)
  simp only [loadUserFromJson, hid, hemail, hvideo1, hvideo2, hspeed, hbrand, hconnection, hnetwork,
    hmask, hpartner, hverified, hdeleted, User.new, read_set_string, read_unless, unless_self,
    read_json_integer, read_if_json_integer, Option.bind_eq_bind, Option.bind_some]
  rfl

theorem load_user_eq_shared_iff :
    loadUserFromJson (some (userToJson takesString user)) = some user.shared ↔
      user.hasnetwork = false ∧ Storable takesString user.email := by
  rw [load_user, Option.some_inj, User.ext_iff, ← read_back_eq_iff]
  cases hnetwork : user.hasnetwork <;> simp [User.shared, User.new, hnetwork]

end Users

section Profiles

variable (takesString : Bytes → Bool) (profile : Profile)

/-- The names that `ProfileToJson` uses. -/
def profileNames : List Bytes :=
  [ascii "id", ascii "nick", ascii "uniquenick", ascii "firstname", ascii "lastname",
    ascii "icquin", ascii "zipcode", ascii "sex", ascii "pic", ascii "ooc", ascii "ind",
    ascii "mar", ascii "chc", ascii "i1", ascii "birthday", ascii "countrycode",
    ascii "namespaceid"]

theorem map_profile_fields :
    (profileFields takesString profile).map Prod.fst = profileNames :=
  rfl

theorem profile_get :
    ∀ field ∈ profileFields takesString profile,
      objectGet (some (profileToJson takesString profile)) field.1 = field.2 :=
  fun _ hfield => object_get_of_mem (by rw [map_profile_fields]; decide) hfield

theorem profile_get_none {name : Bytes} (h : name ∉ profileNames) :
    objectGet (some (profileToJson takesString profile)) name = none :=
  object_get_of_not_mem (by rwa [map_profile_fields])

/-- The names that `Date::GetJson` uses. -/
def dateNames : List Bytes :=
  [ascii "day", ascii "month", ascii "year"]

/-- Dates come back. -/
theorem get_date_get_json (date : Date) : getDateFromJSON (some date.getJson) = date := by
  have hget : ∀ field ∈ date.fields, objectGet (some date.getJson) field.1 = field.2 :=
    fun _ hfield => object_get_of_mem (by decide : dateNames.Nodup) hfield
  simp only [Date.fields, List.forall_mem_cons] at hget
  obtain ⟨hday, hmonth, hyear, -⟩ := hget
  have hbyte (b : UInt8) : UInt8.ofInt b.toNat = b := by
    apply UInt8.toNat_inj.mp
    have hlt := b.toNat_lt
    simp only [UInt8.ofInt, UInt8.toNat_ofNat']
    omega
  have hshort : UInt16.ofInt date.year.toNat = date.year := by
    apply UInt16.toNat_inj.mp
    have hlt := date.year.toNat_lt
    simp only [UInt16.ofInt, UInt16.toNat_ofNat']
    omega
  simp only [getDateFromJSON, hday, hmonth, hyear, jsonInteger, integerValue, hbyte, hshort]

/-- A date whose year is 0 is left out. -/
@[simp] theorem read_set_date (date : Date) :
    readDate (if date.year ≠ 0 then some date.getJson else none) =
      if date.year ≠ 0 then date else Date.new := by
  split
  · exact get_date_get_json date
  · rfl

/-- What is loaded of a profile that was written. -/
theorem load_profile :
    loadProfileFromJson (some (profileToJson takesString profile)) =
      { profile.shared with
        nick := readBack takesString profile.nick
        uniquenick := readBack takesString profile.uniquenick
        firstname := readBack takesString profile.firstname
        lastname := readBack takesString profile.lastname
        sex := if profile.sex ≠ -1 then profile.sex else 0
        birthday := if profile.birthday.year ≠ 0 then profile.birthday else Date.new
        countrycode := readBack takesString profile.countrycode } := by
  have hget := profile_get takesString profile
  simp only [profileFields, List.forall_mem_cons] at hget
  obtain ⟨hid, hnick, huniquenick, hfirst, hlast, hicquin, hzip, hsex, hpic, hooc, hind, hmar, hchc,
    hi1, hbirthday, hcountry, hnamespace, -⟩ := hget
  have hnone {name : Bytes} (h : name ∉ profileNames) := profile_get_none takesString profile h
  simp only [loadProfileFromJson, hid, hnick, huniquenick, hfirst, hlast, hicquin, hzip, hsex, hpic,
    hooc, hind, hmar, hchc, hi1, hbirthday, hcountry, hnamespace, Profile.new,
    hnone (by decide : ascii "userid" ∉ profileNames),
    hnone (by decide : ascii "user" ∉ profileNames),
    hnone (by decide : ascii "homepage" ∉ profileNames),
    hnone (by decide : ascii "videocard1string" ∉ profileNames),
    hnone (by decide : ascii "videocard2string" ∉ profileNames),
    hnone (by decide : ascii "osstring" ∉ profileNames),
    hnone (by decide : ascii "aim" ∉ profileNames),
    hnone (by decide : ascii "deleted" ∉ profileNames),
    read_set_text, read_set_unless, unless_self, read_if_json_integer, read_set_date]
  rfl

theorem load_profile_eq_shared_iff :
    loadProfileFromJson (some (profileToJson takesString profile)) = profile.shared ↔
      (∀ text ∈ profile.texts, Storable takesString text) ∧ profile.sex ≠ -1 ∧
        (profile.birthday.year = 0 → profile.birthday = Date.new) := by
  have hsex : (if profile.sex ≠ -1 then profile.sex else 0) = profile.sex ↔ profile.sex ≠ -1 := by
    split
    · next h => exact iff_of_true rfl h
    · next h =>
        rw [not_not.mp h]
        decide
  have hbirthday : (if profile.birthday.year ≠ 0 then profile.birthday else Date.new) =
      profile.birthday ↔ (profile.birthday.year = 0 → profile.birthday = Date.new) := by
    split
    · next h => exact iff_of_true rfl fun hyear => absurd hyear h
    · next h => rw [eq_comm, imp_iff_right (not_not.mp h)]
  rw [load_profile, Profile.ext_iff]
  simp only [Profile.shared, Profile.texts, hsex, hbirthday, List.forall_mem_cons,
    ← read_back_eq_iff]
  tauto

end Profiles

/-- When the records of a user and a profile come back from JSON, in all fields that the writers
and the readers share, with nothing in the others. -/
theorem records_survive_iff (takesString : Bytes → Bool) (user : User) (profile : Profile) :
    (loadUserFromJson (some (userToJson takesString user)) = some user.shared ↔
      user.hasnetwork = false ∧ Storable takesString user.email) ∧
    (loadProfileFromJson (some (profileToJson takesString profile)) = profile.shared ↔
      (∀ text ∈ profile.texts, Storable takesString text) ∧ profile.sex ≠ -1 ∧
        (profile.birthday.year = 0 → profile.birthday = Date.new)) :=
  ⟨load_user_eq_shared_iff takesString user, load_profile_eq_shared_iff takesString profile⟩

/-- A user with a network comes back with a connection id in its place, and a new profile with
another sex. -/
theorem network_moved :
    loadUserFromJson (some (userToJson (fun _ => true) { User.new with hasnetwork := true })) ≠
        some { User.new with hasnetwork := true }.shared ∧
      loadProfileFromJson (some (profileToJson (fun _ => true) Profile.new)) ≠
        Profile.new.shared := by
  decide +kernel

end OpenSpy.SharedTasks
