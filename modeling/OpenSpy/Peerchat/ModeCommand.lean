import OpenSpy.Peerchat.Flags
import OpenSpy.Library.Decimal

/-!
# The MODE command of a channel

`handleChannelModeCommand` reads a mode string such as `+vo-k` with its parameters and makes the
requests that it asks for: the change of the channel's modes, a request of its own for every ban
mask, and a list of the bans.
-/

namespace OpenSpy.Peerchat

open Bytes UserChannelFlag

/-- A `std::map<std::string, int>` of flags by nick, in the order of its keys. -/
abbrev FlagMap := List (Bytes × BitVec 32)

/-- `map[name] |= flag`. -/
def orFlag (name : Bytes) (flag : BitVec 32) : FlagMap → FlagMap
  | [] => [(name, flag)]
  | (other, flags) :: rest =>
      if name = other then (other, flags ||| flag) :: rest
      else if name < other then (name, flag) :: (other, flags) :: rest
      else (other, flags) :: orFlag name flag rest

/-- `ChannelModifyRequest`. -/
structure ChannelModify where
  setModeFlags : BitVec 32
  unsetModeFlags : BitVec 32
  updatePassword : Bool
  updateLimit : Bool
  limit : BitVec 32
  password : Bytes
  updateTopic : Bool
  topic : Bytes
  setUsermodes : FlagMap
  unsetUsermodes : FlagMap
  deriving DecidableEq, Repr

/-- `ChannelModifyRequest::ChannelModifyRequest()`, which leaves the limit unset. -/
def ChannelModify.empty (unsetLimit : BitVec 32) : ChannelModify :=
  ⟨0, 0, false, false, unsetLimit, [], false, [], [], []⟩

/-- `channel_mode_flag_map`. -/
def channelModeFlagMap : List (BitVec 32 × UInt8) :=
  [(BitVec.twoPow 32 0, char 'n'), (BitVec.twoPow 32 1, char 't'), (BitVec.twoPow 32 2, char 'm'),
    (BitVec.twoPow 32 3, char 'p'), (BitVec.twoPow 32 4, char 's'), (BitVec.twoPow 32 5, char 'i'),
    (BitVec.twoPow 32 6, char 'z'), (BitVec.twoPow 32 7, char 'r'), (BitVec.twoPow 32 8, char 'e'),
    (BitVec.twoPow 32 9, char 'u'), (BitVec.twoPow 32 10, char 'q')]

/-- The variables of the loop over the mode string, and the ban masks that were requested. -/
structure ModeParser where
  set : Bool
  setFlags : BitVec 32
  unsetFlags : BitVec 32
  lastOffset : Nat
  modify : ChannelModify
  banMasks : List (Bytes × Bool)
  includeBanLookup : Bool
  deriving DecidableEq, Repr

/-- The modes `v`, `h`, `o` and `O`, which give or take the flag of a user. -/
def parseUserFlag (data : List Bytes) (flag : BitVec 32) (parser : ModeParser) : ModeParser :=
  let next := { parser with lastOffset := parser.lastOffset + 1 }
  match data[next.lastOffset]? with
  | none => next
  | some name =>
      if next.set then
        { next with modify :=
          { next.modify with setUsermodes := orFlag name flag next.modify.setUsermodes } }
      else
        { next with modify :=
          { next.modify with unsetUsermodes := orFlag name flag next.modify.unsetUsermodes } }

/-- The mode `b`. -/
def parseBan (data : List Bytes) (parser : ModeParser) : ModeParser :=
  let next := { parser with lastOffset := parser.lastOffset + 1 }
  match data[next.lastOffset]? with
  | none => { next with includeBanLookup := true }
  | some banMask => { next with banMasks := next.banMasks ++ [(banMask, next.set)] }

/-- The mode `k`. -/
def parsePassword (data : List Bytes) (parser : ModeParser) : ModeParser :=
  let parser := { parser with modify := { parser.modify with updatePassword := true } }
  if parser.set then
    let next := { parser with lastOffset := parser.lastOffset + 1 }
    match data[next.lastOffset]? with
    | none => next
    | some password => { next with modify := { next.modify with password := password } }
  else { parser with modify := { parser.modify with password := [] } }

/-- The mode `l`. -/
def parseLimit (data : List Bytes) (parser : ModeParser) : ModeParser :=
  let parser := { parser with modify := { parser.modify with updateLimit := true } }
  if parser.set then
    let next := { parser with lastOffset := parser.lastOffset + 1 }
    match data[next.lastOffset]? with
    | none => next
    | some limit =>
        { next with modify := { next.modify with limit := BitVec.ofInt 32 (atoi limit) } }
  else { parser with modify := { parser.modify with limit := 0 } }

/-- The other modes, which are those of the channel. -/
def parseChannelFlag (mode : UInt8) (parser : ModeParser) : ModeParser :=
  match channelModeFlagMap.find? (·.2 == mode) with
  | none => parser
  | some (flag, _) =>
      if parser.set then
        { parser with
          setFlags := parser.setFlags ||| flag
          unsetFlags := parser.unsetFlags &&& ~~~flag }
      else
        { parser with
          unsetFlags := parser.unsetFlags ||| flag
          setFlags := parser.setFlags &&& ~~~flag }

/-- The body of the loop over the mode string. -/
def parseMode (data : List Bytes) (parser : ModeParser) (mode : UInt8) : ModeParser :=
  if mode = char '+' then { parser with set := true }
  else if mode = char '-' then { parser with set := false }
  else if mode = char 'b' then parseBan data parser
  else if mode = char 'k' then parsePassword data parser
  else if mode = char 'l' then parseLimit data parser
  else if mode = char 'v' then parseUserFlag data voice parser
  else if mode = char 'h' then parseUserFlag data halfOp parser
  else if mode = char 'o' then parseUserFlag data op parser
  else if mode = char 'O' then parseUserFlag data owner parser
  else parseChannelFlag mode parser

/-- The loop over the mode string. `data` is the command with all its parameters. -/
def parseModes (unsetLimit : BitVec 32) (data : List Bytes) (modeString : Bytes) : ModeParser :=
  modeString.foldl (parseMode data) ⟨true, 0, 0, 2, .empty unsetLimit, [], false⟩

/-- The change of the modes that a mode string with its parameters asks for. -/
def requestedChange (unsetLimit : BitVec 32) (command channelName : Bytes) :
    List Bytes → ChannelModify
  | [] => .empty unsetLimit
  | modeString :: params =>
      let parser := parseModes unsetLimit (command :: channelName :: modeString :: params) modeString
      { parser.modify with
        setModeFlags := parser.setFlags
        unsetModeFlags := parser.unsetFlags }

/-- The requests that are made for a MODE command. -/
inductive ModeRequest where
  | lookupChannelDetails (channelName : Bytes)
  | updateBanMask (channelName banMask : Bytes) (set : Bool)
  | updateChannelModes (channelName : Bytes) (modify : ChannelModify)
  | listUserModes (chanmask : Bytes)
  deriving DecidableEq, Repr

/-- `Peer::handle_channel_mode_command` for the parameters behind the channel. -/
def handleChannelModeCommand (unsetLimit : BitVec 32) (command channelName : Bytes)
    (params : List Bytes) : List ModeRequest :=
  match params with
  | [] => [.lookupChannelDetails channelName]
  | modeString :: _ =>
      let parser := parseModes unsetLimit (command :: channelName :: params) modeString
      parser.banMasks.map (fun ban => .updateBanMask channelName ban.1 ban.2) ++
        .updateChannelModes channelName (requestedChange unsetLimit command channelName params) ::
        if parser.includeBanLookup then [.listUserModes channelName] else []

end OpenSpy.Peerchat
