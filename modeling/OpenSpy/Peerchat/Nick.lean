import OpenSpy.Library.Decimal

/-!
# Nick validation

`is_nick_valid` works from a table of character attributes and returns the length of the valid
start of a nick. `handle_nick` rejects a nick only if that length is zero.
-/

namespace OpenSpy.Peerchat

open Bytes

/-- `NICKLEN` of `irc_common.cpp`. -/
def nickLen : Nat := 32

/-- The characters with the attribute `GAMESPY` in `char_atribs`. -/
def isGamespy (c : UInt8) : Bool :=
  c ∈ ascii "#$%&()*+,-./:;@"

/-- The characters with the attribute `BLOCK_START` in `char_atribs`. -/
def isBlockStart (c : UInt8) : Bool :=
  c ∈ ascii "#+:@"

/-- The macro `isvalid`; a `char` above 127 is negative. -/
def isValid (c : UInt8) : Bool :=
  (char 'A' ≤ c && c < char '~') || isDigit c || c == char '-' || isGamespy c

/-- `is_nick_valid` of a C string. -/
def isNickValid (nick : Bytes) : Nat :=
  if nick.length > nickLen then 0
  else if nick = [char '*'] then 0
  else if isBlockStart (nick.headD 0) then 0
  else ((nick.take nickLen).takeWhile fun ch => isValid ch && !isSpace ch).length

/-- `Peer::handle_nick` with the peer's uniquenick: the nick that is requested, or the numeric
and its text. -/
def handleNick (uniquenick param : Bytes) : Except (Nat × Bytes) Bytes :=
  let nick := if param.headD 0 = char ':' then param.drop 1 else param
  if nick = [char '*'] && uniquenick.length > 0 then .ok (uniquenick ++ ascii "-gs")
  else if nick = [char '*'] && uniquenick.length = 0 then
    .error (709, ascii "No uniquenick registered")
  else if isNickValid (cString nick) = 0 then .error (432, ascii "Erroneous nickname")
  else .ok nick

end OpenSpy.Peerchat
