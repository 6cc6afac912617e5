import Mathlib.Tactic.Common

/-!
# Flags and ranks

The flags of a user in a channel, of a channel, and of an operator, as the bits of an `int`.
Voice, half operator, operator and owner are ranks: `getUserChannelModeLevel` is the highest
one that is set.
-/

namespace OpenSpy.Peerchat

/-- Some bit of `flag` is set in `flags`. -/
def hasFlag (flags flag : BitVec 32) : Bool :=
  flags &&& flag != 0

/-- Flags with others given or taken. -/
def changeFlags (unset : Bool) (flags change : BitVec 32) : BitVec 32 :=
  if unset then flags &&& ~~~change else flags ||| change

namespace UserChannelFlag

/-- `EUserChannelFlag_IsInChannel`. -/
def isInChannel : BitVec 32 := BitVec.twoPow 32 0

/-- `EUserChannelFlag_Voice`. -/
def voice : BitVec 32 := BitVec.twoPow 32 1

/-- `EUserChannelFlag_HalfOp`. -/
def halfOp : BitVec 32 := BitVec.twoPow 32 2

/-- `EUserChannelFlag_Op`. -/
def op : BitVec 32 := BitVec.twoPow 32 3

/-- `EUserChannelFlag_Owner`. -/
def owner : BitVec 32 := BitVec.twoPow 32 4

/-- `EUserChannelFlag_Invisible`. -/
def invisible : BitVec 32 := BitVec.twoPow 32 5

/-- `EUserChannelFlag_Gagged`. -/
def gagged : BitVec 32 := BitVec.twoPow 32 6

/-- `EUserChannelFlag_Invited`. -/
def invited : BitVec 32 := BitVec.twoPow 32 7

/-- `EUserChannelFlag_Banned`. -/
def banned : BitVec 32 := BitVec.twoPow 32 9

end UserChannelFlag

namespace ChannelMode

/-- `EChannelMode_NoOutsideMessages`. -/
def noOutsideMessages : BitVec 32 := BitVec.twoPow 32 0

/-- `EChannelMode_Moderated`. -/
def moderated : BitVec 32 := BitVec.twoPow 32 2

/-- `EChannelMode_Private`. -/
def privateChannel : BitVec 32 := BitVec.twoPow 32 3

/-- `EChannelMode_Secret`. -/
def secret : BitVec 32 := BitVec.twoPow 32 4

/-- `EChannelMode_InviteOnly`. -/
def inviteOnly : BitVec 32 := BitVec.twoPow 32 5

/-- `EChannelMode_StayOpen`. -/
def stayOpen : BitVec 32 := BitVec.twoPow 32 6

/-- `EChannelMode_UserCreated`. -/
def userCreated : BitVec 32 := BitVec.twoPow 32 7

/-- `EChannelMode_OpsObeyChannelLimit`. -/
def opsObeyChannelLimit : BitVec 32 := BitVec.twoPow 32 8

/-- `EChannelMode_Auditorium`. -/
def auditorium : BitVec 32 := BitVec.twoPow 32 9

/-- `EChannelMode_Auditorium_ShowVOP`. -/
def auditoriumShowVOP : BitVec 32 := BitVec.twoPow 32 10

end ChannelMode

/-- `EUserMode_Quiet`, a mode of a user. -/
def quietUser : BitVec 32 := BitVec.twoPow 32 0

/-- `EUserMode_Invisible`. -/
def invisibleUser : BitVec 32 := BitVec.twoPow 32 1

/-- `EUserMode_Gagged`. -/
def gaggedUser : BitVec 32 := BitVec.twoPow 32 2

/-- `OPERPRIVS_INVISIBLE`. -/
def operInvisible : BitVec 32 := BitVec.twoPow 32 0

/-- `OPERPRIVS_GLOBALOWNER`. -/
def globalOwner : BitVec 32 := BitVec.twoPow 32 3

/-- `OPERPRIVS_GETVOICE`. -/
def getVoice : BitVec 32 := BitVec.twoPow 32 4

/-- `OPERPRIVS_OPEROVERRIDE`. -/
def operOverride : BitVec 32 := BitVec.twoPow 32 5

/-- `OPERPRIVS_LISTOPERS`. -/
def listOpers : BitVec 32 := BitVec.twoPow 32 9

/-- `OPERPRIVS_CTCP`. -/
def ctcp : BitVec 32 := BitVec.twoPow 32 10

open UserChannelFlag

/-- `GetUserChannelModeLevel`. -/
def getUserChannelModeLevel (modeflags : BitVec 32) : Nat :=
  if hasFlag modeflags owner then 4
  else if hasFlag modeflags op then 3
  else if hasFlag modeflags halfOp then 2
  else if hasFlag modeflags voice then 1
  else 0

/-- `GetMinimumModeFlagsFromUpdateSet`. -/
def getMinimumModeFlagsFromUpdateSet (updateModeFlags : BitVec 32) : BitVec 32 :=
  if hasFlag updateModeFlags owner then owner
  else if hasFlag updateModeFlags op then op
  else if hasFlag updateModeFlags halfOp then halfOp
  else if hasFlag updateModeFlags voice then voice
  else owner

/-- A single flag is a bit. -/
theorem has_flag_two_pow (flags : BitVec 32) (bit : Nat) (h : bit < 32) :
    hasFlag flags (BitVec.twoPow 32 bit) = flags.getLsbD bit := by
  have hne : BitVec.twoPow 32 bit ≠ 0#32 := by
    intro heq
    have hbit := congrArg (·.getLsbD bit) heq
    simp [h] at hbit
  rw [hasFlag, BitVec.and_twoPow]
  cases flags.getLsbD bit <;> simp [hne]

/-- Giving or taking no flags. -/
theorem change_flags_zero (unset : Bool) (flags : BitVec 32) :
    changeFlags unset flags 0 = flags := by
  cases unset with
  | false => exact BitVec.or_zero
  | true =>
      show flags &&& ~~~0#32 = flags
      rw [BitVec.not_zero, BitVec.and_allOnes]

/-- Two changes one after the other are one. -/
theorem change_flags_or (unset : Bool) (flags change others : BitVec 32) :
    changeFlags unset (changeFlags unset flags change) others =
      changeFlags unset flags (change ||| others) := by
  cases unset
  · simp [changeFlags, BitVec.or_assoc]
  · simp [changeFlags, BitVec.and_assoc, BitVec.not_or]

/-- The level reads the four ranks. -/
theorem level_eq (flags : BitVec 32) :
    getUserChannelModeLevel flags =
      if flags.getLsbD 4 then 4 else if flags.getLsbD 3 then 3
      else if flags.getLsbD 2 then 2 else if flags.getLsbD 1 then 1 else 0 := by
  simp only [getUserChannelModeLevel, owner, op, halfOp, voice,
    has_flag_two_pow _ _ (by decide : 4 < 32), has_flag_two_pow _ _ (by decide : 3 < 32),
    has_flag_two_pow _ _ (by decide : 2 < 32), has_flag_two_pow _ _ (by decide : 1 < 32)]

/-- The level of two sets of flags is that of the higher one. -/
theorem level_or (flags others : BitVec 32) :
    getUserChannelModeLevel (flags ||| others) =
      max (getUserChannelModeLevel flags) (getUserChannelModeLevel others) := by
  simp only [level_eq, BitVec.getLsbD_or]
  cases flags.getLsbD 4 <;> cases flags.getLsbD 3 <;> cases flags.getLsbD 2 <;>
    cases flags.getLsbD 1 <;> cases others.getLsbD 4 <;> cases others.getLsbD 3 <;>
    cases others.getLsbD 2 <;> cases others.getLsbD 1 <;> rfl

/-- Taking flags back does not raise the level. -/
theorem level_and_le (flags others : BitVec 32) :
    getUserChannelModeLevel (flags &&& others) ≤ getUserChannelModeLevel flags := by
  simp only [level_eq, BitVec.getLsbD_and]
  cases flags.getLsbD 4 <;> cases flags.getLsbD 3 <;> cases flags.getLsbD 2 <;>
    cases flags.getLsbD 1 <;> cases others.getLsbD 4 <;> cases others.getLsbD 3 <;>
    cases others.getLsbD 2 <;> cases others.getLsbD 1 <;> decide

theorem level_le_four (flags : BitVec 32) : getUserChannelModeLevel flags ≤ 4 := by
  unfold getUserChannelModeLevel
  split_ifs <;> omega

/-- The smallest flags that allow a change of the flags of a target are his own rank, or the
owner's if he has none. -/
theorem minimum_level (flags : BitVec 32) :
    getUserChannelModeLevel (getMinimumModeFlagsFromUpdateSet flags) =
      if getUserChannelModeLevel flags = 0 then 4 else getUserChannelModeLevel flags := by
  have howner : getUserChannelModeLevel owner = 4 := by decide
  have hop : getUserChannelModeLevel op = 3 := by decide
  have hhalf : getUserChannelModeLevel halfOp = 2 := by decide
  have hvoice : getUserChannelModeLevel voice = 1 := by decide
  simp only [getMinimumModeFlagsFromUpdateSet, getUserChannelModeLevel.eq_def flags]
  split_ifs <;> simp_all

end OpenSpy.Peerchat
