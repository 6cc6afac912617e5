import Mathlib.Data.List.Infix
import Mathlib.Data.UInt
import Mathlib.Tactic.Common

/-!
# Byte strings

A C++ `std::string` and a byte buffer are lists of bytes. `ascii` writes a literal, and
`substr` and `isSpace` are the standard library's, in the "C" locale.
-/

/-- The bytes of a string or buffer. -/
abbrev Bytes := List UInt8

namespace Bytes

instance : LawfulBEq Bytes := inferInstance

/-- The byte of an ASCII character. -/
def char (c : Char) : UInt8 :=
  UInt8.ofNat c.toNat

/-- The bytes of an ASCII literal. -/
def ascii (text : String) : Bytes :=
  text.toList.map char

/-- `std::string::substr(pos, len)` for a position inside the string. -/
def substr (s : Bytes) (pos len : Nat) : Bytes :=
  (s.drop pos).take len

/-- `s.find_first_of(c)`, with -1 for `npos`. -/
def findFirstOf (s : Bytes) (c : UInt8) : Int :=
  if c ∈ s then s.idxOf c else -1

/-- `s.substr(pos, count)`, where a negative count stands for the huge `size_t` that it wraps
to, `npos` among them: the rest of the string. -/
def substrSize (s : Bytes) (pos count : Int) : Bytes :=
  if count < 0 then s.drop pos.toNat else (s.drop pos.toNat).take count.toNat

/-- `isspace`: tab, newline, vertical tab, form feed, carriage return and blank. -/
def isSpace (b : UInt8) : Bool :=
  (9 ≤ b && b ≤ 13) || b == 32

/-- `tolower`. -/
def toLower (b : UInt8) : UInt8 :=
  if 65 ≤ b && b ≤ 90 then b + 32 else b

/-- Two letters differ at most in their case. -/
def SameLetter (a b : UInt8) : Prop :=
  a = b ∨ (char 'A' ≤ a ∧ a ≤ char 'Z' ∧ b = a + 32) ∨ (char 'A' ≤ b ∧ b ≤ char 'Z' ∧ a = b + 32)

instance (a b : UInt8) : Decidable (SameLetter a b) :=
  inferInstanceAs (Decidable (_ ∨ _))

/-- Two bytes are the same letter just if `tolower` does not tell them apart. -/
theorem to_lower_eq_iff (a b : UInt8) : toLower a = toLower b ↔ SameLetter a b := by
  have hfirst : char 'A' = 65 := rfl
  have hlast : char 'Z' = 90 := rfl
  rw [toLower, toLower, SameLetter, hfirst, hlast]
  grind

/-- A byte is found where it first stands. -/
theorem find_first_of_append {before after : Bytes} {c : UInt8} (h : c ∉ before) :
    findFirstOf (before ++ c :: after) c = before.length := by
  simp [findFirstOf, List.idxOf_append_of_notMem h]

end Bytes
