import OpenSpy.Library.Decimal

/-!
# String helpers of the core library

`KeyStringToVector` and `strip_whitespace` of `OS/OpenSpy.cpp`, and the comparison of C strings.
-/

namespace OpenSpy

open Bytes

/-- The tokens `std::getline(ss, token, delim)` returns until the stream ends. A trailing
token is returned only if it is not empty. -/
def getlines (delim : UInt8) : Bytes → List Bytes
  | [] => []
  | b :: rest =>
      if b = delim then [] :: getlines delim rest
      else
        match getlines delim rest with
        | [] => [[b]]
        | token :: tokens => (b :: token) :: tokens

/-- `KeyStringToVector(input, false, delimator)`: the tokens without the empty ones. Every
caller leaves `skip_null` at false. -/
def keyStringToVector (input : Bytes) (delimator : UInt8) : List Bytes :=
  (getlines delimator input).filter (· ≠ [])

/-- `strip_whitespace(s)`: all white space except blanks is dropped. -/
def stripWhitespace (s : Bytes) : Bytes :=
  s.filter fun ch => !(isSpace ch && ch != char ' ')

/-- `stricmp` finds no difference. -/
def sameText (a b : Bytes) : Bool :=
  (cString a).map toLower == (cString b).map toLower

/-- A line with its delimiter is one token. -/
theorem getlines_line {delim : UInt8} {line : Bytes} (h : delim ∉ line) :
    getlines delim (line ++ [delim]) = [line] := by
  induction line with
  | nil => simp [getlines]
  | cons b rest ih =>
      obtain ⟨hb, hrest⟩ : delim ≠ b ∧ delim ∉ rest := by simpa using h
      simp [getlines, ih hrest, Ne.symm hb]

/-- A line with its delimiter is one token of the vector, or none if it is empty. -/
theorem key_string_to_vector_line {delim : UInt8} {line : Bytes} (h : delim ∉ line) :
    keyStringToVector (line ++ [delim]) delim = if line = [] then [] else [line] := by
  by_cases hline : line = []
  · simp [hline, keyStringToVector, getlines]
  · simp [hline, keyStringToVector, getlines_line h]

/-- A token in front of a delimiter. -/
theorem getlines_token {delim : UInt8} {token : Bytes} (h : delim ∉ token) (rest : Bytes) :
    getlines delim (token ++ delim :: rest) = token :: getlines delim rest := by
  induction token with
  | nil => simp [getlines]
  | cons b token ih =>
      obtain ⟨hb, htoken⟩ : delim ≠ b ∧ delim ∉ token := by simpa using h
      simp [getlines, ih htoken, Ne.symm hb]

/-- A last token without a delimiter. -/
theorem getlines_last {delim : UInt8} {token : Bytes} (h : delim ∉ token) (hne : token ≠ []) :
    getlines delim token = [token] := by
  induction token with
  | nil => exact absurd rfl hne
  | cons b token ih =>
      obtain ⟨hb, htoken⟩ : delim ≠ b ∧ delim ∉ token := by simpa using h
      by_cases hempty : token = []
      · subst hempty
        simp [getlines, Ne.symm hb]
      · simp [getlines, ih htoken hempty, Ne.symm hb]

/-- A word is not empty and has no delimiter in it. -/
def IsWord (delim : UInt8) (word : Bytes) : Prop :=
  word ≠ [] ∧ delim ∉ word

/-- A word in front of a delimiter is the first of the vector. -/
theorem key_string_to_vector_cons {delim : UInt8} {word : Bytes} (h : IsWord delim word)
    (rest : Bytes) :
    keyStringToVector (word ++ delim :: rest) delim = word :: keyStringToVector rest delim := by
  simp [keyStringToVector, getlines_token h.2, h.1]

/-- A word alone. -/
theorem key_string_to_vector_word {delim : UInt8} {word : Bytes} (h : IsWord delim word) :
    keyStringToVector word delim = [word] := by
  simp [keyStringToVector, getlines_last h.2 h.1, h.1]

/-- A delimiter in front makes no word. -/
theorem key_string_to_vector_delim (delim : UInt8) (rest : Bytes) :
    keyStringToVector (delim :: rest) delim = keyStringToVector rest delim := by
  simp [keyStringToVector, getlines]

/-- A text that begins with something else has a word. -/
theorem key_string_to_vector_ne_nil {delim b : UInt8} (h : b ≠ delim) (rest : Bytes) :
    keyStringToVector (b :: rest) delim ≠ [] := by
  rw [keyStringToVector, getlines, if_neg h]
  cases getlines delim rest <;> simp

end OpenSpy
