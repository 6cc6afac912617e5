import OpenSpy.Library.Ascii
import OpenSpy.Library.ByteTable
import OpenSpy.Library.StreamCipher

/-!
# `gsseckey`

The response to a challenge, as `gsmsalg.cpp` computes it for encryption type 0: the challenge
goes through a cipher with the game's secret key and is written with the 64 characters of
`gsvalfunc`.
-/

namespace OpenSpy

open Bytes StreamCipher

/-- `gsvalfunc`. -/
def gsvalfunc (reg : UInt8) : UInt8 :=
  if reg < 26 then reg + char 'A'
  else if reg < 52 then reg + char 'G'
  else if reg < 62 then reg - 4
  else if reg = 62 then char '+'
  else if reg = 63 then char '/'
  else 0

/-- The body of the second loop of `gsseckey`. -/
def seckeySwap (key : Bytes) (state : ByteTable × UInt8) (i : Nat) : ByteTable × UInt8 :=
  let (enctmp, a) := state
  let a := a + (enctmp.byte (UInt8.ofNat i) + key.getD (i % key.length) 0)
  let x := enctmp.byte a
  ((enctmp.set a (enctmp.byte (UInt8.ofNat i))).set (UInt8.ofNat i) x, a)

/-- The body of the loop of `gsseckey` over the challenge. -/
def seckeyByte (state : ByteTable × UInt8 × UInt8) (src : UInt8) :
    UInt8 × ByteTable × UInt8 × UInt8 :=
  let (enctmp, a, b) := state
  let a := a + (src + 1)
  let x := enctmp.byte a
  let b := b + x
  let y := enctmp.byte b
  let enctmp := (enctmp.set b x).set a y
  (src ^^^ enctmp.byte (x + y), enctmp, a, b)

/-- Zeros up to a multiple of three bytes. -/
def seckeyPad (tmp : Bytes) : Bytes :=
  tmp ++ List.replicate ((3 - tmp.length % 3) % 3) 0

/-- The last loop of `gsseckey`: four characters for three bytes. -/
def seckeyChars : Bytes → Bytes
  | x :: y :: z :: rest =>
      gsvalfunc (x >>> 2) :: gsvalfunc (((x &&& 3) <<< 4) ||| (y >>> 4)) ::
        gsvalfunc (((y &&& 15) <<< 2) ||| (z >>> 6)) :: gsvalfunc (z &&& 63) :: seckeyChars rest
  | _ => []

/-- `gsseckey(dst, src, key, 0)`. -/
def gsseckey (src key : Bytes) : Bytes :=
  if src.length < 1 ∨ 65 < src.length then []
  else
    let enctmp := (List.range 256).foldl (seckeySwap key) (.ofFn (·), 0)
    seckeyChars (seckeyPad (run seckeyByte (enctmp.1, 0, 0) src).1)

/-- `strip_quotes`. -/
def stripQuotes (s : Bytes) : Bytes :=
  if s.head? ≠ some (char '"') ∨ s.getLast? ≠ some (char '"') then s
  else (s.drop 1).take (s.length - 2)

/-- A text without quotes stays as it is. -/
theorem strip_quotes_eq_self {s : Bytes} (h : char '"' ∉ s) : stripQuotes s = s := by
  refine if_pos (Or.inl fun hhead => h ?_)
  exact List.mem_of_mem_head? (by simp [hhead])

/-- No character of a response is a quote. -/
theorem gsvalfunc_ne_quote (reg : UInt8) : gsvalfunc reg ≠ char '"' := by
  have : ∀ n : Fin 256, gsvalfunc (UInt8.ofNat n) ≠ char '"' := by decide +kernel
  simpa using this ⟨reg.toNat, reg.toNat_lt⟩

theorem seckey_chars_no_quote (tmp : Bytes) : char '"' ∉ seckeyChars tmp := by
  fun_induction seckeyChars tmp with
  | case1 x y z rest ih => simp [ih, (gsvalfunc_ne_quote _).symm]
  | case2 => simp

/-- A response has no quotes. -/
theorem gsseckey_no_quote (src key : Bytes) : char '"' ∉ gsseckey src key := by
  unfold gsseckey
  split
  · simp
  · exact seckey_chars_no_quote _

end OpenSpy
