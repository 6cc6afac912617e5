import OpenSpy.Library.Decimal

/-!
# `OS::Address`

An address prints its IP with `inet_ntop` and reads it with `inet_addr`, which takes one to
four numbers, decimal, octal or hexadecimal, and fails with 255.255.255.255. The port is left
out: `ToString(true)` does not print it, and the constructor from such a text leaves it unset.
-/

namespace OpenSpy

open Bytes

/-- The four bytes of an IPv4 address in network order. -/
structure IPv4 where
  a : UInt8
  b : UInt8
  c : UInt8
  d : UInt8
  deriving DecidableEq, Repr

/-- `INADDR_NONE`. -/
def inaddrNone : IPv4 := ⟨255, 255, 255, 255⟩

/-- `inet_ntop(AF_INET, ..)`. -/
def inetNtop (ip : IPv4) : Bytes :=
  printNat ip.a.toNat ++ char '.' :: printNat ip.b.toNat ++ char '.' :: printNat ip.c.toNat ++
    char '.' :: printNat ip.d.toNat

/-- The text starts with `0x` and a hexadecimal digit. -/
def isHex : Bytes → Bool
  | zero :: x :: digit :: _ =>
      zero == char '0' && (x == char 'x' || x == char 'X') && digitValue digit < 16
  | _ => false

/-- `strtoul(s, &endp, 0)` of a text that starts with a digit: the value and the rest. -/
def strtoul (s : Bytes) : Nat × Bytes :=
  if isHex s then readDigits 16 0 (s.drop 2)
  else if s.head? = some (char '0') then readDigits 8 0 s
  else readDigits 10 0 s

/-- The loop of `inet_addr`, which allows `dots` more dots: the numbers before a dot and the
last one. -/
def inetParts : Nat → Bytes → Option (List Nat × Nat)
  | dots, s =>
      match s with
      | [] => none
      | c :: _ =>
          if !isDigit c then none
          else
            let (value, rest) := strtoul s
            if value > 0xffffffff then none
            else
              match rest with
              | [] => some ([], value)
              | c :: rest =>
                  if c = char '.' then
                    match dots with
                    | 0 => none
                    | dots + 1 =>
                        if value > 0xff then none
                        else (inetParts dots rest).map fun (parts, last) => (value :: parts, last)
                  else if isSpace c then some ([], value)
                  else none

/-- The address of one to three numbers with a dot behind them and a last one, which fills the
bytes that are left. -/
def inetJoin : List Nat × Nat → Option IPv4
  | ([], last) =>
      some ⟨.ofNat (last / 2 ^ 24), .ofNat (last / 2 ^ 16), .ofNat (last / 2 ^ 8), .ofNat last⟩
  | ([a], last) =>
      if last > 0xffffff then none
      else some ⟨.ofNat a, .ofNat (last / 2 ^ 16), .ofNat (last / 2 ^ 8), .ofNat last⟩
  | ([a, b], last) =>
      if last > 0xffff then none
      else some ⟨.ofNat a, .ofNat b, .ofNat (last / 2 ^ 8), .ofNat last⟩
  | ([a, b, c], last) =>
      if last > 0xff then none else some ⟨.ofNat a, .ofNat b, .ofNat c, .ofNat last⟩
  | _ => none

/-- `inet_addr(s.c_str())`. -/
def inetAddr (s : Bytes) : IPv4 :=
  ((inetParts 3 (cString s)).bind inetJoin).getD inaddrNone

/-- `Address::Address(std::string)`: what follows a colon is the port. -/
def addressOfString (input : Bytes) : IPv4 :=
  inetAddr (input.takeWhile (· ≠ char ':'))

/-- The text does not continue a decimal number, also not as a hexadecimal one. -/
def NumberEnds (rest : Bytes) : Prop :=
  NoDigit rest ∧ ∀ b ∈ rest.head?, b ≠ char 'x' ∧ b ≠ char 'X'

/-- A printed number is not taken for an octal or hexadecimal one. -/
theorem strtoul_print_nat (n : Nat) {rest : Bytes} (h : NumberEnds rest) :
    strtoul (printNat n ++ rest) = (n, rest) := by
  by_cases hn : n = 0
  · subst hn
    have hzero : printNat 0 = [char '0'] := by decide
    have hhex : isHex (char '0' :: rest) = false := by
      rcases rest with _ | ⟨b, _ | ⟨c, rest⟩⟩
      · rfl
      · rfl
      · obtain ⟨hx, hX⟩ := h.2 b (by simp)
        simp [isHex, hx, hX]
    have hvalue : digitValue (char '0') = 0 := by decide
    rw [hzero, List.singleton_append, strtoul, hhex]
    simp [readDigits, hvalue, read_digits_no_digit (show 8 ≤ 10 by omega) 0 h.1]
  · have hhead : (printNat n ++ rest).head? ≠ some (char '0') := by
      rw [List.head?_append_of_ne_nil _ (print_nat_ne_nil n)]
      exact print_nat_head (by omega)
    have hhex : isHex (printNat n ++ rest) = false := by
      cases htext : printNat n ++ rest with
      | nil => rfl
      | cons b text =>
          have hb : b ≠ char '0' := by simpa [htext] using hhead
          rcases text with _ | ⟨c, _ | ⟨d, text⟩⟩
          · rfl
          · rfl
          · simp [isHex, hb]
    rw [strtoul, hhex, if_neg (by decide), if_neg hhead, read_digits_number n h.1]

/-- A number in front of a dot. -/
theorem inet_parts_dot {n dots : Nat} (h : n ≤ 255) (rest : Bytes) :
    inetParts (dots + 1) (printNat n ++ char '.' :: rest) =
      (inetParts dots rest).map fun (parts, last) => (n :: parts, last) := by
  obtain ⟨b, tail, hcons, hb⟩ := print_nat_cons n
  have hends : NumberEnds (char '.' :: rest) := ⟨by simp [NoDigit]; decide, by simp; decide⟩
  have hread := strtoul_print_nat n hends
  rw [hcons, List.cons_append] at hread ⊢
  rw [inetParts]
  simp [hb, hread, show ¬ n > 4294967295 by omega, show ¬ 255 < n by omega]

/-- The last number, behind which nothing may follow. -/
theorem inet_parts_last {n dots : Nat} (h : n ≤ 255) :
    inetParts dots (printNat n) = some ([], n) := by
  obtain ⟨b, tail, hcons, hb⟩ := print_nat_cons n
  have hends : NumberEnds [] := ⟨by simp [NoDigit], by simp⟩
  have hread := strtoul_print_nat n hends
  rw [List.append_nil, hcons] at hread
  rw [hcons, inetParts]
  simp [hb, hread, show ¬ n > 4294967295 by omega]

/-- A byte behind the last number that is neither a dot nor white space. -/
theorem inet_parts_garbage {n dots : Nat} {c : UInt8} (rest : Bytes)
    (hc : NumberEnds (c :: rest)) (hdot : c ≠ char '.') (hspace : isSpace c = false) :
    inetParts dots (printNat n ++ c :: rest) = none := by
  obtain ⟨b, tail, hcons, hb⟩ := print_nat_cons n
  have hread := strtoul_print_nat n hc
  rw [hcons, List.cons_append] at hread ⊢
  rw [inetParts]
  simp [hb, hread, hdot, hspace]

/-- An address has digits and dots only. -/
theorem inet_ntop_chars (ip : IPv4) : ∀ b ∈ inetNtop ip, isDigit b ∨ b = char '.' := by
  intro b hb
  have hnat := fun n => print_nat_digits n b
  simp only [inetNtop, List.mem_append, List.mem_cons, or_assoc] at hb
  rcases hb with hb | rfl | hb | rfl | hb | rfl | hb
  all_goals first
    | exact .inl (hnat _ hb)
    | exact .inr rfl

theorem inet_ntop_no_nul (ip : IPv4) : ∀ b ∈ inetNtop ip, b ≠ 0 := by
  intro b hb
  rcases inet_ntop_chars ip b hb with h | rfl
  · exact (digit_facts h).2.2.2
  · decide

/-- An address that was printed is read back. -/
theorem inet_addr_inet_ntop (ip : IPv4) : inetAddr (inetNtop ip) = ip := by
  have hstring : cString (inetNtop ip) = inetNtop ip := by
    simpa [cString] using c_string_append (inet_ntop_no_nul ip) []
  have ha := ip.a.toNat_lt
  have hb := ip.b.toNat_lt
  have hc := ip.c.toNat_lt
  have hd := ip.d.toNat_lt
  rw [inetAddr, hstring, inetNtop]
  simp only [List.append_assoc, List.cons_append]
  rw [inet_parts_dot (by omega), inet_parts_dot (by omega), inet_parts_dot (by omega),
    inet_parts_last (by omega)]
  simp [inetJoin, show ¬ 255 < ip.d.toNat by omega]

/-- An address with other text behind it is no address. -/
theorem inet_addr_garbage (ip : IPv4) {c : UInt8} (rest : Bytes) (hnul : c ≠ 0)
    (hc : NumberEnds [c]) (hdot : c ≠ char '.') (hspace : isSpace c = false) :
    inetAddr (inetNtop ip ++ c :: rest) = inaddrNone := by
  have hstring : cString (inetNtop ip ++ c :: rest) = inetNtop ip ++ c :: cString rest := by
    rw [c_string_append (inet_ntop_no_nul ip), cString,
      List.takeWhile_cons_of_pos (by simpa using hnul)]
    rfl
  have ha := ip.a.toNat_lt
  have hb := ip.b.toNat_lt
  have hcc := ip.c.toNat_lt
  rw [inetAddr, hstring, inetNtop]
  simp only [List.append_assoc, List.cons_append]
  rw [inet_parts_dot (by omega), inet_parts_dot (by omega), inet_parts_dot (by omega),
    inet_parts_garbage (cString rest) ⟨by simpa [NoDigit] using hc.1, by simpa using hc.2⟩ hdot
      hspace]
  rfl

/-- Text without a colon is an address as it is. -/
theorem address_of_string_eq {input : Bytes} (h : char ':' ∉ input) :
    addressOfString input = inetAddr input := by
  have hall : input.takeWhile (· ≠ char ':') = input := by
    rw [← List.append_nil input, List.takeWhile_append_of_pos]
    · simp
    · intro b hb
      have hne : b ≠ char ':' := fun heq => h (heq ▸ hb)
      simpa using hne
  rw [addressOfString, hall]

end OpenSpy
