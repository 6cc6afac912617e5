import Mathlib.Data.List.TakeWhile
import OpenSpy.Library.Ascii
import OpenSpy.Library.MachineInt

/-!
# Decimal numbers in text

`printNat` and `printInt` are what an `ostream` or `printf` writes for an integer. `atoi`
reads one as the C library does: leading white space, a sign, and the digits up to the first
other byte, clamped to a `long` and converted to `int`.
-/

namespace Bytes

open MachineInt

/-- The digits of a natural number. -/
def printNat (n : Nat) : Bytes :=
  (Nat.toDigits 10 n).map char

/-- An integer, with a sign if it is negative. -/
def printInt (n : Int) : Bytes :=
  if n < 0 then char '-' :: printNat n.natAbs else printNat n.natAbs

/-- `isdigit`. -/
def isDigit (b : UInt8) : Bool :=
  48 ≤ b && b ≤ 57

/-- The value of a digit in a base up to 36, or 36 for another byte. -/
def digitValue (b : UInt8) : Nat :=
  if isDigit b then b.toNat - 48
  else if 97 ≤ b && b ≤ 122 then b.toNat - 87
  else if 65 ≤ b && b ≤ 90 then b.toNat - 55
  else 36

/-- The digits at the front, read behind a number: its value and the rest of the text. -/
def readDigits (base : Nat) : Nat → Bytes → Nat × Bytes
  | value, [] => (value, [])
  | value, b :: rest =>
      if digitValue b < base then readDigits base (value * base + digitValue b) rest
      else (value, b :: rest)

/-- The sign and the digits of `strtol`. -/
def signedValue : Bytes → Int
  | [] => 0
  | b :: rest =>
      if b = char '-' then -(readDigits 10 0 rest).1
      else if b = char '+' then (readDigits 10 0 rest).1
      else (readDigits 10 0 (b :: rest)).1

/-- `strtol(s, NULL, 10)` with a 64-bit `long`. -/
def strtol (s : Bytes) : Int :=
  max (-2 ^ 63) (min (2 ^ 63 - 1) (signedValue (s.dropWhile isSpace)))

/-- The text of a C string: what comes before the first NUL. -/
def cString (s : Bytes) : Bytes :=
  s.takeWhile (· ≠ 0)

/-- `atoi(s.c_str())`. -/
def atoi (s : Bytes) : Int :=
  int32 (strtol (cString s))

/-- The number that a text of decimal digits denotes. -/
def decimalValue (digits : Bytes) : Nat :=
  digits.foldl (fun value b => value * 10 + digitValue b) 0

/-- The text does not start with a decimal digit. -/
def NoDigit (rest : Bytes) : Prop :=
  ∀ b ∈ rest.head?, isDigit b = false

/-- A C string goes on behind bytes that are not NUL. -/
theorem c_string_append {s : Bytes} (h : ∀ b ∈ s, b ≠ 0) (rest : Bytes) :
    cString (s ++ rest) = s ++ cString rest :=
  List.takeWhile_append_of_pos (by simpa using h)

/-- A text without a NUL is a C string. -/
theorem c_string_eq_self {s : Bytes} (h : 0 ∉ s) : cString s = s := by
  have hstring := c_string_append (fun b hb h0 => h (h0 ▸ hb)) ([] : Bytes)
  simpa [cString] using hstring

/-- A C string ends at the first NUL. -/
theorem c_string_terminated {s : Bytes} (h : 0 ∉ s) (rest : Bytes) :
    cString (s ++ 0 :: rest) = s := by
  rw [c_string_append fun b hb h0 => h (h0 ▸ hb)]
  simp [cString]

/-- A C string has no NUL left. -/
theorem zero_not_mem_c_string (s : Bytes) : 0 ∉ cString s := by
  intro hmem
  simpa using List.mem_takeWhile_imp hmem

theorem c_string_c_string (s : Bytes) : cString (cString s) = cString s :=
  List.takeWhile_idem

theorem digit_char {d : Nat} (h : d < 10) :
    isDigit (char d.digitChar) ∧ digitValue (char d.digitChar) = d := by
  have : ∀ d : Fin 10, isDigit (char d.val.digitChar) ∧ digitValue (char d.val.digitChar) = d := by
    decide
  exact this ⟨d, h⟩

/-- A byte has a value below ten exactly if it is a decimal digit. -/
theorem digit_value_lt_ten (b : UInt8) : digitValue b < 10 ↔ isDigit b = true := by
  have hb := b.toNat_lt
  simp only [digitValue, isDigit, UInt8.le_iff_toNat_le, Bool.and_eq_true, decide_eq_true_eq]
  simp only [UInt8.toNat_ofNat]
  split_ifs <;> omega

/-- The last digit of a number. -/
theorem print_nat_eq (n : Nat) :
    printNat n =
      if n < 10 then [char n.digitChar] else printNat (n / 10) ++ [char (n % 10).digitChar] := by
  unfold printNat
  rw [Nat.toDigits_eq_if (by omega)]
  split_ifs <;> simp

theorem print_nat_ne_nil (n : Nat) : printNat n ≠ [] := by
  rw [print_nat_eq]
  split_ifs <;> simp

/-- A number is made of digits. -/
theorem print_nat_digits (n : Nat) : ∀ b ∈ printNat n, isDigit b := by
  induction n using Nat.strong_induction_on with
  | _ n ih =>
      rw [print_nat_eq]
      split_ifs with hn
      · simpa using (digit_char hn).1
      · intro b hb
        rcases List.mem_append.mp hb with hb | hb
        · exact ih (n / 10) (by omega) b hb
        · rw [List.mem_singleton.mp hb]
          exact (digit_char (Nat.mod_lt n (by omega))).1

/-- Only zero is printed with a zero in front. -/
theorem print_nat_head {n : Nat} (h : 0 < n) : (printNat n).head? ≠ some (char '0') := by
  induction n using Nat.strong_induction_on with
  | _ n ih =>
      rw [print_nat_eq]
      split_ifs with hn
      · intro heq
        have hvalue := (digit_char hn).2
        rw [Option.some.inj heq] at hvalue
        have hzero : digitValue (char '0') = 0 := by decide
        omega
      · rw [List.head?_append_of_ne_nil _ (print_nat_ne_nil _)]
        exact ih (n / 10) (by omega) (by omega)

/-- Reading a number stops where its digits end. -/
theorem read_digits_no_digit {base : Nat} (hbase : base ≤ 10) (value : Nat) {rest : Bytes}
    (h : NoDigit rest) : readDigits base value rest = (value, rest) := by
  cases rest with
  | nil => rfl
  | cons b rest =>
      have hb : ¬ digitValue b < 10 := by
        rw [digit_value_lt_ten, h b (by simp)]
        decide
      rw [readDigits, if_neg (by omega)]

/-- The digits of a number are read as the number, behind what was read before. -/
theorem read_digits_print (value n : Nat) (rest : Bytes) :
    readDigits 10 value (printNat n ++ rest) =
      readDigits 10 (value * 10 ^ (printNat n).length + n) rest := by
  induction n using Nat.strong_induction_on generalizing rest with
  | _ n ih =>
      rw [print_nat_eq]
      split_ifs with hn
      · obtain ⟨-, hvalue⟩ := digit_char hn
        simp [readDigits, hvalue, hn]
      · have hlast := Nat.mod_lt n (show 10 > 0 by omega)
        obtain ⟨-, hvalue⟩ := digit_char hlast
        rw [List.append_assoc, ih (n / 10) (by omega)]
        simp only [List.singleton_append, readDigits, hvalue, hlast, if_true, List.length_append,
          List.length_singleton, Nat.pow_succ]
        congr 1
        rw [Nat.add_mul, Nat.mul_assoc, Nat.add_assoc, Nat.div_add_mod']

/-- The digits of a number in front of another byte are read as the number. -/
theorem read_digits_number (n : Nat) {rest : Bytes} (h : NoDigit rest) :
    readDigits 10 0 (printNat n ++ rest) = (n, rest) := by
  rw [read_digits_print, Nat.zero_mul, Nat.zero_add, read_digits_no_digit le_rfl n h]

/-- A number starts with a digit. -/
theorem print_nat_cons (n : Nat) :
    ∃ b rest, printNat n = b :: rest ∧ isDigit b = true := by
  obtain ⟨b, rest, h⟩ := List.exists_cons_of_ne_nil (print_nat_ne_nil n)
  exact ⟨b, rest, h, print_nat_digits n b (by simp [h])⟩

/-- A digit is no white space, no sign and not NUL. -/
theorem digit_facts {b : UInt8} (h : isDigit b = true) :
    isSpace b = false ∧ b ≠ char '-' ∧ b ≠ char '+' ∧ b ≠ 0 := by
  have hlow : 48 ≤ b.toNat := by
    simp only [isDigit, UInt8.le_iff_toNat_le, Bool.and_eq_true, decide_eq_true_eq] at h
    simpa using h.1
  refine ⟨?_, ?_, ?_, ?_⟩
  · have hblank : b ≠ 32 := by
      rintro rfl
      exact absurd h (by decide)
    simp [isSpace, UInt8.le_iff_toNat_le, hblank]
    omega
  all_goals
    rintro rfl
    exact absurd h (by decide)

/-- A natural number is read back. -/
theorem signed_value_print_nat (n : Nat) {rest : Bytes} (h : NoDigit rest) :
    signedValue (printNat n ++ rest) = n := by
  obtain ⟨b, tail, hcons, hb⟩ := print_nat_cons n
  obtain ⟨-, hminus, hplus, -⟩ := digit_facts hb
  have hread := read_digits_number n h
  rw [hcons, List.cons_append] at hread ⊢
  rw [signedValue, if_neg hminus, if_neg hplus, hread]

/-- An integer is read back. -/
theorem signed_value_print_int (n : Int) {rest : Bytes} (h : NoDigit rest) :
    signedValue (printInt n ++ rest) = n := by
  unfold printInt
  split_ifs with hn
  · rw [List.cons_append, signedValue, if_pos rfl, read_digits_number _ h]
    simp only
    omega
  · rw [signed_value_print_nat _ h]
    omega

/-- Numbers have different texts. -/
theorem print_nat_injective : Function.Injective printNat := by
  intro m n h
  have hdigit : NoDigit [] := by simp [NoDigit]
  have hm := signed_value_print_nat m hdigit
  rw [h, signed_value_print_nat n hdigit] at hm
  exact_mod_cast hm.symm

/-- Integers have different texts. -/
theorem print_int_injective : Function.Injective printInt := by
  intro m n h
  have hdigit : NoDigit [] := by simp [NoDigit]
  have hm := signed_value_print_int m hdigit
  rw [h, signed_value_print_int n hdigit] at hm
  exact hm.symm

/-- An integer starts neither with white space nor with NUL. -/
theorem print_int_cons (n : Int) :
    ∃ b rest, printInt n = b :: rest ∧ isSpace b = false := by
  unfold printInt
  split_ifs
  · exact ⟨_, _, rfl, by decide⟩
  · obtain ⟨b, rest, h, hb⟩ := print_nat_cons n.natAbs
    exact ⟨b, rest, h, (digit_facts hb).1⟩

/-- An integer is made of digits and a sign. -/
theorem print_int_chars (n : Int) : ∀ b ∈ printInt n, isDigit b ∨ b = char '-' := by
  intro b hb
  unfold printInt at hb
  split_ifs at hb
  · rcases List.mem_cons.mp hb with rfl | hb
    · exact .inr rfl
    · exact .inl (print_nat_digits _ b hb)
  · exact .inl (print_nat_digits _ b hb)

theorem print_int_no_nul (n : Int) : ∀ b ∈ printInt n, b ≠ 0 := by
  intro b hb
  rcases print_int_chars n b hb with h | rfl
  · exact (digit_facts h).2.2.2
  · decide

/-- Other bytes than digits and the sign do not come up in an integer. -/
theorem print_int_not_mem {b : UInt8} (hdigit : isDigit b = false) (hsign : b ≠ char '-')
    (n : Int) : b ∉ printInt n := by
  intro h
  rcases print_int_chars n b h with hchar | hchar
  · rw [hdigit] at hchar
    cases hchar
  · exact hsign hchar

/-- A printed integer is a C string. -/
theorem c_string_print_int (n : Int) : cString (printInt n) = printInt n :=
  c_string_eq_self (print_int_not_mem (by decide) (by decide) n)

/-- `atoi` reads back what was printed for an `int`, also in front of other text. -/
theorem atoi_print_int {n : Int} (hlow : -2 ^ 31 ≤ n) (hhigh : n < 2 ^ 31) {rest : Bytes}
    (h : NoDigit rest) : atoi (printInt n ++ rest) = n := by
  have hrest : NoDigit (cString rest) := by
    cases rest with
    | nil => simpa [cString] using h
    | cons b rest =>
        by_cases hb : b = 0
        · simp [cString, hb, NoDigit]
        · intro c hc
          simp [cString, hb] at hc
          exact h c (by simp [hc])
  have hstring := c_string_append (print_int_no_nul n) rest
  obtain ⟨b, tail, hcons, hspace⟩ := print_int_cons n
  have hdrop : (printInt n ++ cString rest).dropWhile isSpace = printInt n ++ cString rest := by
    rw [hcons, List.cons_append, List.dropWhile_cons_of_neg (by simp [hspace])]
  rw [atoi, hstring, strtol, hdrop, signed_value_print_int n hrest,
    int32_eq_self (by omega) (by omega)]
  omega

theorem atoi_print_int_self {n : Int} (hlow : -2 ^ 31 ≤ n) (hhigh : n < 2 ^ 31) :
    atoi (printInt n) = n := by
  have hread : atoi (printInt n ++ []) = n := atoi_print_int hlow hhigh (by simp [NoDigit])
  rwa [List.append_nil] at hread

/-- `atoi` returns an `int`. -/
theorem neg_two_pow_le_atoi (s : Bytes) : -2 ^ 31 ≤ atoi s :=
  (int32_range (strtol (cString s))).1

theorem atoi_lt_two_pow (s : Bytes) : atoi s < 2 ^ 31 :=
  (int32_range (strtol (cString s))).2

/-- A byte that neither continues nor starts a number. -/
def stopsNumber (c : UInt8) : Bool :=
  !isDigit c && !isSpace c && c != char '-' && c != char '+' && c != 0

theorem read_digits_stop {c : UInt8} (hc : stopsNumber c) (value : Nat) (s rest : Bytes) :
    (readDigits 10 value (s ++ c :: rest)).1 = (readDigits 10 value s).1 := by
  simp only [stopsNumber, Bool.and_eq_true, Bool.not_eq_true'] at hc
  induction s generalizing value with
  | nil =>
      rw [List.nil_append,
        read_digits_no_digit le_rfl value (by simpa [NoDigit] using hc.1.1.1.1)]
      rfl
  | cons b s ih =>
      rw [List.cons_append, readDigits, readDigits]
      split_ifs
      · exact ih _
      · rfl

/-- `atoi` does not look behind a byte that stops a number. -/
theorem atoi_stop {c : UInt8} (hc : stopsNumber c) (s rest : Bytes) :
    atoi (s ++ c :: rest) = atoi s := by
  have hparts := hc
  simp only [stopsNumber, Bool.and_eq_true, Bool.not_eq_true', bne_iff_ne] at hparts
  obtain ⟨⟨⟨⟨hdigit, hspace⟩, hminus⟩, hplus⟩, hnul⟩ := hparts
  have hsigned : ∀ s rest, signedValue (s ++ c :: rest) = signedValue s := by
    intro s rest
    cases s with
    | nil =>
        have hread : signedValue (c :: rest) = (readDigits 10 0 (c :: rest)).1 := by
          rw [signedValue, if_neg hminus, if_neg hplus]
        rw [List.nil_append, hread,
          read_digits_no_digit le_rfl 0 (by simpa [NoDigit] using hdigit)]
        rfl
    | cons b s =>
        have hstop := read_digits_stop hc 0 (b :: s) rest
        rw [List.cons_append] at hstop
        rw [List.cons_append, signedValue, signedValue, read_digits_stop hc, hstop]
  have hblank : ∀ s rest, signedValue ((s ++ c :: rest).dropWhile isSpace) =
      signedValue (s.dropWhile isSpace) := by
    intro s rest
    induction s with
    | nil =>
        rw [List.nil_append, List.dropWhile_cons_of_neg (by simp [hspace])]
        exact hsigned [] rest
    | cons b s ih =>
        by_cases hb : isSpace b
        · rw [List.cons_append, List.dropWhile_cons_of_pos hb, List.dropWhile_cons_of_pos hb, ih]
        · rw [List.cons_append, List.dropWhile_cons_of_neg hb, List.dropWhile_cons_of_neg hb,
            ← List.cons_append, hsigned]
  unfold atoi strtol
  by_cases hzero : 0 ∈ s
  · obtain ⟨before, after, rfl, hnone⟩ := List.eq_append_cons_of_mem hzero
    have hbefore : ∀ b ∈ before, b ≠ 0 := fun b hb h => hnone (h ▸ hb)
    rw [List.append_assoc, c_string_append hbefore, c_string_append hbefore]
    simp [cString]
  · have hclean : ∀ b ∈ s, b ≠ 0 := fun b hb h => hzero (h ▸ hb)
    have hself : cString s = s := by simpa [cString] using c_string_append hclean []
    rw [c_string_append hclean, hself, cString, List.takeWhile_cons_of_pos (by simpa using hnul),
      hblank]

section Digits

variable {digits : Bytes} (h : ∀ b ∈ digits, isDigit b)

include h

theorem read_digits_all (value : Nat) :
    readDigits 10 value digits =
      (digits.foldl (fun value b => value * 10 + digitValue b) value, []) := by
  induction digits generalizing value with
  | nil => rfl
  | cons b digits ih =>
      have hb : digitValue b < 10 := (digit_value_lt_ten b).mpr (h b List.mem_cons_self)
      rw [readDigits, if_pos hb, List.foldl_cons]
      exact ih (fun c hc => h c (List.mem_cons_of_mem _ hc)) _

theorem signed_value_digits : signedValue digits = decimalValue digits := by
  cases digits with
  | nil => rfl
  | cons b rest =>
      obtain ⟨-, hminus, hplus, -⟩ := digit_facts (h b List.mem_cons_self)
      rw [signedValue, if_neg hminus, if_neg hplus, read_digits_all h]
      rfl

/-- `atoi` of a text of digits, which is 0 for the empty text. -/
theorem atoi_digits : atoi digits = int32 (min (2 ^ 63 - 1) (decimalValue digits)) := by
  have hnul : 0 ∉ digits := fun hmem => (digit_facts (h 0 hmem)).2.2.2 rfl
  have hdrop : digits.dropWhile isSpace = digits := by
    cases digits with
    | nil => rfl
    | cons b rest =>
        rw [List.dropWhile_cons_of_neg]
        simp [(digit_facts (h b List.mem_cons_self)).1]
  rw [atoi, c_string_eq_self hnul, strtol, hdrop, signed_value_digits h]
  congr 1
  omega

/-- A text of digits is read as its number just if that is an `int`. -/
theorem atoi_digits_eq_iff : atoi digits = decimalValue digits ↔ decimalValue digits < 2 ^ 31 := by
  rw [atoi_digits h]
  constructor
  · intro heq
    have hbound := atoi_lt_two_pow digits
    rw [atoi_digits h] at hbound
    omega
  · intro hlt
    rw [int32_eq_self (by omega) (by omega)]
    omega

end Digits

end Bytes
