import OpenSpy.ServerBrowsing.Filter

/-!
# Comparisons in filters

The two sides of a comparison are variables, integer literals or string literals. The text of a
variable is the C string in the key map. A value of digits is kept as an `int` only, and an empty
one as 0; next to a string both are compared by the text of that `int`.

`comparisons_mean_iff` says that `=` means equality of the texts, or of the numbers that they
are, exactly if nothing is lost so (`Kind.Kept`). The laws between the operators hold for all
operands.
-/

namespace OpenSpy.ServerBrowsing

open Bytes MachineInt

/-- A text of one or more decimal digits. -/
def IsDecimal (text : Bytes) : Prop :=
  text ≠ [] ∧ ∀ b ∈ text, isDigit b

/-- A side of a comparison as it is written in the filter. -/
inductive Comparand where
  | var (name : Bytes)
  | integer (digits : Bytes) (h : IsDecimal digits)
  | string (text : Bytes)

namespace Comparand

/-- The token that `filterToTokenList` makes of it. -/
def token : Comparand → CToken
  | var name => .var name
  | integer digits _ => .integer (atoi digits)
  | string text => .string text

/-- Its text. -/
def text (kvList : Fields) : Comparand → Bytes
  | var name => cString (kvList.read (cString name))
  | integer digits _ => digits
  | string text => text

/-- It is a number: a string literal is none, whatever its text. -/
def IsNumber (kvList : Fields) (x : Comparand) : Prop :=
  match x with
  | var _ => IsDecimal (x.text kvList)
  | integer _ _ => True
  | string _ => False

/-- What is on the operand stack for it. -/
def resolve (kvList : Fields) : Comparand → CToken
  | var name => resolveVariable (kvList.read (cString name))
  | integer digits _ => .integer (atoi digits)
  | string text => .string text

end Comparand

/-- The filter `x type y` holds for the fields. -/
def Holds (type : Operator) (kvList : Fields) (x y : Comparand) : Prop :=
  (evaluate [x.token, y.token, .operator type] kvList).map Prod.fst = some true

/-- The texts of both sides are equal, or both are numbers and equal. -/
def SameValue (kvList : Fields) (x y : Comparand) : Prop :=
  x.text kvList = y.text kvList ∨
    x.IsNumber kvList ∧ y.IsNumber kvList ∧
      decimalValue (x.text kvList) = decimalValue (y.text kvList)

/-- The kinds of operands. -/
inductive Kind where
  | number (digits : Bytes) (h : IsDecimal digits)
  | empty
  | word (text : Bytes)

namespace Kind

def text : Kind → Bytes
  | number digits _ => digits
  | empty => []
  | word text => text

/-- The text that is left of it on the operand stack. -/
def kept : Kind → Bytes
  | number digits _ => printInt (atoi digits)
  | empty => ascii "0"
  | word text => text

def IsNumber : Kind → Prop
  | number _ _ => True
  | _ => False

/-- Nothing is lost that makes a difference next to the other operand: two numbers stay different
as `int`s, a number is not 0 next to an empty value, a string next to a number is neither the
text of the number nor that of its `int` unless they are the same, and a string next to an empty
value is neither empty nor a zero. -/
def Kept : Kind → Kind → Prop
  | number digits _, number digits' _ =>
      atoi digits = atoi digits' → decimalValue digits = decimalValue digits'
  | number digits _, empty | empty, number digits _ => atoi digits ≠ 0
  | number digits _, word text | word text, number digits _ =>
      printInt (atoi digits) = digits ∨ text ≠ digits ∧ text ≠ printInt (atoi digits)
  | empty, word text | word text, empty => text ≠ [] ∧ text ≠ ascii "0"
  | empty, empty | word _, word _ => True

end Kind

instance (text : Bytes) : Decidable (IsDecimal text) :=
  inferInstanceAs (Decidable (_ ∧ _))

/-- The kind of an operand. -/
def Comparand.kind (kvList : Fields) : Comparand → Kind
  | var name =>
      let value := cString (kvList.read (cString name))
      if h : IsDecimal value then .number value h
      else if value = [] then .empty
      else .word value
  | integer digits h => .number digits h
  | string text => .word text

section Operands

variable (kvList : Fields) (x y : Comparand)

/-- The cases of a variable, by the text it has. -/
theorem resolve_variable_cases (value : Bytes) :
    IsDecimal (cString value) ∧ resolveVariable value = .integer (atoi (cString value)) ∨
      cString value = [] ∧ resolveVariable value = .integer 0 ∨
        ¬ IsDecimal (cString value) ∧ cString value ≠ [] ∧
          resolveVariable value = .string (cString value) := by
  by_cases hempty : cString value = []
  · refine .inr (.inl ⟨hempty, ?_⟩)
    rw [resolveVariable, hempty]
    rfl
  · by_cases hdigits : ∀ b ∈ cString value, isDigit b
    · refine .inl ⟨⟨hempty, hdigits⟩, ?_⟩
      simp only [resolveVariable, List.all_eq_true.mpr hdigits, if_true]
    · refine .inr (.inr ⟨fun h => hdigits h.2, hempty, ?_⟩)
      have hall : (cString value).all isDigit ≠ true := fun h => hdigits (List.all_eq_true.mp h)
      simp only [resolveVariable, hall, List.length_pos_iff.mpr hempty]
      rfl

theorem kind_text : (x.kind kvList).text = x.text kvList := by
  cases x with
  | var name =>
      simp only [Comparand.kind, Comparand.text]
      split_ifs with hnumber hempty
      · rfl
      · exact hempty.symm
      · rfl
  | integer digits h => rfl
  | string text => rfl

theorem kind_is_number : (x.kind kvList).IsNumber ↔ x.IsNumber kvList := by
  cases x with
  | var name =>
      simp only [Comparand.kind, Comparand.IsNumber, Comparand.text]
      split_ifs with hnumber hempty
      · simp [Kind.IsNumber, hnumber]
      · simp [Kind.IsNumber, hnumber]
      · simp [Kind.IsNumber, hnumber]
  | integer digits h => exact Iff.rfl
  | string text => exact Iff.rfl

/-- A comparison by text reads what is left of the operand. -/
theorem kind_kept : (x.kind kvList).kept = tokenToString (x.resolve kvList) := by
  cases x with
  | var name =>
      have hcases := resolve_variable_cases (kvList.read (cString name))
      simp only [Comparand.kind, Comparand.resolve]
      rcases hcases with ⟨hnumber, htoken⟩ | ⟨hempty, htoken⟩ | ⟨hnumber, hempty, htoken⟩
      · rw [dif_pos hnumber, htoken]
        rfl
      · have hnone : ¬ IsDecimal (cString (kvList.read (cString name))) := fun h => h.1 hempty
        rw [dif_neg hnone, if_pos hempty, htoken]
        rfl
      · rw [dif_neg hnumber, if_neg hempty, htoken]
        rfl
  | integer digits h => rfl
  | string text => rfl

/-- An operand is on the stack as an integer or as a string. -/
theorem resolve_cases :
    (∃ value, x.resolve kvList = .integer value) ∨ ∃ text, x.resolve kvList = .string text := by
  cases x with
  | var name =>
      rcases resolve_variable_cases (kvList.read (cString name)) with
        ⟨-, htoken⟩ | ⟨-, htoken⟩ | ⟨-, -, htoken⟩
      · exact .inl ⟨_, htoken⟩
      · exact .inl ⟨_, htoken⟩
      · exact .inr ⟨_, htoken⟩
  | integer digits h => exact .inl ⟨_, rfl⟩
  | string text => exact .inr ⟨_, rfl⟩

/-- An operator is applied to the operands as they are on the stack. -/
theorem holds_iff (type : Operator) :
    Holds type kvList x y ↔
      (applyOperator type [y.resolve kvList, x.resolve kvList]).map
        (fun ret => topIsTrue (ret.1 :: ret.2)) = some true := by
  have hpush (z : Comparand) (stack : List CToken) :
      evalStack kvList.read stack z.token = some (z.resolve kvList :: stack) := by
    cases z <;> rfl
  rw [Holds, evaluate_eq]
  simp only [List.foldlM_cons, List.foldlM_nil, hpush, Option.bind_eq_bind, Option.bind_some]
  simp [evalStack, Option.map_map, Function.comp_def]

/-- `=` compares what is left of the texts. -/
theorem equals_iff : Holds .equals kvList x y ↔ (x.kind kvList).kept = (y.kind kvList).kept := by
  rw [holds_iff, kind_kept, kind_kept]
  rcases resolve_cases kvList x with ⟨l, hl⟩ | ⟨l, hl⟩ <;>
    rcases resolve_cases kvList y with ⟨r, hr⟩ | ⟨r, hr⟩
  · simp [hl, hr, applyOperator, booleanOperation, tokenToString, CToken.ofBool, topIsTrue,
      print_int_injective.eq_iff]
  all_goals
    simp [hl, hr, applyOperator, booleanOperation, isString, CToken.ofBool, topIsTrue]
    exact eq_comm

/-- `<>` is the negation of `=`. -/
theorem not_equals_iff : Holds .notEquals kvList x y ↔ ¬ Holds .equals kvList x y := by
  rw [holds_iff, holds_iff]
  rcases resolve_cases kvList x with ⟨l, hl⟩ | ⟨l, hl⟩ <;>
    rcases resolve_cases kvList y with ⟨r, hr⟩ | ⟨r, hr⟩
  all_goals
    simp [hl, hr, applyOperator, booleanOperation, isString, CToken.ofBool, topIsTrue]

/-- `>=` is `<=` with its sides changed. -/
theorem greater_equals_iff : Holds .greaterEquals kvList x y ↔ Holds .lessEquals kvList y x := by
  rw [holds_iff, holds_iff]
  rcases resolve_cases kvList x with ⟨l, hl⟩ | ⟨l, hl⟩ <;>
    rcases resolve_cases kvList y with ⟨r, hr⟩ | ⟨r, hr⟩
  all_goals
    simp [hl, hr, applyOperator, booleanOperation, isString, CToken.ofBool, topIsTrue]

/-- `>=` holds one way or the other. -/
theorem greater_equals_total :
    Holds .greaterEquals kvList x y ∨ Holds .greaterEquals kvList y x := by
  rw [holds_iff, holds_iff]
  rcases resolve_cases kvList x with ⟨l, hl⟩ | ⟨l, hl⟩ <;>
    rcases resolve_cases kvList y with ⟨r, hr⟩ | ⟨r, hr⟩
  all_goals
    simp [hl, hr, applyOperator, booleanOperation, isString, CToken.ofBool, topIsTrue]
    omega

end Operands

namespace Kind

/-- Equality of what is left is equality of the values just if nothing is lost. -/
theorem kept_iff (k k' : Kind) :
    (k.kept = k'.kept ↔
        k.text = k'.text ∨
          k.IsNumber ∧ k'.IsNumber ∧ decimalValue k.text = decimalValue k'.text) ↔
      k.Kept k' := by
  have hzero (value : Int) : printInt value = ascii "0" ↔ value = 0 := by
    rw [← print_int_injective.eq_iff (b := 0)]
    rfl
  cases k with
  | number digits h =>
      cases k' with
      | number digits' h' =>
          have hvalue : decimalValue digits = decimalValue digits' → atoi digits = atoi digits' := by
            intro heq
            rw [atoi_digits h.2, atoi_digits h'.2, heq]
          simp only [kept, text, IsNumber, Kept, print_int_injective.eq_iff, true_and]
          constructor
          · rintro hiff heq
            rcases hiff.mp heq with rfl | hsame
            · rfl
            · exact hsame
          · refine fun hlost => ⟨fun heq => .inr (hlost heq), ?_⟩
            rintro (rfl | hsame)
            · rfl
            · exact hvalue hsame
      | empty =>
          simp [kept, text, IsNumber, Kept, hzero, h.1]
      | word text' =>
          simp only [kept, text, IsNumber, Kept, false_and, and_false, or_false]
          grind
  | empty =>
      cases k' with
      | number digits' h' =>
          simp [kept, text, IsNumber, Kept, eq_comm (a := ascii "0"), hzero, h'.1]
      | empty => simp [kept, text, Kept]
      | word text' =>
          simp only [kept, text, IsNumber, Kept, false_and, or_false]
          have hne : ascii "0" ≠ [] := by decide
          grind
  | word text =>
      cases k' with
      | number digits' h' =>
          simp only [kept, Kind.text, IsNumber, Kept, false_and, or_false]
          grind
      | empty =>
          simp only [kept, Kind.text, IsNumber, Kept, false_and, or_false]
          have hne : ascii "0" ≠ [] := by decide
          grind
      | word text' => simp [kept, Kind.text, IsNumber, Kept]

end Kind

/-- `=` means what it says exactly if nothing of the operands is lost that makes a difference.
`<>` is always its negation, and `>=` always a total order with `<=` as its converse. -/
theorem comparisons_mean_iff (kvList : Fields) (x y : Comparand) :
    ((Holds .equals kvList x y ↔ SameValue kvList x y) ↔ (x.kind kvList).Kept (y.kind kvList)) ∧
      (Holds .notEquals kvList x y ↔ ¬ Holds .equals kvList x y) ∧
        (Holds .greaterEquals kvList x y ↔ Holds .lessEquals kvList y x) ∧
          (Holds .greaterEquals kvList x y ∨ Holds .greaterEquals kvList y x) := by
  refine ⟨?_, not_equals_iff kvList x y, greater_equals_iff kvList x y,
    greater_equals_total kvList x y⟩
  rw [equals_iff, SameValue, ← kind_text, ← kind_text, ← kind_is_number, ← kind_is_number]
  exact Kind.kept_iff _ _

/-- A stored 007 does not equal the string '007'. -/
theorem leading_zeros_lost :
    ¬ ∀ (kvList : Fields) (x y : Comparand),
      (Holds .equals kvList x y ↔ SameValue kvList x y) ∧
        (Holds .notEquals kvList x y ↔ ¬ Holds .equals kvList x y) ∧
          (¬ (x.IsNumber kvList ∧ y.IsNumber kvList) →
            (Holds .greaterEquals kvList x y ↔ Holds .lessEquals kvList y x) ∧
              (Holds .greaterEquals kvList x y ∨ Holds .greaterEquals kvList y x)) := by
  intro h
  have hsame := (h (fun _ => some (ascii "007")) (.var (ascii "code")) (.string (ascii "007"))).1
  have hholds := hsame.mpr (.inl (by decide))
  revert hholds
  unfold Holds
  decide

end OpenSpy.ServerBrowsing
