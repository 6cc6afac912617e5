import OpenSpy.Core.Match
import OpenSpy.Library.Undefined
import OpenSpy.ServerBrowsing.CToken

/-!
# Filter evaluation

`evaluate` runs the tokens of a filter on a stack of operands, with the fields of a server as
the values of the variables. An `int` wraps around on overflow.

`m_int` is set only in an integer token. The arithmetic operators read it in whatever token is
on their right, a string or what a division by zero left there among them, and the result is
undefined then. `filter_verdict_isSome_iff` says that nothing else makes it undefined except a
division that overflows. Otherwise the result depends only on the texts of the variables that
the filter names, and an absent field counts as an empty one.
-/

namespace OpenSpy.ServerBrowsing

open Bytes MachineInt

/-- A `std::map` from field names to texts. -/
abbrev Fields := Bytes → Option Bytes

/-- The text of `kvList[name]`, which is empty for an absent name. -/
def Fields.read (kvList : Fields) (name : Bytes) : Bytes :=
  (kvList name).getD []

/-- The map behind `kvList[name]`, which an absent name has entered. -/
def Fields.touch (kvList : Fields) (name : Bytes) : Fields :=
  Function.update kvList name (some (kvList.read name))

/-- `resolve_variable` for the text of the variable. -/
def resolveVariable (text : Bytes) : CToken :=
  let var := cString text
  if var.all isDigit then .integer (atoi var)
  else if var.length > 0 then .string var
  else .integer 0

/-- `tokenToString`. -/
def tokenToString : CToken → Bytes
  | .integer value => printInt value
  | token => token.getString

/-- `getType() == EToken_String`. -/
def isString : CToken → Bool
  | .string _ => true
  | _ => false

/-- `DEFINE_BOOLEAN_OPERATION`, on a stack with its top first. -/
def booleanOperation (ofInts : Int → Int → Bool) (ofStrings : Bytes → Bytes → Bool) :
    List CToken → CToken × List CToken
  | t2 :: t1 :: rest =>
      let val :=
        match t1, t2 with
        | .integer i1, .integer i2 => ofInts i1 i2
        | t1, t2 =>
            if isString t1 || isString t2 then ofStrings (tokenToString t2) (tokenToString t1)
            else true
      (.ofBool val, rest)
  | stack => (.ofBool true, stack)

/-- `DEFINE_BOOLEAN_OPERATION_NOSTR`. -/
def booleanOperationNoStr (ofInts : Int → Int → Bool) : List CToken → CToken × List CToken :=
  booleanOperation ofInts fun _ _ => true

/-- `addition`, `subtraction` and `multiply`: the right operand is read if the left one is an
integer. -/
def arithmetic (op : Int → Int → Int) : List CToken → Option (CToken × List CToken)
  | rh :: lh :: rest =>
      match lh with
      | .integer l => rh.getInt.map fun r => (.integer (int32 (op l r)), rest)
      | _ => some (.none, rest)
  | stack => some (.none, stack)

/-- `divide`: the right operand is read first. The least integer divided by -1 overflows. -/
def divide : List CToken → Option (CToken × List CToken)
  | rh :: lh :: rest => do
      let r ← rh.getInt
      if r = 0 then some (.none, rest)
      else
        match lh with
        | .integer l =>
            if l = -2 ^ 31 ∧ r = -1 then none else some (.integer (l.tdiv r), rest)
        | _ => some (.none, rest)
  | stack => some (.none, stack)

/-- `logical_not`. -/
def logicalNot : List CToken → CToken × List CToken
  | .integer value :: rest => (.ofBool (value = 0), rest)
  | _ :: rest => (.integer 0, rest)
  | [] => (.integer 0, [])

/-- The call for an operator in `evaluate`: its result and the rest of the stack. The texts
come to `string_compare_..` with the right one first. -/
def applyOperator (type : Operator) (stack : List CToken) : Option (CToken × List CToken) :=
  match type with
  | .add => arithmetic (· + ·) stack
  | .subtract => arithmetic (· - ·) stack
  | .multiply => arithmetic (· * ·) stack
  | .divide => divide stack
  | .equals => booleanOperation (· == ·) (· == ·) stack
  | .strLike => booleanOperation (· == ·) (fun s1 s2 => match2 (char '%') s1 s2 == 0) stack
  | .notEquals => booleanOperation (· != ·) (· != ·) stack
  | .lessEquals => booleanOperation (· ≤ ·) (fun s1 s2 => s1.length ≤ s2.length) stack
  | .greaterEquals => booleanOperation (· ≥ ·) (fun s1 s2 => s1.length ≥ s2.length) stack
  | .less => booleanOperationNoStr (· < ·) stack
  | .greater => booleanOperationNoStr (· > ·) stack
  | .and => booleanOperationNoStr (fun i1 i2 => i1 ≠ 0 && i2 ≠ 0) stack
  | .or => booleanOperationNoStr (fun i1 i2 => i1 ≠ 0 || i2 ≠ 0) stack
  | .not => logicalNot stack

/-- One round of the loop of `evaluate`, on the operand stack and the fields. -/
def evalToken (state : List CToken × Fields) (token : CToken) : Option (List CToken × Fields) :=
  match token with
  | .var name =>
      some (resolveVariable (state.2.read (cString name)) :: state.1, state.2.touch (cString name))
  | .integer _ | .string _ => some (token :: state.1, state.2)
  | .operator type => (applyOperator type state.1).map fun (ret, stack) => (ret :: stack, state.2)
  | .none | .leftBracket | .rightBracket => some state

/-- The value at the end of `evaluate`: an integer that is not zero is on top. -/
def topIsTrue : List CToken → Bool
  | .integer value :: _ => value ≠ 0
  | _ => false

/-- `evaluate`, with the fields behind it. -/
def evaluate (tokens : List CToken) (kvList : Fields) : Option (Bool × Fields) :=
  (tokens.foldlM evalToken ([], kvList)).map fun (stack, kvList) => (topIsTrue stack, kvList)

/-- `filterMatches`. -/
def filterMatches (tokens : List CToken) (kvList : Fields) : Option (Bool × Fields) :=
  if tokens = [] then some (true, kvList) else evaluate tokens kvList

/-- What a token does to the operand stack when `value` gives the texts of the variables. -/
def evalStack (value : Bytes → Bytes) (stack : List CToken) (token : CToken) :
    Option (List CToken) :=
  match token with
  | .var name => some (resolveVariable (value (cString name)) :: stack)
  | .integer _ | .string _ => some (token :: stack)
  | .operator type => (applyOperator type stack).map fun (ret, stack) => ret :: stack
  | .none | .leftBracket | .rightBracket => some stack

/-- The answer of a filter when `value` gives the texts of the variables. -/
def filterVerdict (tokens : List CToken) (value : Bytes → Bytes) : Option Bool :=
  if tokens = [] then some true else (tokens.foldlM (evalStack value) []).map topIsTrue

/-- An operator finds the integers it reads on the stack, and does not overflow in a
division. -/
def Operator.Defined (type : Operator) (stack : List CToken) : Prop :=
  match type, stack with
  | .add, rh :: lh :: _ | .subtract, rh :: lh :: _ | .multiply, rh :: lh :: _ =>
      lh.getInt.isSome → rh.getInt.isSome
  | .divide, rh :: lh :: _ =>
      rh.getInt.isSome ∧ ¬(lh = .integer (-2 ^ 31) ∧ rh = .integer (-1))
  | _, _ => True

/-- Every operator that the evaluation comes to is defined there. -/
def OperatorsDefined (tokens : List CToken) (value : Bytes → Bytes) : Prop :=
  ∀ before type after stack, tokens = before ++ .operator type :: after →
    before.foldlM (evalStack value) [] = some stack → type.Defined stack

/-- An absent name is read like an empty text before and after it enters the map. -/
@[simp] theorem Fields.read_touch (kvList : Fields) (name : Bytes) :
    (kvList.touch name).read = kvList.read := by
  funext other
  by_cases h : other = name
  · simp [Fields.touch, Fields.read, h]
  · simp [Fields.touch, Fields.read, Function.update_of_ne h]

/-- A token moves the operand stack as the texts of its fields say, and leaves the texts. -/
theorem eval_token_eq (stack : List CToken) (kvList : Fields) (token : CToken) :
    ∃ kvList', kvList'.read = kvList.read ∧
      evalToken (stack, kvList) token =
        (evalStack kvList.read stack token).map fun stack => (stack, kvList') := by
  cases token with
  | var name => exact ⟨kvList.touch (cString name), kvList.read_touch _, rfl⟩
  | operator type =>
      refine ⟨kvList, rfl, ?_⟩
      simp [evalToken, evalStack, Option.map_map, Function.comp_def]
  | none => exact ⟨kvList, rfl, rfl⟩
  | integer value => exact ⟨kvList, rfl, rfl⟩
  | string text => exact ⟨kvList, rfl, rfl⟩
  | leftBracket => exact ⟨kvList, rfl, rfl⟩
  | rightBracket => exact ⟨kvList, rfl, rfl⟩

/-- So does a list of tokens. -/
theorem eval_tokens_eq (tokens : List CToken) (stack : List CToken) (kvList : Fields) :
    (tokens.foldlM evalToken (stack, kvList)).map Prod.fst =
      tokens.foldlM (evalStack kvList.read) stack := by
  induction tokens generalizing stack kvList with
  | nil => rfl
  | cons token tokens ih =>
      obtain ⟨kvList', hread, hstep⟩ := eval_token_eq stack kvList token
      rw [List.foldlM_cons, List.foldlM_cons, hstep, ← hread]
      cases evalStack kvList'.read stack token with
      | none => rfl
      | some stack => exact ih stack kvList'

/-- The answer of `evaluate` is what is on top at the end. -/
theorem evaluate_eq (tokens : List CToken) (kvList : Fields) :
    (evaluate tokens kvList).map Prod.fst =
      (tokens.foldlM (evalStack kvList.read) []).map topIsTrue := by
  rw [← eval_tokens_eq tokens [] kvList, evaluate, Option.map_map, Option.map_map]
  rfl

/-- The answer of `filterMatches` is read off the texts of the fields. -/
theorem filter_matches_eq (tokens : List CToken) (kvList : Fields) :
    (filterMatches tokens kvList).map Prod.fst = filterVerdict tokens kvList.read := by
  unfold filterMatches filterVerdict
  split
  · rfl
  · exact evaluate_eq tokens kvList

/-- Only the texts of the variables in the filter matter. -/
theorem filter_verdict_congr {tokens : List CToken} {value value' : Bytes → Bytes}
    (h : ∀ name, .var name ∈ tokens → value (cString name) = value' (cString name)) :
    filterVerdict tokens value = filterVerdict tokens value' := by
  have hstep : ∀ stack, ∀ token ∈ tokens,
      evalStack value stack token = evalStack value' stack token := by
    intro stack token htoken
    cases token with
    | var name => simp only [evalStack, h name htoken]
    | _ => rfl
  rw [filterVerdict, filterVerdict, Undefined.foldl_m_congr hstep]

/-- The arithmetic operators without division are undefined exactly if the left operand is an
integer and the right one is not. -/
theorem arithmetic_none_iff {op : Int → Int → Int} {lh rh : CToken} {rest : List CToken} :
    arithmetic op (rh :: lh :: rest) = none ↔ ¬(lh.getInt.isSome → rh.getInt.isSome) := by
  cases lh with
  | integer value => simp [arithmetic, CToken.getInt]
  | _ => simp [arithmetic, CToken.getInt]

/-- Division is undefined exactly if the right operand is no integer or the division
overflows. -/
theorem divide_none_iff {lh rh : CToken} {rest : List CToken} :
    divide (rh :: lh :: rest) = none ↔
      ¬(rh.getInt.isSome ∧ ¬(lh = .integer (-2 ^ 31) ∧ rh = .integer (-1))) := by
  cases rh with
  | integer r =>
      by_cases hr : r = 0
      · simp [divide, CToken.getInt, hr]
      · cases lh with
        | integer l => simp [divide, CToken.getInt, hr]
        | _ => simp [divide, CToken.getInt]
  | _ => simp [divide, CToken.getInt]

/-- An operator is undefined exactly if it is not `Defined`. -/
theorem apply_operator_none_iff (type : Operator) (stack : List CToken) :
    applyOperator type stack = none ↔ ¬type.Defined stack := by
  match stack with
  | [] => cases type <;> simp [applyOperator, Operator.Defined, arithmetic, divide]
  | [top] => cases type <;> simp [applyOperator, Operator.Defined, arithmetic, divide]
  | rh :: lh :: rest =>
      cases type with
      | add => exact arithmetic_none_iff
      | subtract => exact arithmetic_none_iff
      | multiply => exact arithmetic_none_iff
      | divide => exact divide_none_iff
      | _ => simp [applyOperator, Operator.Defined]

/-- The evaluation is defined exactly if all operators that it comes to are. -/
theorem filter_verdict_isSome_iff {tokens : List CToken} {value : Bytes → Bytes} :
    (filterVerdict tokens value).isSome ↔ OperatorsDefined tokens value := by
  have hrun : (filterVerdict tokens value).isSome ↔
      tokens.foldlM (evalStack value) [] ≠ none := by
    unfold filterVerdict
    split
    · rename_i htokens
      simp [htokens]
    · rw [Option.isSome_map, Option.isSome_iff_ne_none]
  rw [hrun, Ne, Undefined.foldl_m_eq_none_iff]
  constructor
  · intro h before type after stack htokens hbefore
    by_contra hdefined
    refine h ⟨before, .operator type, after, stack, htokens, hbefore, ?_⟩
    simp [evalStack, (apply_operator_none_iff type stack).mpr hdefined]
  · rintro h ⟨before, token, after, stack, htokens, hbefore, hstep⟩
    -- only an operator can be undefined
    cases token with
    | operator type =>
        have hnone : applyOperator type stack = none := by simpa [evalStack] using hstep
        exact (apply_operator_none_iff type stack).mp hnone
          (h before type after stack htokens hbefore)
    | _ => simp [evalStack] at hstep

example : filterVerdict [.var (ascii "players"), .var (ascii "host"), .operator .subtract]
    (fun name => if name = ascii "players" then ascii "1" else ascii "x") = none := by
  decide

end OpenSpy.ServerBrowsing
