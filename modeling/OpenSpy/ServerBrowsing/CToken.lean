import Mathlib.Data.List.TakeWhile
import OpenSpy.Library.Decimal

/-!
# Filter tokens

`CToken::filterToTokenList` cuts the filter of a server list request into tokens and
`convertToRPN` puts them in postfix order.

The buffer of `readVariable` is as long as the whole filter. A filter that is nothing but one
variable name fills it, no NUL is left behind the name, and reading the name back reads past
the end: `filter_to_token_list_none_iff` says that this is the only filter with undefined
tokens.
-/

namespace OpenSpy.ServerBrowsing

open Bytes

/-- The operators among the token types. -/
inductive Operator
  | equals
  | notEquals
  | greater
  | greaterEquals
  | less
  | lessEquals
  | or
  | and
  | add
  | subtract
  | multiply
  | divide
  | strLike
  | not
  deriving DecidableEq, Repr

/-- A token, by the constructor of `CToken` that made it. `EToken_Float` is left out: a number
with a point in it makes no token, and no field is read as a float. -/
inductive CToken
  | none
  | integer (value : Int)
  | string (text : Bytes)
  | var (name : Bytes)
  | operator (type : Operator)
  | leftBracket
  | rightBracket
  deriving DecidableEq, Repr

namespace CToken

/-- `m_int`, which only `CToken(int)` sets. -/
def getInt : CToken → Option Int
  | integer value => some value
  | _ => .none

/-- `m_str`. -/
def getString : CToken → Bytes
  | string text => text
  | var name => name
  | _ => []

/-- `CToken(val)` of a `bool`. -/
def ofBool (value : Bool) : CToken :=
  integer (if value then 1 else 0)

end CToken

/-- The words and signs of `checkMultiCharToken`, in the order of its tests. -/
def multiCharTokens : List (Bytes × CToken) :=
  [(ascii "==", .operator .equals), (ascii "is", .operator .equals),
    (ascii "=", .operator .equals), (ascii "!=", .operator .notEquals),
    (ascii "<>", .operator .notEquals), (ascii ">=", .operator .greaterEquals),
    (ascii "<=", .operator .lessEquals), (ascii "<", .operator .less),
    (ascii ">", .operator .greater), (ascii "||", .operator .or), (ascii "or", .operator .or),
    (ascii "&&", .operator .and), (ascii "and", .operator .and), (ascii "(", .leftBracket),
    (ascii ")", .rightBracket), (ascii "null", .integer 0), (ascii "like", .operator .strLike),
    (ascii "not", .operator .not), (ascii "!", .operator .not)]

/-- `checkMultiCharToken`: the token at the front and how far it moves `idx`. Words are compared
without case. -/
def checkMultiCharToken (filter : Bytes) : Option (CToken × Nat) :=
  (multiCharTokens.find? fun entry => entry.1.isPrefixOf (filter.map toLower)).map
    fun entry => (entry.2, entry.1.length - 1)

/-- `isalnum`, a point or an underscore. -/
def isVariableByte (b : UInt8) : Bool :=
  isDigit b || (97 ≤ toLower b && toLower b ≤ 122) || b == char '.' || b == char '_'

/-- `readVariable`: the name at the front. It is undefined if the name leaves no byte of the
`filterlen` bytes of the buffer for a NUL. -/
def readVariable (filterlen : Nat) (filter : Bytes) : Option Bytes :=
  let name := filter.takeWhile isVariableByte
  if name.length = filterlen then none else some name

/-- The bytes that `read_integer` takes: digits, points and the letter f. -/
def integerText (filter : Bytes) : Bytes :=
  filter.takeWhile fun b => isDigit b || b == char 'f' || b == char '.'

/-- One round of the loop of `filterToTokenList`, at the byte `c` with `rest` behind it: the
token that is pushed and the number of further bytes it takes. `token` is the last one. -/
def nextToken (filterlen : Nat) (token : CToken) (c : UInt8) (rest : Bytes) :
    Option (Option CToken × Nat) :=
  if isSpace c then some (none, 0)
  else
    match checkMultiCharToken (c :: rest) with
    | some (token, idx) => some (some token, idx)
    | none =>
        if c = char '\'' ∨ c = char '"' then
          let str := rest.takeWhile (· ≠ c)
          some (some (.string str), str.length + 1)
        else if c = char '-' then some (some (.operator .subtract), 0)
        else if c = char '+' then some (some (.operator .add), 0)
        else if c = char '/' then some (some (.operator .divide), 0)
        else if c = char '*' then some (some (.operator .multiply), 0)
        else if isDigit c then
          let text := integerText (c :: rest)
          -- a float is dropped, and the last token is pushed once more in its place
          let token := if text.all isDigit then .integer (atoi text) else token
          some (some token, text.length - 1)
        else
          (readVariable filterlen (c :: rest)).map fun name =>
            if name = [] then (none, 0) else (some (.var name), name.length - 1)

/-- The loop of `filterToTokenList`; the last token took the next `skip` bytes, too. -/
def tokenLoop (filterlen : Nat) : CToken → Nat → Bytes → Option (List CToken)
  | _, _, [] => some []
  | token, skip + 1, _ :: rest => tokenLoop filterlen token skip rest
  | token, 0, c :: rest =>
      match nextToken filterlen token c rest with
      | none => none
      | some (none, skip) => tokenLoop filterlen token skip rest
      | some (some token, skip) => (tokenLoop filterlen token skip rest).map (token :: ·)

/-- `getPrecedence`. -/
def getPrecedence : Operator → Nat
  | .or => 1
  | .and => 2
  | .equals | .notEquals => 3
  | .not => 4
  | .add | .subtract => 4
  | .multiply | .divide => 5
  | .greater | .greaterEquals | .less | .lessEquals => 3
  | .strLike => 3

/-- The top of the operator stack leaves it before `type` is pushed. Every operator is left
associative. -/
def leavesBefore (type : Operator) : CToken → Bool
  | .operator top => getPrecedence type ≤ getPrecedence top
  | _ => false

/-- The loop of `convertToRPN` with its operator stack, top first. -/
def rpnLoop : List CToken → List CToken → List CToken
  | [], operators => operators
  | .var name :: rest, operators => .var name :: rpnLoop rest operators
  | .integer value :: rest, operators => .integer value :: rpnLoop rest operators
  | .string text :: rest, operators => .string text :: rpnLoop rest operators
  | .operator type :: rest, operators =>
      operators.takeWhile (leavesBefore type) ++
        rpnLoop rest (.operator type :: operators.dropWhile (leavesBefore type))
  | .leftBracket :: rest, operators => rpnLoop rest (.leftBracket :: operators)
  | .rightBracket :: rest, operators =>
      operators.takeWhile (· ≠ .leftBracket) ++
        rpnLoop rest (operators.dropWhile (· ≠ .leftBracket)).tail
  | .none :: rest, operators => rpnLoop rest operators

/-- `convertToRPN`. -/
def convertToRPN (tokens : List CToken) : List CToken :=
  rpnLoop tokens []

/-- `filterToTokenList(filter.c_str())`, or nothing if the tokens are undefined. -/
def filterToTokenList (filter : Bytes) : Option (List CToken) :=
  (tokenLoop (cString filter).length .none 0 (cString filter)).map convertToRPN

/-- The filter is one variable name from its first byte to its last. -/
def BareVariable (filter : Bytes) : Prop :=
  (∃ c ∈ filter.head?, isDigit c = false) ∧ (∀ b ∈ filter, isVariableByte b) ∧
    checkMultiCharToken filter = none

/-- A token that is a variable has a name of variable bytes. -/
def WellNamed (token : CToken) : Prop :=
  ∀ name, token = .var name → ∀ b ∈ name, isVariableByte b

/-- A byte of a name is no white space, quote or arithmetic sign, and no NUL. -/
theorem variable_byte_facts {b : UInt8} (h : isVariableByte b) :
    isSpace b = false ∧ b ∉ [char '\'', char '"', char '-', char '+', char '/', char '*'] ∧
      b ≠ 0 := by
  have hall : ∀ n : Fin 256, isVariableByte (.ofNat n) → isSpace (.ofNat n) = false ∧
      UInt8.ofNat n ∉ [char '\'', char '"', char '-', char '+', char '/', char '*'] ∧
      UInt8.ofNat n ≠ 0 := by
    decide +kernel
  have hb : UInt8.ofNat b.toNat = b := UInt8.ofNat_toNat
  have := hall ⟨b.toNat, b.toNat_lt⟩
  simp only [hb] at this
  exact this h

/-- A round reads a name, or pushes a token that is no name unless it is found in the table or is
the last one. -/
theorem next_token_cases (filterlen : Nat) (token : CToken) (c : UInt8) (rest : Bytes) :
    (isDigit c = false ∧ checkMultiCharToken (c :: rest) = none ∧
      nextToken filterlen token c rest = (readVariable filterlen (c :: rest)).map fun name =>
        if name = [] then (none, 0) else (some (.var name), name.length - 1)) ∨
      ∃ pushed skip, nextToken filterlen token c rest = some (pushed, skip) ∧
        ∀ name, pushed = some (.var name) →
          token = .var name ∨ checkMultiCharToken (c :: rest) = some (.var name, skip) := by
  unfold nextToken
  by_cases hspace : isSpace c = true
  · rw [if_pos hspace]
    exact .inr ⟨none, 0, rfl, by simp⟩
  rw [if_neg hspace]
  cases hmulti : checkMultiCharToken (c :: rest) with
  | some found =>
      refine .inr ⟨some found.1, found.2, rfl, fun name hname => .inr ?_⟩
      rw [← Option.some.inj hname]
  | none =>
      dsimp only
      by_cases hquote : c = char '\'' ∨ c = char '"'
      · exact .inr ⟨_, _, if_pos hquote, by simp⟩
      rw [if_neg hquote]
      by_cases hminus : c = char '-'
      · exact .inr ⟨_, _, if_pos hminus, by simp⟩
      rw [if_neg hminus]
      by_cases hplus : c = char '+'
      · exact .inr ⟨_, _, if_pos hplus, by simp⟩
      rw [if_neg hplus]
      by_cases hslash : c = char '/'
      · exact .inr ⟨_, _, if_pos hslash, by simp⟩
      rw [if_neg hslash]
      by_cases hstar : c = char '*'
      · exact .inr ⟨_, _, if_pos hstar, by simp⟩
      rw [if_neg hstar]
      by_cases hdigit : isDigit c = true
      · rw [if_pos hdigit]
        refine .inr ⟨_, _, rfl, fun name hname => .inl ?_⟩
        split at hname
        · simp at hname
        · exact Option.some.inj hname
      · rw [if_neg hdigit]
        exact .inl ⟨by simpa using hdigit, rfl, rfl⟩

/-- A round is undefined only if a name fills the buffer. -/
theorem next_token_none {filterlen : Nat} {token : CToken} {c : UInt8} {rest : Bytes}
    (h : nextToken filterlen token c rest = none) :
    isDigit c = false ∧ checkMultiCharToken (c :: rest) = none ∧
      ((c :: rest).takeWhile isVariableByte).length = filterlen := by
  rcases next_token_cases filterlen token c rest with
    ⟨hdigit, hmulti, hnext⟩ | ⟨pushed, skip, hnext, -⟩
  · refine ⟨hdigit, hmulti, ?_⟩
    rw [hnext] at h
    by_contra hlength
    simp [readVariable, hlength] at h
  · rw [hnext] at h
    cases h

/-- Past the first byte a name cannot fill the buffer. -/
theorem token_loop_isSome {filterlen : Nat} {rest : Bytes} (h : rest.length < filterlen)
    (token : CToken) (skip : Nat) : (tokenLoop filterlen token skip rest).isSome := by
  induction rest generalizing token skip with
  | nil => rfl
  | cons c rest ih =>
      have hrest : rest.length < filterlen := by
        rw [List.length_cons] at h
        omega
      cases skip with
      | succ skip => exact ih hrest token skip
      | zero =>
          unfold tokenLoop
          cases hnext : nextToken filterlen token c rest with
          | none =>
              have hlength := (next_token_none hnext).2.2
              have hle := (List.takeWhile_prefix isVariableByte (l := c :: rest)).length_le
              omega
          | some next =>
              obtain ⟨pushed, skip⟩ := next
              cases pushed with
              | none => exact ih hrest token skip
              | some pushed =>
                  show ((tokenLoop filterlen pushed skip rest).map (pushed :: ·)).isSome
                  rw [Option.isSome_map]
                  exact ih hrest pushed skip

/-- The tokens are undefined exactly if the filter is one bare variable name. -/
theorem filter_to_token_list_none_iff {filter : Bytes} :
    filterToTokenList filter = none ↔ BareVariable (cString filter) := by
  rw [filterToTokenList, Option.map_eq_none_iff]
  cases htext : cString filter with
  | nil => simp [tokenLoop, BareVariable]
  | cons c rest =>
      have hloop : tokenLoop (c :: rest).length .none 0 (c :: rest) = none ↔
          nextToken (c :: rest).length .none c rest = none := by
        have hrest := fun token skip =>
          token_loop_isSome (show rest.length < (c :: rest).length by simp) token skip
        unfold tokenLoop
        cases nextToken (c :: rest).length .none c rest with
        | none => simp
        | some next =>
            obtain ⟨pushed, skip⟩ := next
            cases pushed with
            | none => simpa [← Option.isSome_iff_ne_none] using hrest .none skip
            | some pushed => simpa [← Option.isSome_iff_ne_none] using hrest pushed skip
      rw [hloop]
      constructor
      · intro h
        obtain ⟨hdigit, hmulti, hlength⟩ := next_token_none h
        have hall : (c :: rest).takeWhile isVariableByte = c :: rest :=
          List.IsPrefix.eq_of_length (List.takeWhile_prefix _) hlength
        exact ⟨⟨c, rfl, hdigit⟩, List.takeWhile_eq_self_iff.mp hall, hmulti⟩
      · rintro ⟨⟨first, hfirst, hdigit⟩, hall, hmulti⟩
        obtain rfl : c = first := by simpa using hfirst
        obtain ⟨hspace, hsigns, -⟩ := variable_byte_facts (hall c List.mem_cons_self)
        have hread : readVariable (c :: rest).length (c :: rest) = none := by
          rw [readVariable, List.takeWhile_eq_self_iff.mpr hall, if_pos rfl]
        simp only [List.mem_cons, List.not_mem_nil, or_false, not_or] at hsigns
        simp only [nextToken, hspace, hmulti, hsigns, hdigit, hread]
        rfl

/-- A round pushes well named tokens. -/
theorem next_token_named {filterlen : Nat} {token pushed : CToken} {c : UInt8} {rest : Bytes}
    {skip : Nat} (htoken : WellNamed token)
    (h : nextToken filterlen token c rest = some (some pushed, skip)) : WellNamed pushed := by
  intro name hname
  subst hname
  rcases next_token_cases filterlen token c rest with ⟨-, -, hnext⟩ | ⟨pushed, idx, hnext, hvar⟩
  · rw [hnext] at h
    obtain ⟨text, htext, hpush⟩ := Option.map_eq_some_iff.mp h
    have hname : text = name := by
      split_ifs at hpush
      · simp at hpush
      · simp at hpush
        exact hpush.1
    have hread : (c :: rest).takeWhile isVariableByte = text := by
      simp only [readVariable] at htext
      split_ifs at htext
      exact Option.some.inj htext
    rw [← hname, ← hread]
    exact fun b hb => List.mem_takeWhile_imp hb
  · obtain ⟨rfl, -⟩ : pushed = some (.var name) ∧ idx = skip := by
      rw [hnext] at h
      simpa using h
    rcases hvar name rfl with htoken' | hmulti
    · exact htoken name htoken'
    · -- no entry of the table is a name
      obtain ⟨entry, hentry, heq⟩ := Option.map_eq_some_iff.mp hmulti
      have hmem := List.mem_of_find?_eq_some hentry
      have hname : entry.2 = .var name := congrArg Prod.fst heq
      simp [multiCharTokens] at hmem
      rcases hmem with rfl | rfl | rfl | rfl | rfl | rfl | rfl | rfl | rfl | rfl | rfl | rfl |
        rfl | rfl | rfl | rfl | rfl | rfl | rfl <;> simp at hname

/-- The loop pushes well named tokens. -/
theorem token_loop_named {filterlen : Nat} {rest : Bytes} {token : CToken} {skip : Nat}
    {tokens : List CToken} (htoken : WellNamed token)
    (h : tokenLoop filterlen token skip rest = some tokens) :
    ∀ other ∈ tokens, WellNamed other := by
  induction rest generalizing token skip tokens with
  | nil =>
      obtain rfl : [] = tokens := by simpa [tokenLoop] using h
      simp
  | cons c rest ih =>
      cases skip with
      | succ skip => exact ih htoken h
      | zero =>
          unfold tokenLoop at h
          split at h
          · simp at h
          · exact ih htoken h
          · rename_i pushed skip hnext
            have hpushed := next_token_named htoken hnext
            obtain ⟨later, hlater, rfl⟩ := Option.map_eq_some_iff.mp h
            simpa [hpushed] using ih hpushed hlater

/-- `convertToRPN` makes no tokens. -/
theorem mem_rpn_loop {token : CToken} {tokens operators : List CToken}
    (h : token ∈ rpnLoop tokens operators) : token ∈ tokens ∨ token ∈ operators := by
  have htake (p : CToken → Bool) (list : List CToken) : list.takeWhile p ⊆ list :=
    (List.takeWhile_prefix p).subset
  have hdrop (p : CToken → Bool) (list : List CToken) : list.dropWhile p ⊆ list :=
    (List.dropWhile_suffix p).subset
  fun_induction rpnLoop tokens operators with
  | case1 operators => exact .inr h
  | case2 name rest operators ih => grind
  | case3 value rest operators ih => grind
  | case4 text rest operators ih => grind
  | case5 type rest operators ih =>
      rcases List.mem_append.mp h with h | h
      · exact .inr (htake _ _ h)
      · have hrest := hdrop (leavesBefore type) operators
        grind
  | case6 rest operators ih => grind
  | case7 rest operators ih =>
      rcases List.mem_append.mp h with h | h
      · exact .inr (htake _ _ h)
      · exact (ih h).imp (List.mem_cons_of_mem _) fun h => hdrop _ _ (List.mem_of_mem_tail h)
  | case8 rest operators ih => grind

/-- The variables of a token list have names of variable bytes. -/
theorem filter_to_token_list_named {filter : Bytes} {tokens : List CToken}
    (h : filterToTokenList filter = some tokens) : ∀ token ∈ tokens, WellNamed token := by
  obtain ⟨list, hlist, rfl⟩ := Option.map_eq_some_iff.mp h
  intro token htoken
  have hmem : token ∈ list := by simpa using mem_rpn_loop htoken
  have hnone : WellNamed .none := by simp [WellNamed]
  exact token_loop_named hnone hlist token hmem

/-- An empty filter has no tokens. -/
theorem filter_to_token_list_nil : filterToTokenList [] = some [] := rfl

example : filterToTokenList (ascii "(a+1)*b>=2 and host like '%x'") =
    some [.var (ascii "a"), .integer 1, .operator .add, .var (ascii "b"),
      .operator .multiply, .integer 2, .operator .greaterEquals, .var (ascii "host"),
      .string (ascii "%x"), .operator .strLike, .operator .and] := by
  decide

end OpenSpy.ServerBrowsing
