import Mathlib.Data.List.Chain
import OpenSpy.ServerBrowsing.Filter

/-!
# Filters and their trees

An `Infix` is an expression with its brackets. If it `Fits`, the precedences of the code leave no
choice but its tree (`tree_of_tokens`). `convertToRPN` treats NOT like the binary operators: when
it comes to one, it takes off the stack what binds as tightly, an operator among it that still
waits for this NOT as its operand. `filter_follows_tree` says that the tokens come in the order
of the tree exactly if no NOT is directly behind such an operator, and that the filter then has
the value of the tree.
-/

namespace OpenSpy.ServerBrowsing

open Bytes

/-- A literal or a variable. -/
inductive Operand where
  | integer (value : Int)
  | string (text : Bytes)
  | var (name : Bytes)

/-- The token of an operand. -/
def Operand.token : Operand → CToken
  | integer value => .integer value
  | string text => .string text
  | var name => .var name

/-- What an operand is in the stack of `evaluate`, when `value` gives the texts of the
variables. -/
def Operand.resolve (value : Bytes → Bytes) : Operand → CToken
  | integer value => .integer value
  | string text => .string text
  | var name => resolveVariable (value (cString name))

/-- An expression tree. -/
inductive Expr where
  | operand (leaf : Operand)
  | not (e : Expr)
  | binary (type : Operator) (h : type ≠ .not) (left right : Expr)

namespace Expr

/-- The value of a tree from the bottom up, by the functions of the operators. A stack has the
right operand first. -/
def eval (value : Bytes → Bytes) : Expr → Option CToken
  | operand leaf => some (leaf.resolve value)
  | not e => do
      let operand ← e.eval value
      (applyOperator .not [operand]).map Prod.fst
  | binary type _ left right => do
      let lh ← left.eval value
      let rh ← right.eval value
      (applyOperator type [rh, lh]).map Prod.fst

/-- The tokens of a tree with each operator behind its operands. -/
def postfixTokens : Expr → List CToken
  | operand leaf => [leaf.token]
  | not e => e.postfixTokens ++ [.operator .not]
  | binary type _ left right =>
      left.postfixTokens ++ right.postfixTokens ++ [.operator type]

/-- Read from its end, a list of tokens begins with at most one tree. -/
theorem postfix_tokens_append_inj {e other : Expr} {rest rest' : List CToken}
    (h : e.postfixTokens.reverse ++ rest = other.postfixTokens.reverse ++ rest') :
    e = other ∧ rest = rest' := by
  induction e generalizing other rest rest' with
  | operand leaf =>
      cases other with
      | operand leaf' =>
          cases leaf <;> cases leaf' <;> simp_all [postfixTokens, Operand.token]
      | not e' => cases leaf <;> simp [postfixTokens, Operand.token] at h
      | binary type' h' left' right' => cases leaf <;> simp [postfixTokens, Operand.token] at h
  | not e ih =>
      cases other with
      | operand leaf' => cases leaf' <;> simp [postfixTokens, Operand.token] at h
      | not e' =>
          have hinside : e.postfixTokens.reverse ++ rest = e'.postfixTokens.reverse ++ rest' := by
            simpa [postfixTokens] using h
          obtain ⟨rfl, hrest⟩ := ih hinside
          exact ⟨rfl, hrest⟩
      | binary type' h' left' right' =>
          simp [postfixTokens] at h
          exact absurd h.1.symm h'
  | binary type hnot left right ihl ihr =>
      cases other with
      | operand leaf' => cases leaf' <;> simp [postfixTokens, Operand.token] at h
      | not e' =>
          simp [postfixTokens] at h
          exact absurd h.1 hnot
      | binary type' h' left' right' =>
          have hparts : type = type' ∧
              right.postfixTokens.reverse ++ (left.postfixTokens.reverse ++ rest) =
                right'.postfixTokens.reverse ++ (left'.postfixTokens.reverse ++ rest') := by
            simpa [postfixTokens] using h
          obtain ⟨rfl, hright⟩ := hparts
          obtain ⟨rfl, hleft⟩ := ihr hright
          obtain ⟨rfl, hrest⟩ := ihl hleft
          exact ⟨rfl, hrest⟩

/-- The tokens give back their tree. -/
theorem postfix_tokens_inj {e other : Expr} (h : e.postfixTokens = other.postfixTokens) :
    e = other :=
  (postfix_tokens_append_inj (congrArg (·.reverse ++ []) h)).1

end Expr

/-- An expression as it is written, with its brackets. -/
inductive Infix where
  | operand (leaf : Operand)
  | bracket (e : Infix)
  | not (e : Infix)
  | binary (type : Operator) (h : type ≠ .not) (left right : Infix)

namespace Infix

/-- The tree without the brackets. -/
def tree : Infix → Expr
  | operand leaf => .operand leaf
  | bracket e => e.tree
  | not e => .not e.tree
  | binary type h left right => .binary type h left.tree right.tree

/-- The tokens in the order in which they are written. -/
def tokens : Infix → List CToken
  | operand leaf => [leaf.token]
  | bracket e => .leftBracket :: (e.tokens ++ [.rightBracket])
  | not e => .operator .not :: e.tokens
  | binary type _ left right => left.tokens ++ .operator type :: right.tokens

/-- The binary operators that take the first operand from their left, outermost first. -/
def leftSpine : Infix → List Operator
  | binary type _ left _ => type :: left.leftSpine
  | _ => []

/-- The operators that take the last operand from their right, outermost first. -/
def rightSpine : Infix → List Operator
  | not e => .not :: e.rightSpine
  | binary type _ _ right => type :: right.rightSpine
  | _ => []

/-- The precedences put the brackets where they are left out: binary operators are left
associative, and the operand of a NOT goes on as long as operators bind tighter. -/
def Fits : Infix → Prop
  | operand _ => True
  | bracket e => e.Fits
  | not e => e.Fits ∧ ∀ type ∈ e.leftSpine, getPrecedence .not < getPrecedence type
  | binary type _ left right =>
      left.Fits ∧ right.Fits ∧
        (∀ other ∈ left.rightSpine, getPrecedence type ≤ getPrecedence other) ∧
        ∀ other ∈ right.leftSpine, getPrecedence type < getPrecedence other

instance decidableFits : (e : Infix) → Decidable e.Fits
  | operand _ => isTrue trivial
  | bracket e => decidableFits e
  | not e =>
      have := decidableFits e
      inferInstanceAs (Decidable (_ ∧ _))
  | binary _ _ left right =>
      have := decidableFits left
      have := decidableFits right
      inferInstanceAs (Decidable (_ ∧ _ ∧ _ ∧ _))

end Infix

/-- No NOT is directly behind an operator that it takes off the stack: a NOT, a plus, a minus, a
star or a slash. -/
def NotsStay (tokens : List CToken) : Prop :=
  tokens.IsChain fun front token => token = .operator .not → leavesBefore .not front = false

instance (tokens : List CToken) : Decidable (NotsStay tokens) :=
  inferInstanceAs (Decidable (tokens.IsChain _))

/-- The value of a filter: an integer that is not zero. -/
def isTrue : CToken → Bool
  | .integer value => value ≠ 0
  | _ => false

section Conversion

/-- The loop of `convertToRPN` for any test of what leaves the operator stack. -/
def rpnLoopWith (leaves : Operator → CToken → Bool) : List CToken → List CToken → List CToken
  | [], operators => operators
  | .var name :: rest, operators => .var name :: rpnLoopWith leaves rest operators
  | .integer value :: rest, operators => .integer value :: rpnLoopWith leaves rest operators
  | .string text :: rest, operators => .string text :: rpnLoopWith leaves rest operators
  | .operator type :: rest, operators =>
      operators.takeWhile (leaves type) ++
        rpnLoopWith leaves rest (.operator type :: operators.dropWhile (leaves type))
  | .leftBracket :: rest, operators => rpnLoopWith leaves rest (.leftBracket :: operators)
  | .rightBracket :: rest, operators =>
      operators.takeWhile (· ≠ .leftBracket) ++
        rpnLoopWith leaves rest (operators.dropWhile (· ≠ .leftBracket)).tail
  | .none :: rest, operators => rpnLoopWith leaves rest operators

theorem rpn_loop_eq (tokens operators : List CToken) :
    rpnLoop tokens operators = rpnLoopWith leavesBefore tokens operators := by
  fun_induction rpnLoop tokens operators <;> simp_all [rpnLoopWith]

namespace Infix

/-- What the conversion has put out behind the tokens of an expression. -/
def emitted : Infix → List CToken
  | operand leaf => [leaf.token]
  | bracket e => e.tree.postfixTokens
  | not e => e.emitted
  | binary _ _ left right => left.tree.postfixTokens ++ right.emitted

/-- What it has left on the operator stack, top first. -/
def pending (e : Infix) : List CToken :=
  e.rightSpine.reverse.map .operator

theorem emitted_pending (e : Infix) : e.emitted ++ e.pending = e.tree.postfixTokens := by
  induction e with
  | operand leaf => rfl
  | bracket e => simp [emitted, pending, rightSpine, tree]
  | not e ih => simp [emitted, pending, rightSpine, tree, Expr.postfixTokens, ← ih]
  | binary type h left right ihl ihr =>
      simp [emitted, pending, rightSpine, tree, Expr.postfixTokens, ← ihr]

/-- The first token that is put out is an operand. -/
theorem emitted_head (e : Infix) : ∃ (leaf : Operand) (later : List CToken),
    e.emitted = leaf.token :: later := by
  have htree : ∀ tree : Expr, ∃ (leaf : Operand) (later : List CToken),
      tree.postfixTokens = leaf.token :: later := by
    intro tree
    induction tree with
    | operand leaf => exact ⟨leaf, [], rfl⟩
    | not e ih =>
        obtain ⟨leaf, later, heq⟩ := ih
        exact ⟨leaf, later ++ [.operator .not], by simp [Expr.postfixTokens, heq]⟩
    | binary type h left right ihl ihr =>
        obtain ⟨leaf, later, heq⟩ := ihl
        exact ⟨leaf, later ++ right.postfixTokens ++ [.operator type],
          by simp [Expr.postfixTokens, heq]⟩
  cases e with
  | operand leaf => exact ⟨leaf, [], rfl⟩
  | bracket e => exact htree e.tree
  | not e => exact emitted_head e
  | binary type h left right =>
      obtain ⟨leaf, later, heq⟩ := htree left.tree
      exact ⟨leaf, later ++ right.emitted, by simp [emitted, heq]⟩

theorem rpn_loop_operand (leaves : Operator → CToken → Bool) (leaf : Operand)
    (rest operators : List CToken) :
    rpnLoopWith leaves (leaf.token :: rest) operators =
      leaf.token :: rpnLoopWith leaves rest operators := by
  cases leaf <;> rfl

/-- No NOT of an expression takes something off the stack; `front` is the top of the stack in
front of the expression. -/
def NotsStay (leaves : Operator → CToken → Bool) : Option CToken → Infix → Prop
  | _, operand _ => True
  | _, bracket e => e.NotsStay leaves (some .leftBracket)
  | front, not e =>
      (∀ top ∈ front, leaves .not top = false) ∧ e.NotsStay leaves (some (.operator .not))
  | front, binary type _ left right =>
      left.NotsStay leaves front ∧ right.NotsStay leaves (some (.operator type))

/-- Nothing leaves a stack whose top stays. -/
theorem take_while_kept {p : CToken → Bool} {operators : List CToken}
    (hstay : ∀ top ∈ operators.head?, p top = false) :
    operators.takeWhile p = [] ∧ operators.dropWhile p = operators := by
  cases operators with
  | nil => exact ⟨rfl, rfl⟩
  | cons top operators =>
      have htop := hstay top rfl
      simp [htop]

/-- What binds as tightly as an operator leaves before it, as far as the stack goes on so. -/
theorem take_while_pending {type : Operator} {pending operators : List CToken}
    (hpending : ∀ token ∈ pending, leavesBefore type token = true)
    (hstay : ∀ top ∈ operators.head?, leavesBefore type top = false) :
    (pending ++ operators).takeWhile (leavesBefore type) = pending ∧
      (pending ++ operators).dropWhile (leavesBefore type) = operators := by
  obtain ⟨htake, hdrop⟩ := take_while_kept hstay
  rw [List.takeWhile_append_of_pos hpending, List.dropWhile_append_of_pos hpending, htake, hdrop,
    List.append_nil]
  exact ⟨rfl, rfl⟩

/-- The tokens of an expression whose NOTs take nothing off the stack. -/
theorem rpn_loop_tokens {leaves : Operator → CToken → Bool}
    (hbinary : ∀ type ≠ .not, leaves type = leavesBefore type) {e : Infix} (hfits : e.Fits)
    (rest operators : List CToken)
    (hstay : ∀ top ∈ operators.head?, ∀ type ∈ e.leftSpine, leavesBefore type top = false)
    (hnots : e.NotsStay leaves operators.head?) :
    rpnLoopWith leaves (e.tokens ++ rest) operators =
      e.emitted ++ rpnLoopWith leaves rest (e.pending ++ operators) := by
  induction e generalizing rest operators with
  | operand leaf => exact rpn_loop_operand leaves leaf rest operators
  | bracket e ih =>
      have hinside := ih hfits (.rightBracket :: rest) (.leftBracket :: operators)
        (fun top htop _ _ => by rw [← Option.mem_some.mp htop]; rfl) hnots
      have hbrackets : ∀ token ∈ e.pending, decide (token ≠ .leftBracket) = true := by
        intro token htoken
        obtain ⟨type, -, rfl⟩ := List.mem_map.mp htoken
        rfl
      have htokens : (bracket e).tokens ++ rest =
          .leftBracket :: (e.tokens ++ .rightBracket :: rest) := by
        simp [tokens]
      rw [htokens, rpnLoopWith, hinside, rpnLoopWith, List.takeWhile_append_of_pos hbrackets,
        List.dropWhile_append_of_pos hbrackets]
      simp [emitted, ← emitted_pending, pending, rightSpine]
  | not e ih =>
      obtain ⟨hinside, htight⟩ := hfits
      obtain ⟨htop, hnots⟩ := hnots
      have hoperand := ih hinside rest (.operator .not :: operators)
        (fun top hmem type htype => by
          rw [← Option.mem_some.mp hmem]
          exact decide_eq_false (Nat.not_le.mpr (htight type htype))) hnots
      obtain ⟨htake, hdrop⟩ := take_while_kept htop
      rw [tokens, List.cons_append, rpnLoopWith, htake, hdrop, hoperand]
      simp [emitted, pending, rightSpine]
  | binary type h left right ihl ihr =>
      obtain ⟨hleft, hright, htight, htighter⟩ := hfits
      obtain ⟨hleftNots, hrightNots⟩ := hnots
      have hfirst := ihl hleft (.operator type :: (right.tokens ++ rest)) operators
        (fun top htop other hother => hstay top htop other (List.mem_cons_of_mem _ hother))
        hleftNots
      have hsecond := ihr hright rest (.operator type :: operators)
        (fun top hmem other hother => by
          rw [← Option.mem_some.mp hmem]
          exact decide_eq_false (Nat.not_le.mpr (htighter other hother))) hrightNots
      have hpending : ∀ token ∈ left.pending, leavesBefore type token = true := by
        intro token htoken
        obtain ⟨other, hother, rfl⟩ := List.mem_map.mp htoken
        exact decide_eq_true (htight other (List.mem_reverse.mp hother))
      obtain ⟨htake, hdrop⟩ := take_while_pending hpending
        fun top htop => hstay top htop type List.mem_cons_self
      have htokens : (binary type h left right).tokens ++ rest =
          left.tokens ++ .operator type :: (right.tokens ++ rest) := by
        simp [tokens]
      rw [htokens, hfirst, rpnLoopWith, hbinary type h, htake, hdrop, hsecond]
      simp [emitted, ← emitted_pending, pending, rightSpine]

/-- The whole conversion, when the NOTs take nothing off the stack. -/
theorem rpn_loop_whole {leaves : Operator → CToken → Bool}
    (hbinary : ∀ type ≠ .not, leaves type = leavesBefore type) {e : Infix} (hfits : e.Fits)
    (hnots : e.NotsStay leaves none) : rpnLoopWith leaves e.tokens [] = e.tree.postfixTokens := by
  have hloop := rpn_loop_tokens hbinary hfits [] [] (fun top htop => by cases htop) hnots
  rw [List.append_nil] at hloop
  rw [hloop, List.append_nil, rpnLoopWith, emitted_pending]

/-- A NOT that takes an operator off the stack puts it out where the tree has an operand. -/
theorem rpn_loop_stray {e : Infix} (hfits : e.Fits) (rest operators : List CToken)
    (hstay : ∀ top ∈ operators.head?, ∀ type ∈ e.leftSpine, leavesBefore type top = false)
    (hnots : ¬ e.NotsStay leavesBefore operators.head?) :
    ∃ (before after later : List CToken) (type : Operator) (leaf : Operand),
      rpnLoopWith leavesBefore (e.tokens ++ rest) operators = before ++ .operator type :: after ∧
        e.emitted = before ++ leaf.token :: later := by
  induction e generalizing rest operators with
  | operand leaf => exact absurd trivial hnots
  | bracket e ih =>
      have htokens : (bracket e).tokens ++ rest =
          .leftBracket :: (e.tokens ++ .rightBracket :: rest) := by
        simp [tokens]
      obtain ⟨before, after, later, type, leaf, hloop, hemitted⟩ :=
        ih hfits (.rightBracket :: rest) (.leftBracket :: operators)
          (fun top htop _ _ => by rw [← Option.mem_some.mp htop]; rfl) hnots
      refine ⟨before, after, later ++ e.pending, type, leaf, ?_, ?_⟩
      · rw [htokens, rpnLoopWith, hloop]
      · rw [emitted, ← emitted_pending, hemitted]
        simp
  | not e ih =>
      obtain ⟨hinside, htight⟩ := hfits
      rw [tokens, List.cons_append, rpnLoopWith]
      by_cases htop : ∀ top ∈ operators.head?, leavesBefore .not top = false
      · -- the stray NOT is further inside
        obtain ⟨htake, hdrop⟩ := take_while_kept htop
        rw [htake, hdrop]
        exact ih hinside rest (.operator .not :: operators)
          (fun top hmem type htype => by
            rw [← Option.mem_some.mp hmem]
            exact decide_eq_false (Nat.not_le.mpr (htight type htype)))
          fun hstays => hnots ⟨htop, hstays⟩
      · obtain ⟨leaf, later, hemitted⟩ := emitted_head e
        cases operators with
        | nil => exact absurd (fun top hmem => by cases hmem) htop
        | cons top operators =>
            have hleaves : leavesBefore .not top = true := by
              simpa using htop
            obtain ⟨type, rfl⟩ : ∃ type, top = .operator type := by
              cases top with
              | operator type => exact ⟨type, rfl⟩
              | _ => cases hleaves
            refine ⟨[], operators.takeWhile (leavesBefore .not) ++
              rpnLoopWith leavesBefore (e.tokens ++ rest) (.operator .not ::
                (.operator type :: operators).dropWhile (leavesBefore .not)),
              later, type, leaf, ?_, hemitted⟩
            rw [List.takeWhile_cons_of_pos hleaves]
            rfl
  | binary type h left right ihl ihr =>
      obtain ⟨hleft, hright, htight, htighter⟩ := hfits
      have htokens : (binary type h left right).tokens ++ rest =
          left.tokens ++ .operator type :: (right.tokens ++ rest) := by
        simp [tokens]
      have hstayLeft : ∀ top ∈ operators.head?, ∀ other ∈ left.leftSpine,
          leavesBefore other top = false :=
        fun top htop other hother => hstay top htop other (List.mem_cons_of_mem _ hother)
      rw [htokens]
      by_cases hleftNots : left.NotsStay leavesBefore operators.head?
      · rw [rpn_loop_tokens (fun _ _ => rfl) hleft _ operators hstayLeft hleftNots, rpnLoopWith]
        have hpending : ∀ token ∈ left.pending, leavesBefore type token = true := by
          intro token htoken
          obtain ⟨other, hother, rfl⟩ := List.mem_map.mp htoken
          exact decide_eq_true (htight other (List.mem_reverse.mp hother))
        obtain ⟨htake, hdrop⟩ := take_while_pending hpending
          fun top htop => hstay top htop type List.mem_cons_self
        obtain ⟨before, after, later, stray, leaf, hloop, hemitted⟩ :=
          ihr hright rest (.operator type :: operators)
            (fun top hmem other hother => by
              rw [← Option.mem_some.mp hmem]
              exact decide_eq_false (Nat.not_le.mpr (htighter other hother)))
            fun hrightNots => hnots ⟨hleftNots, hrightNots⟩
        refine ⟨left.tree.postfixTokens ++ before, after, later, stray, leaf, ?_, ?_⟩
        · rw [htake, hdrop, hloop, ← emitted_pending]
          simp
        · rw [emitted, hemitted]
          simp
      · obtain ⟨before, after, later, stray, leaf, hloop, hemitted⟩ :=
          ihl hleft (.operator type :: (right.tokens ++ rest)) operators hstayLeft hleftNots
        refine ⟨before, after, later ++ left.pending ++ right.emitted, stray, leaf, hloop, ?_⟩
        rw [emitted, ← emitted_pending, hemitted]
        simp

/-- A chain of tokens is cut in front of a token that is no NOT. -/
theorem nots_stay_append {before after : List CToken} {token : CToken}
    (htoken : token ≠ .operator .not) :
    OpenSpy.ServerBrowsing.NotsStay (before ++ token :: after) ↔
      OpenSpy.ServerBrowsing.NotsStay before ∧ OpenSpy.ServerBrowsing.NotsStay (token :: after) := by
  unfold OpenSpy.ServerBrowsing.NotsStay
  rw [List.isChain_append]
  simp [htoken]

/-- The NOTs of an expression stay just if they are not directly behind what they take off. -/
theorem nots_stay_iff (e : Infix) (front : Option CToken) :
    OpenSpy.ServerBrowsing.NotsStay (front.toList ++ e.tokens) ↔
      e.NotsStay leavesBefore front := by
  induction e generalizing front with
  | operand leaf =>
      have hleaf : leaf.token ≠ .operator .not := by cases leaf <;> simp [Operand.token]
      rw [tokens, nots_stay_append hleaf]
      cases front <;> simp [OpenSpy.ServerBrowsing.NotsStay, NotsStay]
  | bracket e ih =>
      have hinside := ih (some .leftBracket)
      have hopen : CToken.leftBracket ≠ .operator .not := by simp
      have hclose : CToken.rightBracket ≠ .operator .not := by simp
      rw [tokens, nots_stay_append hopen, ← List.cons_append, nots_stay_append hclose, NotsStay,
        ← hinside]
      cases front <;> simp [OpenSpy.ServerBrowsing.NotsStay]
  | not e ih =>
      have hinside := ih (some (.operator .not))
      rw [tokens, NotsStay, ← hinside]
      cases front <;> simp [OpenSpy.ServerBrowsing.NotsStay]
  | binary type h left right ihl ihr =>
      have hsign : CToken.operator type ≠ .operator .not := by simp [h]
      rw [tokens, ← List.append_assoc, nots_stay_append hsign, ihl front, NotsStay,
        ← ihr (some (.operator type))]
      rfl

/-- The precedences leave an expression no choice but its tree. -/
theorem tree_of_tokens {e other : Infix} (hfits : e.Fits) (hother : other.Fits)
    (htokens : e.tokens = other.tokens) : e.tree = other.tree := by
  -- a conversion whose NOTs take nothing off the stack
  let leaves (type : Operator) (top : CToken) : Bool := type ≠ .not && leavesBefore type top
  have hbinary : ∀ type ≠ .not, leaves type = leavesBefore type := by
    intro type htype
    funext top
    simp [leaves, htype]
  have hstay (e : Infix) (front : Option CToken) : e.NotsStay leaves front := by
    induction e generalizing front with
    | operand leaf => trivial
    | bracket e ih => exact ih _
    | not e ih => exact ⟨fun _ _ => rfl, ih _⟩
    | binary type h left right ihl ihr => exact ⟨ihl _, ihr _⟩
  have hpostfix : e.tree.postfixTokens = other.tree.postfixTokens := by
    rw [← rpn_loop_whole hbinary hfits (hstay e none),
      ← rpn_loop_whole hbinary hother (hstay other none), htokens]
  exact Expr.postfix_tokens_inj hpostfix

/-- The tokens come in the order of the tree exactly if the NOTs stay. -/
theorem convert_eq_iff {e : Infix} (hfits : e.Fits) :
    convertToRPN e.tokens = e.tree.postfixTokens ↔
      OpenSpy.ServerBrowsing.NotsStay e.tokens := by
  have hchain := nots_stay_iff e none
  rw [Option.toList_none, List.nil_append] at hchain
  rw [hchain, convertToRPN, rpn_loop_eq]
  constructor
  · intro hconvert
    by_contra hnots
    obtain ⟨before, after, later, type, leaf, hloop, hemitted⟩ :=
      rpn_loop_stray hfits [] [] (fun top htop => by cases htop) hnots
    rw [List.append_nil] at hloop
    rw [hloop, ← emitted_pending, hemitted, List.append_assoc, List.cons_append] at hconvert
    have htoken := (List.cons.inj (List.append_cancel_left hconvert)).1
    cases leaf <;> cases htoken
  · exact rpn_loop_whole (fun _ _ => rfl) hfits

end Infix

end Conversion

section Evaluation

/-- A binary operator takes two operands off the stack and leaves what is under them. -/
theorem apply_operator_binary {type : Operator} (h : type ≠ .not) (rh lh : CToken)
    (rest : List CToken) :
    applyOperator type (rh :: lh :: rest) =
      (applyOperator type [rh, lh]).map fun result => (result.1, rest) := by
  have harithmetic (op : Int → Int → Int) : arithmetic op (rh :: lh :: rest) =
      (arithmetic op [rh, lh]).map fun result => (result.1, rest) := by
    cases lh with
    | integer l => simp [arithmetic, Option.map_map, Function.comp_def]
    | _ => rfl
  have hdivide : divide (rh :: lh :: rest) =
      (divide [rh, lh]).map fun result => (result.1, rest) := by
    cases rh with
    | integer r =>
        cases lh with
        | integer l =>
            simp only [divide, CToken.getInt, Option.bind_eq_bind, Option.bind_some]
            split_ifs <;> rfl
        | _ =>
            simp only [divide, CToken.getInt, Option.bind_eq_bind, Option.bind_some]
            split_ifs <;> rfl
    | _ => rfl
  cases type with
  | not => exact absurd rfl h
  | add => exact harithmetic _
  | subtract => exact harithmetic _
  | multiply => exact harithmetic _
  | divide => exact hdivide
  | _ => rfl

/-- NOT takes one operand off the stack. -/
theorem apply_operator_not (top : CToken) (rest : List CToken) :
    applyOperator .not (top :: rest) =
      (applyOperator .not [top]).map fun result => (result.1, rest) := by
  cases top <;> rfl

/-- The tokens of a tree put its value on the stack. -/
theorem Expr.eval_postfix (value : Bytes → Bytes) (e : Expr) (stack : List CToken) :
    e.postfixTokens.foldlM (evalStack value) stack = (e.eval value).map (· :: stack) := by
  induction e generalizing stack with
  | operand leaf => cases leaf <;> rfl
  | not e ih =>
      rw [postfixTokens, List.foldlM_append, ih, eval]
      cases e.eval value with
      | none => rfl
      | some top =>
          simp [evalStack, apply_operator_not top stack, Option.map_map, Function.comp_def]
  | binary type h left right ihl ihr =>
      rw [postfixTokens, List.foldlM_append, List.foldlM_append, ihl, eval]
      cases left.eval value with
      | none => rfl
      | some lh =>
          simp only [Option.map_some, Option.bind_eq_bind, Option.bind_some, ihr]
          cases right.eval value with
          | none => rfl
          | some rh =>
              simp [evalStack, apply_operator_binary h rh lh stack, Option.map_map,
                Function.comp_def]

/-- The answer of the tokens of a tree is the truth of its value. -/
theorem evaluate_postfix (e : Expr) (kvList : Fields) :
    (evaluate e.postfixTokens kvList).map Prod.fst = (e.eval kvList.read).map isTrue := by
  have htop (top : CToken) : topIsTrue [top] = isTrue top := by cases top <;> rfl
  rw [evaluate_eq, e.eval_postfix, Option.map_map]
  simp [Function.comp_def, htop]

end Evaluation

/-- A filter is converted to the order of its tree exactly if no NOT is directly behind a NOT, a
plus, a minus, a star or a slash, and then it has the answer of the tree. -/
theorem filter_follows_tree (e : Infix) (hfits : e.Fits) :
    (convertToRPN e.tokens = e.tree.postfixTokens ↔ NotsStay e.tokens) ∧
      (NotsStay e.tokens → ∀ kvList : Fields,
        (evaluate (convertToRPN e.tokens) kvList).map Prod.fst =
          (e.tree.eval kvList.read).map isTrue) := by
  have hconvert := Infix.convert_eq_iff hfits
  refine ⟨hconvert, fun hstay kvList => ?_⟩
  rw [hconvert.mpr hstay]
  exact evaluate_postfix e.tree kvList

/-- `a = 1 and not (b + 2 > 3)`. -/
theorem filter_follows_tree_of_brackets :
    let e : Infix := .binary .and (by simp)
      (.binary .equals (by simp) (.operand (.var (ascii "a"))) (.operand (.integer 1)))
      (.not (.bracket (.binary .greater (by simp)
        (.binary .add (by simp) (.operand (.var (ascii "b"))) (.operand (.integer 2)))
        (.operand (.integer 3)))))
    e.Fits ∧ (convertToRPN e.tokens = e.tree.postfixTokens ↔ NotsStay e.tokens) ∧
      (NotsStay e.tokens → ∀ kvList : Fields,
        (evaluate (convertToRPN e.tokens) kvList).map Prod.fst =
          (e.tree.eval kvList.read).map isTrue) :=
  ⟨by decide, filter_follows_tree _ (by decide)⟩

/-- `a or not not b` with 1 for both is converted to `(not a) or (not b)`. -/
theorem second_not_takes_first :
    ¬ ∀ (e : Infix) (kvList : Fields), e.Fits →
      (evaluate (convertToRPN e.tokens) kvList).map Prod.fst =
        (e.tree.eval kvList.read).map isTrue := by
  intro h
  have hcase := h
    (.binary .or (by simp) (.operand (.var (ascii "a"))) (.not (.not (.operand (.var (ascii "b"))))))
    (fun _ => some (ascii "1")) (by decide)
  revert hcase
  decide

end OpenSpy.ServerBrowsing
