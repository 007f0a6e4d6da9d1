import QueryPipeline.Expr.Rules
import QueryPipeline.Proofs.Phrase

/-!
# The phrases of expressions

The grammar of expressions as a relation between sequences of tokens and expressions, one relation
for each level of precedence:

    or      := and (OR and)*
    and     := cmp (AND cmp)*
    cmp     := add | add [NOT] IN ( list ) | add (cmpop add)+
    add     := mul ((+ | -) mul)*
    mul     := unary ((* | / | %) unary)*
    unary   := (NOT | -) unary | primary
    primary := NUMBER | STRING | NULL | * | name | name . IDENTIFIER | name . *
             | name ( [DISTINCT] [list] ) | CASE [or] (WHEN or THEN or)+ [ELSE or] END | ( or )
    list    := or (, or)*

Repeated operators of one level group to the left, which `Chain` says once for all levels.  A phrase
is not empty, and its first token is of one of a few kinds (`Disjunction.begins`); the rules look at
it to tell whether an optional expression is there.
-/

namespace QueryPipeline.Grammar

/-- Operands with operators of one level between them, grouped to the left. -/
inductive Chain (operator? : Kind → Option BinaryOperator) (Operand : Phrase Expr) : Phrase Expr
  | operand {us : List Token} {e : Expr} : Operand us e → Chain operator? Operand us e
  | operator {us vs : List Token} {t : Token} {k : Kind} {operator : BinaryOperator}
      {left right : Expr} :
      Chain operator? Operand us left → t.kind? = some k → operator? k = some operator →
      Operand vs right → Chain operator? Operand (us ++ t :: vs) (.binary left operator right)

mutual

inductive Disjunction : Phrase Expr
  | mk {us : List Token} {e : Expr} :
      Chain BinaryOperator.disjunction? Conjunction us e → Disjunction us e

inductive Conjunction : Phrase Expr
  | mk {us : List Token} {e : Expr} :
      Chain BinaryOperator.conjunction? Comparison us e → Conjunction us e

/-- Comparisons in a row, or one membership test. -/
inductive Comparison : Phrase Expr
  | chain {us : List Token} {e : Expr} :
      Chain BinaryOperator.comparison? Sum us e → Comparison us e
  | isIn {us vs : List Token} {t : Token} {e : Expr} {es : List Expr} :
      Sum us e → t.kind? = some (.keyword .IN) → Values vs es →
      Comparison (us ++ t :: vs) (.membership e es false)
  | notIn {us vs : List Token} {s t : Token} {e : Expr} {es : List Expr} :
      Sum us e → s.kind? = some (.keyword .NOT) → t.kind? = some (.keyword .IN) → Values vs es →
      Comparison (us ++ s :: t :: vs) (.membership e es true)

inductive Sum : Phrase Expr
  | mk {us : List Token} {e : Expr} : Chain BinaryOperator.sum? Product us e → Sum us e

inductive Product : Phrase Expr
  | mk {us : List Token} {e : Expr} : Chain BinaryOperator.product? Unary us e → Product us e

inductive Unary : Phrase Expr
  | primary {us : List Token} {e : Expr} : Primary us e → Unary us e
  | operator {t : Token} {k : Kind} {operator : UnaryOperator} {us : List Token} {e : Expr} :
      t.kind? = some k → UnaryOperator.ofKind? k = some operator → Unary us e →
      Unary (t :: us) (.unary operator e)

inductive Primary : Phrase Expr
  | number {t : Token} : t.kind? = some .number → Primary [t] (.literal (.number t.text))
  | string {t : Token} : t.kind? = some .string → Primary [t] (.literal (.string t.text))
  | null {t : Token} : t.kind? = some (.keyword .NULL) → Primary [t] (.literal .null)
  | asterisk {t : Token} : t.kind? = some (.sign .asterisk) → Primary [t] (Expr.wildcard none)
  | name {t : Token} {k : Kind} :
      t.kind? = some k → k.isName = true → Primary [t] (.column ⟨t.text, none, none⟩)
  | qualified {t d u : Token} {k : Kind} :
      t.kind? = some k → k.isName = true → d.kind? = some (.mark .dot) →
      u.kind? = some .identifier → Primary [t, d, u] (.column ⟨u.text, some t.text, none⟩)
  | wildcard {t d u : Token} {k : Kind} :
      t.kind? = some k → k.isName = true → d.kind? = some (.mark .dot) →
      u.kind? = some (.sign .asterisk) → Primary [t, d, u] (Expr.wildcard (some t.text))
  | call {t l r : Token} {k : Kind} {us vs : List Token} {distinct : Bool}
      {arguments : Option (List Expr)} :
      t.kind? = some k → k.isName = true → l.kind? = some (.mark .lparen) →
      Phrase.Flag (.keyword .DISTINCT) us distinct →
      Phrase.Maybe (Phrase.Separated (.mark .comma) Disjunction) vs arguments →
      r.kind? = some (.mark .rparen) →
      Primary (t :: l :: (us ++ (vs ++ [r]))) (.call t.text (arguments.getD []) distinct none)
  | caseOf {t u : Token} {us vs ws : List Token} {operand otherwise : Option Expr}
      {whens : List (Expr × Expr)} :
      t.kind? = some (.keyword .CASE) → Phrase.Maybe Disjunction us operand →
      Branches vs whens → Phrase.After (.keyword .ELSE) Disjunction ws otherwise →
      u.kind? = some (.keyword .END) →
      Primary (t :: (us ++ (vs ++ (ws ++ [u])))) (.caseOf operand whens otherwise)
  | parens {l r : Token} {us : List Token} {e : Expr} :
      l.kind? = some (.mark .lparen) → Disjunction us e → r.kind? = some (.mark .rparen) →
      Primary (l :: (us ++ [r])) e

/-- The values of a membership test, in parentheses. -/
inductive Values : Phrase (List Expr)
  | mk {l r : Token} {us : List Token} {es : List Expr} :
      l.kind? = some (.mark .lparen) → Phrase.Separated (.mark .comma) Disjunction us es →
      r.kind? = some (.mark .rparen) → Values (l :: (us ++ [r])) es

/-- The branches of a case, one at least. -/
inductive Branches : Phrase (List (Expr × Expr))
  | one {w t : Token} {us vs : List Token} {condition result : Expr} :
      w.kind? = some (.keyword .WHEN) → Disjunction us condition →
      t.kind? = some (.keyword .THEN) → Disjunction vs result →
      Branches (w :: (us ++ t :: vs)) [(condition, result)]
  | more {w t : Token} {us vs ws : List Token} {condition result : Expr}
      {whens : List (Expr × Expr)} :
      w.kind? = some (.keyword .WHEN) → Disjunction us condition →
      t.kind? = some (.keyword .THEN) → Disjunction vs result → Branches ws whens →
      Branches (w :: (us ++ t :: (vs ++ ws))) ((condition, result) :: whens)

end

/-! ## How phrases begin -/

/-- The kinds of the first token of a primary expression. -/
def startsPrimary : Kind → Bool
  | .number => true
  | .string => true
  | .keyword .NULL => true
  | .keyword .CASE => true
  | .sign .asterisk => true
  | .mark .lparen => true
  | k => k.isName

/-- The kinds of the first token of an expression. -/
def startsExpression (k : Kind) : Bool :=
  startsPrimary k || (UnaryOperator.ofKind? k).isSome

theorem startsPrimary_of_isName {k : Kind} (h : k.isName = true) : startsPrimary k = true := by
  unfold startsPrimary
  split
  all_goals first | rfl | exact h

/-- No primary expression starts with a prefix operator. -/
theorem ofKind?_of_startsPrimary {k : Kind} (h : startsPrimary k = true) :
    UnaryOperator.ofKind? k = none := by
  unfold UnaryOperator.ofKind?
  split
  · cases h
  · cases h
  · rfl

theorem Chain.begins {operator? : Kind → Option BinaryOperator} {Operand : Phrase Expr}
    {S : Kind → Prop} (hOperand : ∀ us e, Operand us e → Phrase.Begins S us) {us : List Token}
    {e : Expr} (h : Chain operator? Operand us e) : Phrase.Begins S us := by
  induction h with
  | operand h => exact hOperand _ _ h
  | operator _ _ _ _ ih => exact ih.append _

theorem Primary.begins {us : List Token} {e : Expr} (h : Primary us e) :
    Phrase.Begins (startsPrimary · = true) us := by
  cases h with
  | number h => exact ⟨_, _, _, rfl, h, rfl⟩
  | string h => exact ⟨_, _, _, rfl, h, rfl⟩
  | null h => exact ⟨_, _, _, rfl, h, rfl⟩
  | asterisk h => exact ⟨_, _, _, rfl, h, rfl⟩
  | name h hk => exact ⟨_, _, _, rfl, h, startsPrimary_of_isName hk⟩
  | qualified h hk => exact ⟨_, _, _, rfl, h, startsPrimary_of_isName hk⟩
  | wildcard h hk => exact ⟨_, _, _, rfl, h, startsPrimary_of_isName hk⟩
  | call h hk => exact ⟨_, _, _, rfl, h, startsPrimary_of_isName hk⟩
  | caseOf h => exact ⟨_, _, _, rfl, h, rfl⟩
  | parens h => exact ⟨_, _, _, rfl, h, rfl⟩

theorem Unary.begins {us : List Token} {e : Expr} (h : Unary us e) :
    Phrase.Begins (startsExpression · = true) us := by
  cases h with
  | primary h => exact h.begins.mono fun k hk => by simp [startsExpression, hk]
  | operator h ho => exact ⟨_, _, _, rfl, h, by simp [startsExpression, ho]⟩

theorem Product.begins {us : List Token} {e : Expr} :
    Product us e → Phrase.Begins (startsExpression · = true) us
  | .mk h => h.begins fun _ _ => Unary.begins

theorem Sum.begins {us : List Token} {e : Expr} :
    Sum us e → Phrase.Begins (startsExpression · = true) us
  | .mk h => h.begins fun _ _ => Product.begins

theorem Comparison.begins {us : List Token} {e : Expr} (h : Comparison us e) :
    Phrase.Begins (startsExpression · = true) us := by
  cases h with
  | chain h => exact h.begins fun _ _ => Sum.begins
  | isIn h => exact h.begins.append _
  | notIn h => exact h.begins.append _

theorem Conjunction.begins {us : List Token} {e : Expr} :
    Conjunction us e → Phrase.Begins (startsExpression · = true) us
  | .mk h => h.begins fun _ _ => Comparison.begins

theorem Disjunction.begins {us : List Token} {e : Expr} :
    Disjunction us e → Phrase.Begins (startsExpression · = true) us
  | .mk h => h.begins fun _ _ => Conjunction.begins

theorem Expressions.begins {us : List Token} {es : List Expr}
    (h : Phrase.Separated (.mark .comma) Disjunction us es) :
    Phrase.Begins (startsExpression · = true) us := by
  cases h with
  | one h => exact h.begins
  | more h => exact h.begins.append _

theorem Branches.begins {us : List Token} {whens : List (Expr × Expr)} (h : Branches us whens) :
    ∃ w vs, us = w :: vs ∧ w.kind? = some (.keyword .WHEN) := by
  cases h with
  | one hw => exact ⟨_, _, rfl, hw⟩
  | more hw => exact ⟨_, _, rfl, hw⟩

/-! ## From one level to the next -/

theorem Unary.product {us : List Token} {e : Expr} (h : Unary us e) : Product us e :=
  .mk (.operand h)

theorem Product.sum {us : List Token} {e : Expr} (h : Product us e) : Sum us e :=
  .mk (.operand h)

theorem Sum.comparison {us : List Token} {e : Expr} (h : Sum us e) : Comparison us e :=
  .chain (.operand h)

theorem Comparison.conjunction {us : List Token} {e : Expr} (h : Comparison us e) :
    Conjunction us e :=
  .mk (.operand h)

theorem Conjunction.disjunction {us : List Token} {e : Expr} (h : Conjunction us e) :
    Disjunction us e :=
  .mk (.operand h)

theorem Sum.disjunction {us : List Token} {e : Expr} (h : Sum us e) : Disjunction us e :=
  h.comparison.conjunction.disjunction

theorem Unary.disjunction {us : List Token} {e : Expr} (h : Unary us e) : Disjunction us e :=
  h.product.sum.disjunction

theorem Primary.sum {us : List Token} {e : Expr} (h : Primary us e) : Sum us e :=
  (Unary.primary h).product.sum

theorem Primary.disjunction {us : List Token} {e : Expr} (h : Primary us e) : Disjunction us e :=
  h.sum.disjunction

/-! ## Bounded phrases -/

theorem Chain.upTo {operator? : Kind → Option BinaryOperator} {Operand : Phrase Expr} {n : Nat}
    {us : List Token} {e : Expr} (h : Chain operator? Operand us e) (hn : us.length ≤ n) :
    Chain operator? (Phrase.upTo n Operand) us e := by
  induction h with
  | operand h => exact .operand ⟨hn, h⟩
  | operator _ hk ho h ih =>
    simp only [List.length_append, List.length_cons] at hn
    exact .operator (ih (by omega)) hk ho ⟨by omega, h⟩

end QueryPipeline.Grammar
