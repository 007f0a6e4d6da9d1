import QueryPipeline.Proofs.Rule.Lockstep

/-!
# Expressions in lockstep

Every rule of expressions reads the same from related cursors, if the rule for nested expressions
does (`Lockstep.Keeps`).  The lemmas follow the rules line by line; only `primary` and `named` have
something to show, as the texts of the tokens become part of what they read.
-/

namespace QueryPipeline.Expr

open Rule Lockstep

variable {L : Lockstep}

theorem keeps_chainFrom (operator? : Kind → Option BinaryOperator) {operand : Rule Expr}
    (h : L.Keeps operand) (n : Nat) : ∀ left, L.Keeps (chainFrom operator? operand n left) := by
  induction n with
  | zero => exact keeps_pure
  | succ n ih =>
    intro left
    refine Keeps.look fun k => ?_
    split
    · exact keeps_pure left
    · exact (h.bind fun right => ih _).behind

theorem keeps_chain (operator? : Kind → Option BinaryOperator) {operand : Rule Expr}
    (h : L.Keeps operand) : L.Keeps (chain operator? operand) :=
  h.bind fun left => keeps_budget.bind fun n => keeps_chainFrom operator? h n left

/-- Take a token of a kind that the grammar asks for, and go on. -/
theorem keeps_need {α : Type} {k : Kind} {x : Rule α} (hk : k.hasFixedName = true)
    (h : L.Keeps x) : L.Keeps (need k >>= fun _ => x) :=
  (agree_consume .expression (L.asksKind hk)).bind fun _ _ _ => h

section Levels

variable {expr : Rule Expr} (h : L.Keeps expr)
include h

theorem keeps_expressions : L.Keeps (expressions expr) :=
  keeps_sepBy (.mark .comma) h

theorem keeps_valueList : L.Keeps (valueList expr) := by
  refine keeps_need rfl ((keeps_expressions h).bind fun values => ?_)
  exact keeps_need rfl (keeps_pure values)

theorem keeps_argumentList : L.Keeps (argumentList expr) := by
  refine Keeps.look fun k => ?_
  split
  · exact keeps_pure []
  · exact keeps_expressions h

theorem keeps_callOf (name : String) : L.Keeps (callOf expr name) := by
  refine keeps_need rfl ((keeps_accept _).bind fun distinct => ?_)
  exact (keeps_argumentList h).bind fun arguments => keeps_need rfl (keeps_pure _)

theorem keeps_branches (n : Nat) : L.Keeps (branches expr n) := by
  induction n with
  | zero => exact keeps_pure []
  | succ n ih =>
    refine (keeps_accept _).bind fun b => ?_
    split
    · refine h.bind fun condition => keeps_need rfl (h.bind fun result => ?_)
      exact ih.bind fun more => keeps_pure ((condition, result) :: more)
    · exact keeps_pure []

theorem keeps_caseOperand : L.Keeps (caseOperand expr) := by
  refine Keeps.look fun k => ?_
  split
  · exact keeps_pure none
  · exact h.bind fun e => keeps_pure (some e)

theorem keeps_someBranches : L.Keeps (someBranches expr) := by
  refine keeps_budget.bind fun n => (keeps_branches h n).bind fun whens => ?_
  split
  · exact keeps_missing .expression rfl
  · exact keeps_pure whens

theorem keeps_caseExpression : L.Keeps (caseExpression expr) := by
  refine keeps_need rfl ((keeps_caseOperand h).bind fun operand => ?_)
  refine (keeps_someBranches h).bind fun whens => ?_
  exact (keeps_after _ h).bind fun otherwise => keeps_need rfl (keeps_pure _)

theorem keeps_named (name : String) : L.Keeps (named expr name) := by
  refine Keeps.look fun k => ?_
  split
  · exact keeps_callOf h name
  · refine Keeps.behind ((keeps_accept _).bind fun b => ?_)
    split
    · exact keeps_pure _
    · refine (agree_consume .expression (L.asksKind rfl)).bind ?_
      rintro t u ⟨htu, hk⟩
      rw [L.text htu hk rfl]
      exact keeps_pure _
  · exact keeps_pure _

/-- What a literal or a name becomes depends on its text, so the texts have to be the same there. -/
theorem keeps_primary : L.Keeps (primary expr) := by
  refine agree_get fun c d hcd => agreeAt_look hcd fun k hk => ?_
  have htext := L.text (L.current hcd) hk
  split
  · rw [htext rfl]
    exact (keeps_pure _).behind c d hcd
  · rw [htext rfl]
    exact (keeps_pure _).behind c d hcd
  · exact (keeps_pure _).behind c d hcd
  · exact (keeps_pure _).behind c d hcd
  · exact keeps_caseExpression h c d hcd
  · exact Keeps.behind (h.bind fun e => keeps_need rfl (keeps_pure e)) c d hcd
  next hnumber hstring _ _ _ _ =>
    split
    next hname =>
      rw [htext (by grind [Kind.carriesText])]
      exact (keeps_named h _).behind c d hcd
    · exact keeps_unexpected_any .expression c d hcd

theorem keeps_unaryFrom (n : Nat) : L.Keeps (unaryFrom expr n) := by
  induction n with
  | zero => exact keeps_primary h
  | succ n ih =>
    refine Keeps.look fun k => ?_
    split
    · exact keeps_primary h
    · exact (ih.bind fun operand => keeps_pure _).behind

theorem keeps_unaryLevel : L.Keeps (unaryLevel expr) :=
  keeps_budget.bind fun n => keeps_unaryFrom h n

theorem keeps_productLevel : L.Keeps (productLevel expr) :=
  keeps_chain _ (keeps_unaryLevel h)

theorem keeps_sumLevel : L.Keeps (sumLevel expr) :=
  keeps_chain _ (keeps_productLevel h)

theorem keeps_membershipOf (left : Expr) (negated : Bool) :
    L.Keeps (membershipOf expr left negated) :=
  (keeps_valueList h).bind fun _ => keeps_pure _

theorem keeps_comparisonLevel : L.Keeps (comparisonLevel expr) := by
  refine (keeps_sumLevel h).bind fun left => Keeps.look fun k => ?_
  split
  · exact (keeps_membershipOf h left false).behind
  · refine Keeps.lookNext fun j => ?_
    split
    · exact (keeps_membershipOf h left true).behind.behind
    · exact keeps_pure left
  · exact keeps_budget.bind fun n => keeps_chainFrom _ (keeps_sumLevel h) n left

theorem keeps_conjunctionLevel : L.Keeps (conjunctionLevel expr) :=
  keeps_chain _ (keeps_comparisonLevel h)

theorem keeps_disjunctionLevel : L.Keeps (disjunctionLevel expr) :=
  keeps_chain _ (keeps_conjunctionLevel h)

end Levels

theorem keeps_nested (n : Nat) : L.Keeps (nested n) := by
  induction n with
  | zero => exact keeps_unexpected_any .expression
  | succ n ih => exact keeps_disjunctionLevel ih

theorem keeps_expression : L.Keeps Expr.expression :=
  keeps_budget.bind keeps_nested

end QueryPipeline.Expr
