import QueryPipeline.Proofs.Expr.Sound
import QueryPipeline.Proofs.Render
import QueryPipeline.Proofs.Rule.Blame

/-!
# Expressions fail where they cannot go on

Where a rule of expressions fails, the tokens in front of the one that it blames are the start of a
phrase of its level.  So an expression is given up only at a token that cannot stand there: what has
been seen before could be completed.  There is one lemma for each rule, as for soundness, and each
names the tokens that close what is open: `1` for a missing operand, parentheses, `THEN 1`, `END`.
-/

namespace QueryPipeline

/-- A number, as an operand where one is missing. -/
def Token.one : Token :=
  ⟨.number, "1", 0⟩

namespace Grammar

theorem primary_one : Primary [Token.one] (.literal (.number "1")) :=
  .number rfl

theorem disjunction_one : Disjunction [Token.one] (.literal (.number "1")) :=
  primary_one.disjunction

theorem values_one : Values (Token.enclosed [Token.one]) [.literal (.number "1")] :=
  .mk (Token.kind?_ofMark .lparen) (.one disjunction_one) (Token.kind?_ofMark .rparen)

/-- `WHEN 1 THEN 1` -/
def branchOne : List Token :=
  [Token.ofKeyword .WHEN, Token.one, Token.ofKeyword .THEN, Token.one]

theorem branches_one :
    Branches branchOne [(.literal (.number "1"), .literal (.number "1"))] :=
  .one (Token.kind?_ofKeyword .WHEN) disjunction_one (Token.kind?_ofKeyword .THEN) disjunction_one

end Grammar

namespace Expr

open Rule Grammar
open Phrase (Started started_of started_nil)

variable {ts : List Token}

/-- A loop over operators goes on with the chain that was read before it. -/
theorem chainFrom_blames {operator? : Kind → Option BinaryOperator} {operand : Rule Expr}
    {P : Phrase Expr} (hne : operator? .eof = none) (hsound : Sound operand P)
    (hoperand : ∀ ts, Blames operand ts (Started P)) :
    ∀ (n : Nat) {ts us : List Token} {left : Expr}, Chain operator? P us left →
      Blames (chainFrom operator? operand n left) ts fun vs =>
        Started (Chain operator? P) (us ++ vs) := by
  intro n
  induction n with
  | zero =>
    intro ts us left _
    exact blames_pure _
  | succ n ih =>
    intro ts us left hus
    refine Blames.look fun t ts₁ k heq hk => ?_
    cases ho : operator? k with
    | none => exact blames_pure _
    | some operator =>
      have hkne : k ≠ .eof := by
        rintro rfl
        rw [hne] at ho
        cases ho
      rw [heq]
      refine Blames.advance hk hkne ?_
      refine Blames.bind ((hoperand ts₁).mono fun vs hvs => ?_) hsound fun vs rest right hvs => ?_
      · refine hvs.close [] fun ws right hright => ⟨.binary left operator right, ?_⟩
        simpa using Chain.operator hus hk ho hright
      · refine (ih (.operator hus hk ho hvs)).mono fun ws hws => ?_
        simpa using hws

theorem chain_blames {operator? : Kind → Option BinaryOperator} {operand : Rule Expr}
    {P : Phrase Expr} (hne : operator? .eof = none) (hsound : Sound operand P)
    (hoperand : ∀ ts, Blames operand ts (Started P)) :
    Blames (chain operator? operand) ts (Started (Chain operator? P)) := by
  refine Blames.bind ((hoperand ts).widen fun us e he => ?_) hsound fun us rest left hus => ?_
  · exact ⟨e, .operand he⟩
  · exact Blames.budget fun n => chainFrom_blames hne hsound hoperand n (.operand hus)

section Levels

variable {expr : Rule Expr} (hsound : Sound expr Disjunction)
  (hexpr : ∀ ts, Blames expr ts (Started Disjunction))

include hsound hexpr

theorem expressions_blames :
    Blames (expressions expr) ts (Started (Phrase.Separated (.mark .comma) Disjunction)) :=
  sepBy_blames (by simp) hsound hexpr

theorem valueList_blames : Blames (valueList expr) ts (Started Values) := by
  have hclose := Token.kind?_ofMark .rparen
  refine Blames.consume (by simp) (started_nil values_one) fun l ts₁ hl => ?_
  refine Blames.closed (expressions_blames hsound hexpr) (expressions_sound hsound)
    fun us vs es hes => ⟨vs ++ [Token.ofMark .rparen], es, ?_⟩
  simpa using Values.mk hl hes hclose

theorem argumentList_blames : Blames (argumentList expr) ts
    (Started (Phrase.Maybe (Phrase.Separated (.mark .comma) Disjunction))) := by
  refine Blames.look fun t ts₁ k heq hk => ?_
  by_cases hparen : k = .mark .rparen
  · rw [if_pos hparen]
    exact blames_pure _
  · rw [if_neg hparen]
    exact (expressions_blames hsound hexpr).widen fun us es hes => ⟨some es, .present hes⟩

/-- A name in front of the arguments makes a call. -/
theorem callOf_blames {t : Token} {k : Kind} (ht : t.kind? = some k) (hk : k.isName = true) :
    Blames (callOf expr t.text) ts fun us => Started Primary (t :: us) := by
  have hclose := Token.kind?_ofMark .rparen
  refine Blames.consume (by simp) (started_of (.name ht hk)) fun l ts₁ hl => ?_
  refine Blames.bind (quiet_accept _).blames (accept_sound (by simp)) fun us ts₂ distinct hus => ?_
  refine Blames.bind ((argumentList_blames hsound hexpr).mono fun vs hvs => ?_)
    (argumentList_sound hsound) fun vs ts₃ arguments hvs => ?_
  · exact hvs.close [Token.ofMark .rparen] fun ws o ho =>
      ⟨_, by simpa using Primary.call ht hk hl hus ho hclose⟩
  · obtain ⟨o, hvs, rfl⟩ := hvs
    refine Blames.bindQuiet (blames_consume ?_) fun _ => quiet_pure _
    exact ⟨[Token.ofMark .rparen], _, by simpa using Primary.call ht hk hl hus hvs hclose⟩

/-- The loop over branches fails inside one of them. -/
theorem branches_blames : ∀ (n : Nat) {ts : List Token},
    Blames (branches expr n) ts (Started Branches) := by
  have hthen := Token.kind?_ofKeyword .THEN
  intro n
  induction n with
  | zero =>
    intro ts
    exact blames_pure _
  | succ n ih =>
    intro ts
    refine Blames.accept (by simp) (fun w ts₁ _ hw => ?_) fun _ => blames_pure _
    refine Blames.bind ((hexpr ts₁).mono fun us hus => ?_) hsound fun us ts₂ condition hus => ?_
    · exact hus.close [Token.ofKeyword .THEN, Token.one] fun vs e he =>
        ⟨_, by simpa using Branches.one hw he hthen disjunction_one⟩
    refine Blames.consume (by simp) ?_ fun t ts₃ ht => ?_
    · exact ⟨[Token.ofKeyword .THEN, Token.one], _, by
        simpa using Branches.one hw hus hthen disjunction_one⟩
    refine Blames.bind ((hexpr ts₃).mono fun vs hvs => ?_) hsound fun vs ts₄ result hvs => ?_
    · exact hvs.close [] fun ws e he =>
        ⟨_, by simpa using Branches.one hw hus ht he⟩
    · refine Blames.bindQuiet (ih.mono fun ws hws => ?_) fun _ => quiet_pure _
      exact hws.close [] fun xs whens hwhens =>
        ⟨_, by simpa using Branches.more hw hus ht hvs hwhens⟩

omit hsound in
theorem caseOperand_blames :
    Blames (caseOperand expr) ts (Started (Phrase.Maybe Disjunction)) := by
  refine Blames.look fun t ts₁ k heq hk => ?_
  by_cases hwhen : k = .keyword .WHEN
  · rw [if_pos hwhen]
    exact blames_pure _
  · rw [if_neg hwhen]
    refine Blames.bindQuiet ((hexpr ts).widen fun us e he => ?_) fun _ => quiet_pure _
    exact ⟨some e, .present he⟩

theorem someBranches_blames : Blames (someBranches expr) ts (Started Branches) := by
  refine Blames.budget fun n => ?_
  refine Blames.bind (branches_blames hsound hexpr n) (branches_sound hsound n)
    fun us rest whens hus => ?_
  rcases hus with ⟨rfl, rfl⟩ | hus
  · exact blames_unexpected (started_nil branches_one)
  · cases whens with
    | nil => cases hus
    | cons when whens => exact blames_pure _

theorem caseExpression_blames : Blames (caseExpression expr) ts (Started Primary) := by
  have hend := Token.kind?_ofKeyword .END
  refine Blames.consume (by simp) (started_nil primary_one) fun t ts₁ ht => ?_
  refine Blames.bind ((caseOperand_blames hexpr).mono fun us hus => ?_)
    (caseOperand_sound hsound) fun us ts₂ operand hus => ?_
  · exact hus.close (branchOne ++ [Token.ofKeyword .END]) fun vs o ho =>
      ⟨_, by simpa using Primary.caseOf ht ho branches_one .absent hend⟩
  refine Blames.bind ((someBranches_blames hsound hexpr).mono fun vs hvs => ?_)
    (someBranches_sound hsound) fun vs ts₃ whens hvs => ?_
  · exact hvs.close [Token.ofKeyword .END] fun ws whens hwhens =>
      ⟨_, by simpa using Primary.caseOf ht hus hwhens .absent hend⟩
  refine Blames.closed (after_blames (by simp) hexpr) (after_sound (by simp) hsound)
    fun ws xs o ho => ⟨xs ++ [Token.ofKeyword .END], .caseOf operand whens o, ?_⟩
  simpa using Primary.caseOf ht hus hvs ho hend

/-- A name and what follows it. -/
theorem named_blames {t : Token} {k : Kind} (ht : t.kind? = some k) (hk : k.isName = true) :
    Blames (named expr t.text) ts fun us => Started Primary (t :: us) := by
  refine Blames.look fun s ts₁ j heq hs => ?_
  split
  · exact callOf_blames hsound hexpr ht hk
  · rw [heq]
    refine Blames.advance hs (by simp) ?_
    refine Blames.accept (by simp) (fun _ _ _ _ => blames_pure _) fun _ => ?_
    refine Blames.bindQuiet (blames_consume ?_) fun _ => quiet_pure _
    exact ⟨[Token.ofName "x"], _, .qualified ht hk hs rfl⟩
  · exact blames_pure _

theorem primary_blames : Blames (primary expr) ts (Started Primary) := by
  refine Blames.get fun c hc => Blames.look fun t ts₁ k heq hk => ?_
  split
  · exact (quiet_advance.bind fun _ => quiet_pure _).blames
  · exact (quiet_advance.bind fun _ => quiet_pure _).blames
  · exact (quiet_advance.bind fun _ => quiet_pure _).blames
  · exact (quiet_advance.bind fun _ => quiet_pure _).blames
  · exact caseExpression_blames hsound hexpr
  · have hclose := Token.kind?_ofMark .rparen
    rw [heq]
    refine Blames.advance hk (by simp) ?_
    refine Blames.closed (hexpr ts₁) hsound
      fun us vs e he => ⟨vs ++ [Token.ofMark .rparen], e, ?_⟩
    simpa using Primary.parens hk he hclose
  · by_cases hname : k.isName = true
    · have hne : k ≠ .eof := by
        rintro rfl
        cases hname
      rw [if_pos hname]
      have hcurrent : c.current = t := by
        rw [heq] at hc
        exact hc.current
      rw [heq, hcurrent]
      exact Blames.advance hk hne (named_blames hsound hexpr hk hname)
    · rw [if_neg hname]
      exact blames_unexpected (started_nil primary_one)

theorem unaryFrom_blames : ∀ (n : Nat) {ts : List Token},
    Blames (unaryFrom expr n) ts (Started Unary) := by
  have hprimary : ∀ ts, Blames (primary expr) ts (Started Unary) :=
    fun ts => (primary_blames hsound hexpr).widen fun us e he => ⟨e, .primary he⟩
  intro n
  induction n with
  | zero =>
    intro ts
    exact hprimary ts
  | succ n ih =>
    intro ts
    refine Blames.look fun t ts₁ k heq hk => ?_
    cases ho : UnaryOperator.ofKind? k with
    | none => exact hprimary ts
    | some operator =>
      have hne : k ≠ .eof := by
        rintro rfl
        cases ho
      rw [heq]
      refine Blames.advance hk hne ?_
      refine Blames.bindQuiet (ih.mono fun us hus => ?_) fun _ => quiet_pure _
      exact hus.close [] fun vs e he => ⟨_, by simpa using Unary.operator hk ho he⟩

theorem unaryLevel_blames (ts : List Token) : Blames (unaryLevel expr) ts (Started Unary) :=
  Blames.budget fun n => unaryFrom_blames hsound hexpr n

theorem productLevel_blames (ts : List Token) : Blames (productLevel expr) ts (Started Product) :=
  (chain_blames rfl (unaryLevel_sound hsound) (unaryLevel_blames hsound hexpr)).widen
    fun _ e he => ⟨e, .mk he⟩

theorem sumLevel_blames (ts : List Token) : Blames (sumLevel expr) ts (Started Sum) :=
  (chain_blames rfl (productLevel_sound hsound) (productLevel_blames hsound hexpr)).widen
    fun _ e he => ⟨e, .mk he⟩

theorem comparisonLevel_blames (ts : List Token) :
    Blames (comparisonLevel expr) ts (Started Comparison) := by
  refine Blames.bind ((sumLevel_blames hsound hexpr ts).widen fun us e he => ⟨e, he.comparison⟩)
    (sumLevel_sound hsound) fun us ts₁ left hus => ?_
  refine Blames.look fun s ts₂ k heq hs => ?_
  split
  · rw [heq]
    refine Blames.advance hs (by simp) ?_
    refine Blames.bindQuiet ((valueList_blames hsound hexpr).mono fun vs hvs => ?_)
      fun _ => quiet_pure _
    exact hvs.close [] fun ws es hes =>
      ⟨_, by simpa using Comparison.isIn hus hs hes⟩
  · rw [heq]
    refine Blames.lookNext fun j hj => ?_
    by_cases hin : j = .keyword .IN
    · rw [if_pos hin]
      subst hin
      cases ts₂ with
      | nil => exact absurd (hs.symm.trans hj) (by simp)
      | cons t ts₃ =>
        refine Blames.advance hs (by simp) (Blames.advance hj (by simp) ?_)
        refine Blames.bindQuiet ((valueList_blames hsound hexpr).mono fun vs hvs => ?_)
          fun _ => quiet_pure _
        exact hvs.close [] fun ws es hes => ⟨_, by simpa using Comparison.notIn hus hs hj hes⟩
    · rw [if_neg hin]
      exact blames_pure _
  · refine Blames.budget fun n => ?_
    refine (chainFrom_blames rfl (sumLevel_sound hsound) (sumLevel_blames hsound hexpr) n
      (.operand hus)).mono fun vs hvs => ?_
    exact hvs.mono fun _ e he => ⟨e, .chain he⟩

theorem conjunctionLevel_blames (ts : List Token) :
    Blames (conjunctionLevel expr) ts (Started Conjunction) :=
  (chain_blames rfl (comparisonLevel_sound hsound) (comparisonLevel_blames hsound hexpr)).widen
    fun _ e he => ⟨e, .mk he⟩

theorem disjunctionLevel_blames (ts : List Token) :
    Blames (disjunctionLevel expr) ts (Started Disjunction) :=
  (chain_blames rfl (conjunctionLevel_sound hsound) (conjunctionLevel_blames hsound hexpr)).widen
    fun _ e he => ⟨e, .mk he⟩

end Levels

theorem nested_blames : ∀ (n : Nat) (ts : List Token),
    Blames (nested n) ts (Started Disjunction) := by
  intro n
  induction n with
  | zero =>
    intro ts
    exact blames_unexpected (started_nil disjunction_one)
  | succ n ih => exact disjunctionLevel_blames (nested_sound n) ih

/-- **An expression fails only where what stands before could still be completed.** -/
theorem expression_blames (ts : List Token) : Blames expression ts (Started Disjunction) :=
  Blames.budget fun n => nested_blames n ts

end Expr
end QueryPipeline
