import QueryPipeline.Proofs.Expr.Grammar

/-!
# Expressions are read by the grammar

Whatever the rules of expressions read is a phrase of their level.  The rules of the levels take the
rule for nested expressions as an argument, and so do the lemmas: if nested expressions are phrases,
then so is what the level reads (`primary_sound`, ..., `disjunctionLevel_sound`).  `nested_sound`
ties the knot, by induction on the budget.
-/

namespace QueryPipeline.Expr

open Rule Grammar

/-- A loop over operators extends the chain that was read before it. -/
theorem chainFrom_sound {operator? : Kind → Option BinaryOperator} {operand : Rule Expr}
    {P : Phrase Expr} (hne : operator? .eof = none) (hP : Sound operand P) :
    ∀ (n : Nat) {c d : Cursor} {ts us : List Token} {left e : Expr}, c.At ts →
      Chain operator? P us left → chainFrom operator? operand n left c = .ok e d →
        ∃ vs rest, ts = vs ++ rest ∧ d.At rest ∧ Chain operator? P (us ++ vs) e := by
  intro n
  induction n with
  | zero =>
    intro c d ts us left e hc hus h
    obtain ⟨rfl, rfl⟩ := pure_ok h
    exact ⟨[], ts, rfl, hc, by simpa using hus⟩
  | succ n ih =>
    intro c d ts us left e hc hus h
    obtain ⟨k, t, ts₁, rfl, hk, h₁⟩ := look_bind hc h
    cases ho : operator? k with
    | none =>
      simp only [ho] at h₁
      obtain ⟨rfl, rfl⟩ := pure_ok h₁
      exact ⟨[], t :: ts₁, rfl, hc, by simpa using hus⟩
    | some operator =>
      simp only [ho] at h₁
      have hkne : k ≠ .eof := by
        rintro rfl
        rw [hne] at ho
        cases ho
      obtain ⟨c₁, hc₁, h₂⟩ := advance_bind hc hk hkne h₁
      obtain ⟨vs, ts₂, right, c₂, rfl, hc₂, hright, h₃⟩ := hP.bind hc₁ h₂
      obtain ⟨ws, rest, rfl, hd, he⟩ := ih hc₂ (.operator hus hk ho hright) h₃
      exact ⟨t :: (vs ++ ws), rest, by simp, hd, by simpa using he⟩

theorem chain_sound {operator? : Kind → Option BinaryOperator} {operand : Rule Expr}
    {P : Phrase Expr} (hne : operator? .eof = none) (hP : Sound operand P) :
    Sound (chain operator? operand) (Chain operator? P) := by
  intro c d ts e hc h
  obtain ⟨us, ts₁, left, c₁, rfl, hc₁, hleft, h₁⟩ := hP.bind hc h
  have h₂ := budget_bind hc₁ h₁
  obtain ⟨vs, rest, rfl, hd, he⟩ := chainFrom_sound hne hP _ hc₁ (.operand hleft) h₂
  exact ⟨us ++ vs, rest, by simp, hd, he⟩

section Levels

variable {expr : Rule Expr} (hexpr : Sound expr Disjunction)

include hexpr

theorem expressions_sound :
    Sound (expressions expr) (Phrase.Separated (.mark .comma) Disjunction) :=
  sepBy_sound (by simp) hexpr

theorem valueList_sound : Sound (valueList expr) Values := by
  intro c d ts es hc h
  obtain ⟨l, ts₁, c₁, rfl, hl, hc₁, h₁⟩ := consume_bind hc (by simp) h
  obtain ⟨us, ts₂, values, c₂, rfl, hc₂, hus, h₂⟩ := (expressions_sound hexpr).bind hc₁ h₁
  obtain ⟨r, rest, c₃, rfl, hr, hc₃, h₃⟩ := consume_bind hc₂ (by simp) h₂
  obtain ⟨rfl, rfl⟩ := pure_ok h₃
  exact ⟨l :: (us ++ [r]), rest, by simp, hc₃, .mk hl hus hr⟩

theorem argumentList_sound : Sound (argumentList expr) (fun us es =>
    ∃ o, Phrase.Maybe (Phrase.Separated (.mark .comma) Disjunction) us o ∧ es = o.getD []) := by
  intro c d ts es hc h
  obtain ⟨j, _, _, _, _, h₁⟩ := look_bind hc h
  by_cases hj : j = .mark .rparen
  · rw [if_pos hj] at h₁
    obtain ⟨rfl, rfl⟩ := pure_ok h₁
    exact ⟨[], ts, rfl, hc, none, .absent, rfl⟩
  · rw [if_neg hj] at h₁
    obtain ⟨us, rest, rfl, hd, hus⟩ := expressions_sound hexpr hc h₁
    exact ⟨us, rest, rfl, hd, some es, .present hus, rfl⟩

/-- A name in front of the arguments makes a call. -/
theorem callOf_sound {t : Token} {k : Kind} (ht : t.kind? = some k) (hk : k.isName = true) :
    Sound (callOf expr t.text) (fun us e => Primary (t :: us) e) := by
  intro c d ts e hc h
  obtain ⟨l, ts₁, c₁, rfl, hl, hc₁, h₁⟩ := consume_bind hc (by simp) h
  obtain ⟨us, ts₂, distinct, c₂, rfl, hc₂, hus, h₂⟩ := (accept_sound (by simp)).bind hc₁ h₁
  obtain ⟨vs, ts₃, _, c₃, rfl, hc₃, ⟨o, hvs, rfl⟩, h₃⟩ :=
    (argumentList_sound hexpr).bind hc₂ h₂
  obtain ⟨r, rest, c₄, rfl, hr, hc₄, h₄⟩ := consume_bind hc₃ (by simp) h₃
  obtain ⟨rfl, rfl⟩ := pure_ok h₄
  exact ⟨l :: (us ++ (vs ++ [r])), rest, by simp, hc₄, .call ht hk hl hus hvs hr⟩

/-- The loop over branches reads none, or a phrase of branches. -/
theorem branches_sound : ∀ n, Sound (branches expr n)
    (fun us whens => us = [] ∧ whens = [] ∨ Branches us whens) := by
  intro n
  induction n with
  | zero =>
    intro c d ts whens hc h
    obtain ⟨rfl, rfl⟩ := pure_ok h
    exact ⟨[], ts, rfl, hc, Or.inl ⟨rfl, rfl⟩⟩
  | succ n ih =>
    intro c d ts whens hc h
    obtain ⟨b, c₁, h₁, h₂⟩ := bind_ok h
    rcases accept_ok hc (by simp) h₁ with ⟨rfl, w, ts₁, rfl, hw, hc₁⟩ | ⟨rfl, rfl, _⟩
    · obtain ⟨us, ts₂, condition, c₂, rfl, hc₂, hus, h₃⟩ := hexpr.bind hc₁ h₂
      obtain ⟨t, ts₃, c₃, rfl, ht, hc₃, h₄⟩ := consume_bind hc₂ (by simp) h₃
      obtain ⟨vs, ts₄, result, c₄, rfl, hc₄, hvs, h₅⟩ := hexpr.bind hc₃ h₄
      obtain ⟨ws, rest, more, c₅, rfl, hc₅, hws, h₆⟩ := ih.bind hc₄ h₅
      obtain ⟨rfl, rfl⟩ := pure_ok h₆
      refine ⟨w :: (us ++ t :: (vs ++ ws)), rest, by simp, hc₅, Or.inr ?_⟩
      rcases hws with ⟨rfl, rfl⟩ | hws
      · rw [List.append_nil]
        exact .one hw hus ht hvs
      · exact .more hw hus ht hvs hws
    · obtain ⟨rfl, rfl⟩ := pure_ok h₂
      exact ⟨[], ts, rfl, hc, Or.inl ⟨rfl, rfl⟩⟩

theorem caseOperand_sound : Sound (caseOperand expr) (Phrase.Maybe Disjunction) := by
  intro c d ts o hc h
  obtain ⟨j, _, _, _, _, h₁⟩ := look_bind hc h
  by_cases hj : j = .keyword .WHEN
  · rw [if_pos hj] at h₁
    obtain ⟨rfl, rfl⟩ := pure_ok h₁
    exact ⟨[], ts, rfl, hc, .absent⟩
  · rw [if_neg hj] at h₁
    obtain ⟨us, rest, e, c₁, rfl, hc₁, hus, h₂⟩ := hexpr.bind hc h₁
    obtain ⟨rfl, rfl⟩ := pure_ok h₂
    exact ⟨us, rest, rfl, hc₁, .present hus⟩

theorem someBranches_sound : Sound (someBranches expr) Branches := by
  intro c d ts whens hc h
  have h₁ := budget_bind hc h
  obtain ⟨us, rest, found, c₁, rfl, hc₁, hus, h₂⟩ := (branches_sound hexpr _).bind hc h₁
  cases found with
  | nil => cases h₂
  | cons b found =>
    obtain ⟨rfl, rfl⟩ := pure_ok h₂
    rcases hus with ⟨_, hnil⟩ | hus
    · cases hnil
    · exact ⟨us, rest, rfl, hc₁, hus⟩

theorem caseExpression_sound : Sound (caseExpression expr) Primary := by
  intro c d ts e hc h
  obtain ⟨t, ts₁, c₁, rfl, ht, hc₁, h₁⟩ := consume_bind hc (by simp) h
  obtain ⟨us, ts₂, operand, c₂, rfl, hc₂, hus, h₂⟩ := (caseOperand_sound hexpr).bind hc₁ h₁
  obtain ⟨vs, ts₃, whens, c₃, rfl, hc₃, hvs, h₃⟩ := (someBranches_sound hexpr).bind hc₂ h₂
  obtain ⟨ws, ts₄, otherwise, c₄, rfl, hc₄, hws, h₄⟩ := (after_sound (by simp) hexpr).bind hc₃ h₃
  obtain ⟨u, rest, c₅, rfl, hu, hc₅, h₅⟩ := consume_bind hc₄ (by simp) h₄
  obtain ⟨rfl, rfl⟩ := pure_ok h₅
  exact ⟨t :: (us ++ (vs ++ (ws ++ [u]))), rest, by simp, hc₅, .caseOf ht hus hvs hws hu⟩

/-- A name and what follows it. -/
theorem named_sound {t : Token} {k : Kind} (ht : t.kind? = some k) (hk : k.isName = true) :
    Sound (named expr t.text) (fun us e => Primary (t :: us) e) := by
  intro c d ts e hc h
  obtain ⟨j, s, ts₁, rfl, hs, h₁⟩ := look_bind hc h
  split at h₁
  · exact callOf_sound hexpr ht hk hc h₁
  · obtain ⟨c₁, hc₁, h₂⟩ := advance_bind hc hs (by simp) h₁
    obtain ⟨b, c₂, h₃, h₄⟩ := bind_ok h₂
    rcases accept_ok hc₁ (by simp) h₃ with ⟨rfl, u, rest, rfl, hu, hc₂⟩ | ⟨rfl, rfl, _⟩
    · obtain ⟨rfl, rfl⟩ := pure_ok h₄
      exact ⟨[s, u], rest, rfl, hc₂, .wildcard ht hk hs hu⟩
    · obtain ⟨u, rest, c₃, rfl, hu, hc₃, h₅⟩ := consume_bind hc₁ (by simp) h₄
      obtain ⟨rfl, rfl⟩ := pure_ok h₅
      exact ⟨[s, u], rest, rfl, hc₃, .qualified ht hk hs hu⟩
  · obtain ⟨rfl, rfl⟩ := pure_ok h₁
    exact ⟨[], s :: ts₁, rfl, hc, .name ht hk⟩

theorem primary_sound : Sound (primary expr) Primary := by
  intro c d ts e hc h
  obtain ⟨k, t, ts₁, rfl, hk, h₁⟩ := look_bind hc (get_ok h)
  rw [hc.current] at h₁
  split at h₁
  · obtain ⟨c₁, hc₁, h₂⟩ := advance_bind hc hk (by simp) h₁
    obtain ⟨rfl, rfl⟩ := pure_ok h₂
    exact ⟨[t], ts₁, rfl, hc₁, .number hk⟩
  · obtain ⟨c₁, hc₁, h₂⟩ := advance_bind hc hk (by simp) h₁
    obtain ⟨rfl, rfl⟩ := pure_ok h₂
    exact ⟨[t], ts₁, rfl, hc₁, .string hk⟩
  · obtain ⟨c₁, hc₁, h₂⟩ := advance_bind hc hk (by simp) h₁
    obtain ⟨rfl, rfl⟩ := pure_ok h₂
    exact ⟨[t], ts₁, rfl, hc₁, .null hk⟩
  · obtain ⟨c₁, hc₁, h₂⟩ := advance_bind hc hk (by simp) h₁
    obtain ⟨rfl, rfl⟩ := pure_ok h₂
    exact ⟨[t], ts₁, rfl, hc₁, .asterisk hk⟩
  · exact caseExpression_sound hexpr hc h₁
  · obtain ⟨c₁, hc₁, h₂⟩ := advance_bind hc hk (by simp) h₁
    obtain ⟨us, ts₂, inner, c₂, rfl, hc₂, hus, h₃⟩ := hexpr.bind hc₁ h₂
    obtain ⟨r, rest, c₃, rfl, hr, hc₃, h₄⟩ := consume_bind hc₂ (by simp) h₃
    obtain ⟨rfl, rfl⟩ := pure_ok h₄
    exact ⟨t :: (us ++ [r]), rest, by simp, hc₃, .parens hk hus hr⟩
  · by_cases hname : k.isName = true
    · rw [if_pos hname] at h₁
      have hne : k ≠ .eof := by
        rintro rfl
        cases hname
      obtain ⟨c₁, hc₁, h₂⟩ := advance_bind hc hk hne h₁
      obtain ⟨us, rest, rfl, hd, hus⟩ := named_sound hexpr hk hname hc₁ h₂
      exact ⟨t :: us, rest, rfl, hd, hus⟩
    · rw [if_neg hname] at h₁
      cases h₁

theorem unaryFrom_sound : ∀ n, Sound (unaryFrom expr n) Unary := by
  intro n
  induction n with
  | zero => exact (primary_sound hexpr).mono fun _ _ => .primary
  | succ n ih =>
    intro c d ts e hc h
    obtain ⟨k, t, ts₁, rfl, hk, h₁⟩ := look_bind hc h
    cases ho : UnaryOperator.ofKind? k with
    | none =>
      simp only [ho] at h₁
      exact (primary_sound hexpr).mono (fun _ _ => .primary) hc h₁
    | some operator =>
      simp only [ho] at h₁
      have hne : k ≠ .eof := by
        rintro rfl
        cases ho
      obtain ⟨c₁, hc₁, h₂⟩ := advance_bind hc hk hne h₁
      obtain ⟨us, rest, operand, c₂, rfl, hc₂, hus, h₃⟩ := ih.bind hc₁ h₂
      obtain ⟨rfl, rfl⟩ := pure_ok h₃
      exact ⟨t :: us, rest, rfl, hc₂, .operator hk ho hus⟩

theorem unaryLevel_sound : Sound (unaryLevel expr) Unary := by
  intro c d ts e hc h
  have h₁ := budget_bind hc h
  exact unaryFrom_sound hexpr _ hc h₁

theorem productLevel_sound : Sound (productLevel expr) Product :=
  (chain_sound rfl (unaryLevel_sound hexpr)).mono fun _ _ => .mk

theorem sumLevel_sound : Sound (sumLevel expr) Sum :=
  (chain_sound rfl (productLevel_sound hexpr)).mono fun _ _ => .mk

theorem comparisonLevel_sound : Sound (comparisonLevel expr) Comparison := by
  intro c d ts e hc h
  obtain ⟨us, ts₁, left, c₁, rfl, hc₁, hus, h₁⟩ := (sumLevel_sound hexpr).bind hc h
  obtain ⟨k, s, ts₂, rfl, hs, h₂⟩ := look_bind hc₁ h₁
  split at h₂
  · obtain ⟨c₂, hc₂, h₄⟩ := advance_bind hc₁ hs (by simp) h₂
    obtain ⟨vs, rest, values, c₃, rfl, hc₃, hvs, h₅⟩ := (valueList_sound hexpr).bind hc₂ h₄
    obtain ⟨rfl, rfl⟩ := pure_ok h₅
    exact ⟨us ++ s :: vs, rest, by simp, hc₃, .isIn hus hs hvs⟩
  · obtain ⟨j, c₂, h₃, h₄⟩ := bind_ok h₂
    obtain ⟨rfl, hj⟩ := lookNext_ok hc₁ h₃
    by_cases hin : j = .keyword .IN
    · rw [if_pos hin] at h₄
      subst hin
      obtain ⟨t, ts₃, rfl⟩ : ∃ t ts₃, ts₂ = t :: ts₃ := by
        cases ts₂ with
        | nil => exact absurd (hs.symm.trans hj) (by simp)
        | cons t ts₃ => exact ⟨t, ts₃, rfl⟩
      obtain ⟨c₃, hc₃, h₅⟩ := advance_bind hc₁ hs (by simp) h₄
      obtain ⟨c₄, hc₄, h₆⟩ := advance_bind hc₃ hj (by simp) h₅
      obtain ⟨vs, rest, values, c₅, rfl, hc₅, hvs, h₇⟩ := (valueList_sound hexpr).bind hc₄ h₆
      obtain ⟨rfl, rfl⟩ := pure_ok h₇
      exact ⟨us ++ s :: t :: vs, rest, by simp, hc₅, .notIn hus hs hj hvs⟩
    · rw [if_neg hin] at h₄
      obtain ⟨rfl, rfl⟩ := pure_ok h₄
      exact ⟨us, s :: ts₂, rfl, hc₁, .chain (.operand hus)⟩
  · have h₄ := budget_bind hc₁ h₂
    obtain ⟨vs, rest, hts, hd, he⟩ :=
      chainFrom_sound rfl (sumLevel_sound hexpr) _ hc₁ (.operand hus) h₄
    exact ⟨us ++ vs, rest, by rw [hts, List.append_assoc], hd, .chain he⟩

theorem conjunctionLevel_sound : Sound (conjunctionLevel expr) Conjunction :=
  (chain_sound rfl (comparisonLevel_sound hexpr)).mono fun _ _ => .mk

theorem disjunctionLevel_sound : Sound (disjunctionLevel expr) Disjunction :=
  (chain_sound rfl (conjunctionLevel_sound hexpr)).mono fun _ _ => .mk

end Levels

theorem nested_sound : ∀ n, Sound (nested n) Disjunction := by
  intro n
  induction n with
  | zero =>
    intro c d ts e _ h
    cases h
  | succ n ih => exact disjunctionLevel_sound ih

/-- **What is read as an expression is a phrase of the grammar.** -/
theorem expression_sound : Sound expression Disjunction := by
  intro c d ts e hc h
  have h₁ := budget_bind hc h
  exact nested_sound _ hc h₁

end QueryPipeline.Expr
