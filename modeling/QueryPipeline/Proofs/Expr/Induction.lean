import QueryPipeline.Proofs.Expr.Render

/-!
# Induction over expressions and their phrases

`Expr.inductionOn` is induction over expressions, with what is known of the parts in lists and
options said of their members.

The grammar of expressions has a relation for each level of precedence, and they refer to each
other.  Most of what one wants to know of a phrase does not depend on the level: it holds of the
phrase if it holds of the expressions in it.  `Compositional Q` says this of a relation `Q`, with
one field for each way in which the grammar makes an expression, and `Compositional.disjunction`
concludes that every phrase is in `Q`.

The induction is on a bound for the number of tokens, since an expression inside parentheses, a call
or a case has fewer of them.  It is done here once, so that later files only fill in the fields.
-/

namespace QueryPipeline

/-- **Induction over expressions.** -/
theorem Expr.inductionOn {motive : Expr → Prop} (column : ∀ ref, motive (.column ref))
    (literal : ∀ value, motive (.literal value))
    (binary : ∀ left operator right, motive left → motive right →
      motive (.binary left operator right))
    (unary : ∀ operator operand, motive operand → motive (.unary operator operand))
    (call : ∀ name arguments distinct aliasName, (∀ e ∈ arguments, motive e) →
      motive (.call name arguments distinct aliasName))
    (membership : ∀ subject values negated, motive subject → (∀ e ∈ values, motive e) →
      motive (.membership subject values negated))
    (caseOf : ∀ operand whens otherwise, (∀ e ∈ operand, motive e) →
      (∀ b ∈ whens, motive b.1 ∧ motive b.2) → (∀ e ∈ otherwise, motive e) →
      motive (.caseOf operand whens otherwise)) (e : Expr) : motive e := by
  refine @Expr.rec motive (fun es => ∀ e ∈ es, motive e) (fun o => ∀ e ∈ o, motive e)
    (fun bs => ∀ b ∈ bs, motive b.1 ∧ motive b.2) (fun b => motive b.1 ∧ motive b.2)
    column literal binary unary call membership caseOf ?_ ?_ ?_ ?_ ?_ ?_ ?_ e
  · nofun
  · exact fun _ _ h hrest => List.forall_mem_cons.mpr ⟨h, hrest⟩
  · nofun
  · rintro _ h _ ⟨⟩
    exact h
  · nofun
  · exact fun _ _ h hrest => List.forall_mem_cons.mpr ⟨h, hrest⟩
  · exact fun _ _ hcondition hresult => ⟨hcondition, hresult⟩

/-! ## Phrases -/

theorem BinaryOperator.eq_kind_of_disjunction {k : Kind} {o : BinaryOperator}
    (h : disjunction? k = some o) : k = o.kind := by
  unfold disjunction? at h
  split at h <;> cases h
  rfl

theorem BinaryOperator.eq_kind_of_conjunction {k : Kind} {o : BinaryOperator}
    (h : conjunction? k = some o) : k = o.kind := by
  unfold conjunction? at h
  split at h <;> cases h
  rfl

theorem BinaryOperator.eq_kind_of_comparison {k : Kind} {o : BinaryOperator}
    (h : comparison? k = some o) : k = o.kind := by
  unfold comparison? at h
  split at h <;> cases h <;> rfl

theorem BinaryOperator.eq_kind_of_sum {k : Kind} {o : BinaryOperator} (h : sum? k = some o) :
    k = o.kind := by
  unfold sum? at h
  split at h <;> cases h <;> rfl

theorem BinaryOperator.eq_kind_of_product {k : Kind} {o : BinaryOperator}
    (h : product? k = some o) : k = o.kind := by
  unfold product? at h
  split at h <;> cases h <;> rfl

theorem Phrase.Separated.mono {α : Type} {k : Kind} {P Q : Phrase α}
    (hPQ : ∀ us a, P us a → Q us a) {us : List Token} {as : List α} (h : Separated k P us as) :
    Separated k Q us as := by
  induction h with
  | one h => exact .one (hPQ _ _ h)
  | more h hk _ ih => exact .more (hPQ _ _ h) hk ih

namespace Grammar

/-- One branch of a case. -/
inductive Branch (P : Phrase Expr) : Phrase (Expr × Expr)
  | mk {w t : Token} {us vs : List Token} {condition result : Expr} :
      w.kind? = some (.keyword .WHEN) → P us condition → t.kind? = some (.keyword .THEN) →
      P vs result → Branch P (w :: (us ++ t :: vs)) (condition, result)

/-- A relation that holds of an expression and its tokens if it holds of the expressions inside. -/
structure Compositional (Q : Phrase Expr) : Prop where
  number {t : Token} : t.kind? = some .number → Q [t] (.literal (.number t.text))
  string {t : Token} : t.kind? = some .string → Q [t] (.literal (.string t.text))
  null {t : Token} : t.kind? = some (.keyword .NULL) → Q [t] (.literal .null)
  asterisk {t : Token} : t.kind? = some (.sign .asterisk) → Q [t] (Expr.wildcard none)
  name {t : Token} {k : Kind} :
    t.kind? = some k → k.isName = true → Q [t] (.column ⟨t.text, none, none⟩)
  qualified {t d u : Token} {k : Kind} :
    t.kind? = some k → k.isName = true → d.kind? = some (.mark .dot) →
    u.kind? = some .identifier → Q [t, d, u] (.column ⟨u.text, some t.text, none⟩)
  wildcard {t d u : Token} {k : Kind} :
    t.kind? = some k → k.isName = true → d.kind? = some (.mark .dot) →
    u.kind? = some (.sign .asterisk) → Q [t, d, u] (Expr.wildcard (some t.text))
  call {t l r : Token} {k : Kind} {us vs : List Token} {distinct : Bool}
      {arguments : Option (List Expr)} :
    t.kind? = some k → k.isName = true → l.kind? = some (.mark .lparen) →
    Phrase.Flag (.keyword .DISTINCT) us distinct →
    Phrase.Maybe (Phrase.Separated (.mark .comma) Q) vs arguments →
    r.kind? = some (.mark .rparen) →
    Q (t :: l :: (us ++ (vs ++ [r]))) (.call t.text (arguments.getD []) distinct none)
  caseOf {t u : Token} {us vs ws : List Token} {operand otherwise : Option Expr}
      {whens : List (Expr × Expr)} :
    t.kind? = some (.keyword .CASE) → Phrase.Maybe Q us operand →
    Phrase.Repeated (Branch Q) vs whens → whens ≠ [] →
    Phrase.After (.keyword .ELSE) Q ws otherwise → u.kind? = some (.keyword .END) →
    Q (t :: (us ++ (vs ++ (ws ++ [u])))) (.caseOf operand whens otherwise)
  parens {l r : Token} {us : List Token} {e : Expr} :
    l.kind? = some (.mark .lparen) → Q us e → r.kind? = some (.mark .rparen) →
    Q (l :: (us ++ [r])) e
  unary {t : Token} {k : Kind} {operator : UnaryOperator} {us : List Token} {e : Expr} :
    t.kind? = some k → UnaryOperator.ofKind? k = some operator → Q us e →
    Q (t :: us) (.unary operator e)
  binary {us vs : List Token} {t : Token} {operator : BinaryOperator} {left right : Expr} :
    Q us left → t.kind? = some operator.kind → Q vs right →
    Q (us ++ t :: vs) (.binary left operator right)
  membership {us ns vs : List Token} {t l r : Token} {negated : Bool} {e : Expr}
      {es : List Expr} :
    Q us e → Phrase.Flag (.keyword .NOT) ns negated → t.kind? = some (.keyword .IN) →
    l.kind? = some (.mark .lparen) → Phrase.Separated (.mark .comma) Q vs es →
    r.kind? = some (.mark .rparen) →
    Q (us ++ (ns ++ t :: l :: (vs ++ [r]))) (.membership e es negated)

/-- The phrases of `P` of at most `n` tokens are in `Q`. -/
def Within (n : Nat) (P Q : Phrase Expr) : Prop :=
  ∀ us e, us.length ≤ n → P us e → Q us e

namespace Compositional

variable {Q : Phrase Expr} (hQ : Compositional Q) {n : Nat}

include hQ

theorem chain {operator? : Kind → Option BinaryOperator} {P : Phrase Expr}
    (hkind : ∀ {k o}, operator? k = some o → k = BinaryOperator.kind o) (hP : Within n P Q) :
    Within n (Chain operator? P) Q := by
  intro us e hn h
  induction h with
  | operand h => exact hP _ _ hn h
  | operator _ hk ho hright ih =>
    rw [List.length_append, List.length_cons] at hn
    rw [hkind ho] at hk
    exact hQ.binary (ih (by omega)) hk (hP _ _ (by omega) hright)

section Levels

variable (ih : Within n Disjunction Q)

include ih

omit hQ in
theorem separated {us : List Token} {es : List Expr} (hn : us.length ≤ n)
    (h : Phrase.Separated (.mark .comma) Disjunction us es) :
    Phrase.Separated (.mark .comma) Q us es :=
  (h.upTo hn).mono fun us e he => ih us e he.1 he.2

omit hQ in
theorem branches : ∀ (m : Nat) {us : List Token} {whens : List (Expr × Expr)},
    us.length ≤ m → us.length ≤ n + 1 → Branches us whens →
      Phrase.Repeated (Branch Q) us whens ∧ whens ≠ [] := by
  intro m
  induction m with
  | zero =>
    intro us whens hm _ h
    cases h <;> cases hm
  | succ m hm =>
    intro us whens hlength hn h
    cases h with
    | @one w t us vs condition result hw hus ht hvs =>
      simp only [List.length_append, List.length_cons] at hn
      have hbranch : Branch Q (w :: (us ++ t :: vs)) (condition, result) :=
        .mk hw (ih us condition (by omega) hus) ht (ih vs result (by omega) hvs)
      exact ⟨by simpa using Phrase.Repeated.cons hbranch .nil, by simp⟩
    | @more w t us vs ws condition result whens hw hus ht hvs hws =>
      simp only [List.length_append, List.length_cons] at hn hlength
      have hbranch : Branch Q (w :: (us ++ t :: vs)) (condition, result) :=
        .mk hw (ih us condition (by omega) hus) ht (ih vs result (by omega) hvs)
      have hrest := (hm (by omega) (by omega) hws).1
      exact ⟨by simpa using Phrase.Repeated.cons hbranch hrest, by simp⟩

theorem primary : Within (n + 1) Primary Q := by
  intro us e hn h
  cases h with
  | number ht => exact hQ.number ht
  | string ht => exact hQ.string ht
  | null ht => exact hQ.null ht
  | asterisk ht => exact hQ.asterisk ht
  | name ht hk => exact hQ.name ht hk
  | qualified ht hk hd hu => exact hQ.qualified ht hk hd hu
  | wildcard ht hk hd hu => exact hQ.wildcard ht hk hd hu
  | call ht hk hl hus hvs hr =>
    simp only [List.length_append, List.length_cons] at hn
    refine hQ.call ht hk hl hus ?_ hr
    cases hvs with
    | absent => exact .absent
    | present hvs => exact .present (separated ih (by omega) hvs)
  | caseOf ht hus hvs hws hu =>
    simp only [List.length_append, List.length_cons] at hn
    obtain ⟨hbranches, hne⟩ := branches ih _ (Nat.le_refl _) (by omega) hvs
    refine hQ.caseOf ht ?_ hbranches hne ?_ hu
    · cases hus with
      | absent => exact .absent
      | present hus => exact .present (ih _ _ (by omega) hus)
    · cases hws with
      | absent => exact .absent
      | present hw hws =>
        rw [List.length_cons] at hn
        exact .present hw (ih _ _ (by omega) hws)
  | parens hl hus hr =>
    simp only [List.length_append, List.length_cons] at hn
    exact hQ.parens hl (ih _ _ (by omega) hus) hr

theorem unaryLevel : ∀ m, m ≤ n + 1 → Within m Unary Q := by
  intro m
  induction m with
  | zero =>
    intro _ us e hm h
    exact absurd (List.eq_nil_of_length_eq_zero (Nat.le_zero.mp hm)) h.begins.ne_nil
  | succ m hrest =>
    intro hmn us e hm h
    cases h with
    | primary h => exact hQ.primary ih _ _ (Nat.le_trans hm hmn) h
    | operator hk ho h =>
      rw [List.length_cons] at hm
      exact hQ.unary hk ho (hrest (by omega) _ _ (by omega) h)

theorem sum : Within (n + 1) Sum Q := by
  have hunary := hQ.unaryLevel ih (n + 1) (Nat.le_refl _)
  have hproduct : Within (n + 1) Product Q := by
    rintro us e hn ⟨h⟩
    exact hQ.chain BinaryOperator.eq_kind_of_product hunary us e hn h
  rintro us e hn ⟨h⟩
  exact hQ.chain BinaryOperator.eq_kind_of_sum hproduct us e hn h

theorem comparison : Within (n + 1) Comparison Q := by
  have hsum := hQ.sum ih
  intro us e hn h
  cases h with
  | chain h => exact hQ.chain BinaryOperator.eq_kind_of_comparison hsum _ _ hn h
  | isIn hus ht hvs =>
    obtain ⟨hl, hvs, hr⟩ := hvs
    simp only [List.length_append, List.length_cons] at hn
    have hsubject := hsum _ _ (by omega) hus
    exact hQ.membership hsubject .absent ht hl (separated ih (by omega) hvs) hr
  | notIn hus hs ht hvs =>
    obtain ⟨hl, hvs, hr⟩ := hvs
    simp only [List.length_append, List.length_cons] at hn
    have hsubject := hsum _ _ (by omega) hus
    exact hQ.membership hsubject (.present hs) ht hl (separated ih (by omega) hvs) hr

end Levels

/-- **What is compositional holds of every expression and its tokens.** -/
theorem disjunction {us : List Token} {e : Expr} (h : Disjunction us e) : Q us e := by
  have hwithin : ∀ n, Within n Disjunction Q := by
    intro n
    induction n with
    | zero =>
      intro us e hn h
      exact absurd (List.eq_nil_of_length_eq_zero (Nat.le_zero.mp hn)) h.begins.ne_nil
    | succ n ih =>
      have hconjunction : Within (n + 1) Conjunction Q := by
        rintro us e hn ⟨h⟩
        exact hQ.chain BinaryOperator.eq_kind_of_conjunction (hQ.comparison ih) us e hn h
      rintro us e hn ⟨h⟩
      exact hQ.chain BinaryOperator.eq_kind_of_disjunction hconjunction us e hn h
  exact hwithin us.length us e (Nat.le_refl _) h

end Compositional
end Grammar
end QueryPipeline
