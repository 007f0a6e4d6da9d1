import QueryPipeline.Proofs.Expr.Sound

/-!
# The rules read every expression of the grammar

A rule takes as much as it can, so a phrase is read as a whole only if the token behind it does not
go on with it.  `Kind.continuesExpression` lists the kinds that do, and each level has its own part
of them: an operand of a product may be followed by a product sign, but not by an opening
parenthesis.

The lemmas of the levels assume that nested expressions of at most `n` tokens are read, and show
that phrases of the level of at most `n + 1` tokens are read.  Something that is nested always has a
token in front of it, so this is enough for the induction on the budget in `nested_complete`.
-/

namespace QueryPipeline

/-- The kinds of tokens that an expression in front of them may go on with. -/
def Kind.continuesExpression : Kind → Bool
  | .keyword .OR => true
  | .keyword .AND => true
  | .keyword .LIKE => true
  | .keyword .IN => true
  | .keyword .NOT => true
  | .sign _ => true
  | .mark .lparen => true
  | .mark .dot => true
  | _ => false

namespace Expr

open Rule Grammar

/-! ## What ends a phrase of a level -/

/-- Behind a name, a parenthesis makes a call and a dot makes a column of a table. -/
def EndsUnary (k : Kind) : Prop :=
  k ≠ .mark .lparen ∧ k ≠ .mark .dot

def EndsProduct (k : Kind) : Prop :=
  BinaryOperator.product? k = none ∧ EndsUnary k

def EndsSum (k : Kind) : Prop :=
  BinaryOperator.sum? k = none ∧ EndsProduct k

def EndsComparison (k : Kind) : Prop :=
  (k ≠ .keyword .IN ∧ k ≠ .keyword .NOT) ∧ BinaryOperator.comparison? k = none ∧ EndsSum k

def EndsConjunction (k : Kind) : Prop :=
  BinaryOperator.conjunction? k = none ∧ EndsComparison k

def EndsDisjunction (k : Kind) : Prop :=
  BinaryOperator.disjunction? k = none ∧ EndsConjunction k

theorem endsDisjunction_of_not_continues {k : Kind} (h : k.continuesExpression = false) :
    EndsDisjunction k := by
  unfold EndsDisjunction EndsConjunction EndsComparison EndsSum EndsProduct EndsUnary
  cases k with
  | keyword w =>
    revert h
    cases w <;> decide
  | sign s => cases h
  | mark m =>
    revert h
    cases m <;> decide
  | identifier | number | string | unsorted | eof | other =>
    exact ⟨rfl, rfl, ⟨nofun, nofun⟩, rfl, rfl, rfl, nofun, nofun⟩

theorem endsUnary_of_product {k : Kind} {o : BinaryOperator}
    (h : BinaryOperator.product? k = some o) : k ≠ .eof ∧ EndsUnary k := by
  unfold BinaryOperator.product? at h
  split at h
  case h_4 => cases h
  all_goals exact ⟨nofun, nofun, nofun⟩

theorem endsProduct_of_sum {k : Kind} {o : BinaryOperator} (h : BinaryOperator.sum? k = some o) :
    k ≠ .eof ∧ EndsProduct k := by
  unfold BinaryOperator.sum? at h
  split at h
  case h_3 => cases h
  all_goals exact ⟨nofun, rfl, nofun, nofun⟩

theorem endsSum_of_comparison {k : Kind} {o : BinaryOperator}
    (h : BinaryOperator.comparison? k = some o) :
    k ≠ .eof ∧ k ≠ .keyword .IN ∧ k ≠ .keyword .NOT ∧ EndsSum k := by
  unfold BinaryOperator.comparison? at h
  split at h
  case h_8 => cases h
  all_goals exact ⟨nofun, nofun, nofun, rfl, rfl, nofun, nofun⟩

theorem endsComparison_of_conjunction {k : Kind} {o : BinaryOperator}
    (h : BinaryOperator.conjunction? k = some o) : k ≠ .eof ∧ EndsComparison k := by
  unfold BinaryOperator.conjunction? at h
  split at h
  · exact ⟨nofun, ⟨nofun, nofun⟩, rfl, rfl, rfl, nofun, nofun⟩
  · cases h

theorem endsConjunction_of_disjunction {k : Kind} {o : BinaryOperator}
    (h : BinaryOperator.disjunction? k = some o) : k ≠ .eof ∧ EndsConjunction k := by
  unfold BinaryOperator.disjunction? at h
  split at h
  · exact ⟨nofun, rfl, ⟨nofun, nofun⟩, rfl, rfl, rfl, nofun, nofun⟩
  · cases h

/-! ## Chains -/

/-- A chain is its first operand and a loop over operators.  The loop reads the operators of the
chain one by one, and then stands in front of the tokens behind it. -/
theorem chainFrom_reads {operator? : Kind → Option BinaryOperator} {operand : Rule Expr}
    {P : Phrase Expr} {S : Kind → Prop} (hP : Complete operand P S)
    (hop : ∀ k o, operator? k = some o → k ≠ .eof ∧ S k) {us : List Token} {e : Expr}
    (h : Chain operator? P us e) :
    ∃ us₀ e₀ vs, us = us₀ ++ vs ∧ P us₀ e₀ ∧
      (vs = [] ∨ Phrase.Begins (fun k => ∃ o, operator? k = some o) vs) ∧
      ∀ ts, Phrase.Begins S ts → ∀ m, (vs ++ ts).length ≤ m → ∃ m', ts.length ≤ m' ∧
        ∀ b rest, Reads (chainFrom operator? operand m' e) ts b rest →
          Reads (chainFrom operator? operand m e₀) (vs ++ ts) b rest := by
  induction h with
  | @operand us e h =>
    refine ⟨us, e, [], by simp, h, Or.inl rfl, ?_⟩
    intro ts _ m hm
    exact ⟨m, hm, fun b rest hr => hr⟩
  | @operator us vs t k o left right _ hk ho hright ih =>
    obtain ⟨us₀, e₀, ws, rfl, h₀, hws, hloop⟩ := ih
    refine ⟨us₀, e₀, ws ++ t :: vs, by simp, h₀, Or.inr ?_, ?_⟩
    · rcases hws with rfl | hws
      · exact ⟨t, vs, k, rfl, hk, o, ho⟩
      · exact hws.append _
    · intro ts hts m hm
      have hS : S k := (hop k o ho).2
      obtain ⟨m₁, hm₁, hreads⟩ :=
        hloop (t :: (vs ++ ts)) ⟨t, _, k, rfl, hk, hS⟩ m (by simpa using hm)
      simp only [List.length_cons, List.length_append] at hm₁
      obtain ⟨m', rfl⟩ : ∃ m', m₁ = m' + 1 := ⟨m₁ - 1, by omega⟩
      refine ⟨m', by omega, ?_⟩
      intro b rest hr
      rw [List.append_assoc]
      refine hreads b rest ?_
      refine Reads.bind (reads_look hk _) ?_
      simp only [ho]
      refine Reads.bind (reads_advance hk (hop k o ho).1 (by simp [hts.ne_nil])) ?_
      obtain ⟨s, ts, j, rfl, hj, hSj⟩ := hts
      exact Reads.bind (hP hright hj hSj) hr

/-- A loop over operators ends at a token that is none. -/
theorem reads_chainFrom_end {operator? : Kind → Option BinaryOperator} {operand : Rule Expr}
    {t : Token} {k : Kind} (hk : t.kind? = some k) (ho : operator? k = none) (m : Nat) (e : Expr)
    (rest : List Token) : Reads (chainFrom operator? operand m e) (t :: rest) e (t :: rest) := by
  cases m with
  | zero => exact Reads.pure e _
  | succ m =>
    refine Reads.bind (reads_look hk rest) ?_
    simp only [ho]
    exact Reads.pure e _

theorem chain_complete {operator? : Kind → Option BinaryOperator} {operand : Rule Expr}
    {P : Phrase Expr} {S : Kind → Prop} (hP : Complete operand P S)
    (hop : ∀ k o, operator? k = some o → k ≠ .eof ∧ S k) :
    Complete (chain operator? operand) (Chain operator? P) (fun k => operator? k = none ∧ S k) := by
  intro us e t k rest h hk hend
  obtain ⟨us₀, e₀, vs, rfl, h₀, hvs, hloop⟩ := chainFrom_reads hP hop h
  have hnext : Phrase.Begins S (vs ++ t :: rest) := by
    rcases hvs with rfl | hvs
    · exact ⟨t, rest, k, rfl, hk, hend.2⟩
    · refine (hvs.mono ?_).append _
      rintro j ⟨o, ho⟩
      exact (hop j o ho).2
  obtain ⟨m', _, hreads⟩ := hloop (t :: rest) ⟨t, rest, k, rfl, hk, hend.2⟩ _ (Nat.le_refl _)
  have hfirst : Reads operand (us₀ ++ (vs ++ t :: rest)) e₀ (vs ++ t :: rest) := by
    obtain ⟨s, ts, j, heq, hj, hSj⟩ := hnext
    rw [heq]
    exact hP h₀ hj hSj
  rw [List.append_assoc]
  refine Reads.bind hfirst ?_
  refine Reads.budget ?_
  exact hreads e (t :: rest) (reads_chainFrom_end hk hend.1 m' e rest)

/-! ## Levels -/

section Levels

variable {expr : Rule Expr} {n : Nat}
  (hexpr : Complete expr (Phrase.upTo n Disjunction) (·.continuesExpression = false))

include hexpr

/-- A nested expression, in front of a token that ends it. -/
theorem reads_nested {us : List Token} {e : Expr} (h : Disjunction us e) (hn : us.length ≤ n)
    {t : Token} {k : Kind} (hk : t.kind? = some k) (hend : k.continuesExpression = false)
    (rest : List Token) : Reads expr (us ++ t :: rest) e (t :: rest) :=
  hexpr ⟨hn, h⟩ hk hend

theorem reads_expressions {us : List Token} {es : List Expr}
    (h : Phrase.Separated (.mark .comma) Disjunction us es) (hn : us.length ≤ n) {t : Token}
    {k : Kind} (hk : t.kind? = some k) (hend : k ≠ .mark .comma ∧ k.continuesExpression = false)
    (rest : List Token) : Reads (expressions expr) (us ++ t :: rest) es (t :: rest) :=
  sepBy_complete (by simp) hexpr rfl (h.upTo hn) hk hend

theorem reads_valueList {us : List Token} {es : List Expr} (h : Values us es)
    (hn : us.length ≤ n + 1) {rest : List Token} (hrest : rest ≠ []) :
    Reads (valueList expr) (us ++ rest) es rest := by
  cases h with
  | @mk l r us es hl hus hr =>
    simp only [List.length_cons, List.length_append, List.length_nil] at hn
    rw [List.cons_append, List.append_assoc]
    refine Reads.bind (reads_consume _ hl (by simp) (by simp)) ?_
    refine Reads.bind (reads_expressions hexpr hus (by omega) hr ⟨by simp, rfl⟩ _) ?_
    refine Reads.bind (reads_consume _ hr (by simp) hrest) ?_
    exact Reads.pure es rest

theorem reads_argumentList {us : List Token} {o : Option (List Expr)}
    (h : Phrase.Maybe (Phrase.Separated (.mark .comma) Disjunction) us o) (hn : us.length ≤ n)
    {r : Token} (hr : r.kind? = some (.mark .rparen)) (rest : List Token) :
    Reads (argumentList expr) (us ++ r :: rest) (o.getD []) (r :: rest) := by
  cases h with
  | absent => exact Reads.bind (reads_look hr rest) (Reads.pure [] _)
  | @present us es h =>
    obtain ⟨t, ts, k, heq, hk, hS⟩ := (Expressions.begins h).append (r :: rest)
    have hread := reads_expressions hexpr h hn hr ⟨by simp, rfl⟩ rest
    rw [heq] at hread ⊢
    refine Reads.bind (reads_look hk ts) ?_
    rw [if_neg (by rintro rfl; cases hS)]
    exact hread

theorem reads_callOf {l r : Token} {us vs : List Token} {distinct : Bool}
    {o : Option (List Expr)} (hl : l.kind? = some (.mark .lparen))
    (hus : Phrase.Flag (.keyword .DISTINCT) us distinct)
    (hvs : Phrase.Maybe (Phrase.Separated (.mark .comma) Disjunction) vs o)
    (hr : r.kind? = some (.mark .rparen)) (hn : vs.length ≤ n) (name : String) {rest : List Token}
    (hrest : rest ≠ []) :
    Reads (callOf expr name) (l :: (us ++ (vs ++ r :: rest)))
      (.call name (o.getD []) distinct none) rest := by
  refine Reads.bind (reads_consume _ hl (by simp) (by simp)) ?_
  have hflag : Reads (accept (.keyword .DISTINCT)) (us ++ (vs ++ r :: rest)) distinct
      (vs ++ r :: rest) := by
    cases hvs with
    | absent => exact accept_complete (by simp) hus hr (by simp)
    | present h =>
      obtain ⟨t, ts, k, heq, hk, hS⟩ := (Expressions.begins h).append (r :: rest)
      rw [heq]
      exact accept_complete (by simp) hus hk (by rintro rfl; cases hS)
  refine Reads.bind hflag ?_
  refine Reads.bind (reads_argumentList hexpr hvs hn hr rest) ?_
  refine Reads.bind (reads_consume _ hr (by simp) hrest) ?_
  exact Reads.pure _ rest

/-- A loop over branches, in front of a token that starts no branch. -/
theorem reads_branches : ∀ (m : Nat) {us : List Token} {whens : List (Expr × Expr)},
    Branches us whens → us.length ≤ n + 1 → us.length ≤ m → ∀ {t : Token} {k : Kind},
      t.kind? = some k → k ≠ .keyword .WHEN → k.continuesExpression = false →
        ∀ rest, Reads (branches expr m) (us ++ t :: rest) whens (t :: rest) := by
  intro m
  induction m with
  | zero =>
    intro us whens h _ hm
    cases h <;> cases hm
  | succ m ih =>
    intro us whens h hn hm s j hs hne hend rest
    cases h with
    | @one w t us vs condition result hw hus ht hvs =>
      simp only [List.length_cons, List.length_append] at hn
      rw [List.cons_append, List.append_assoc]
      refine Reads.bind (reads_accept hw (by simp) (by simp)) ?_
      refine Reads.bind (reads_nested hexpr hus (by omega) ht rfl _) ?_
      refine Reads.bind (reads_consume _ ht (by simp) (by simp)) ?_
      refine Reads.bind (reads_nested hexpr hvs (by omega) hs hend rest) ?_
      refine Reads.bind (a := []) ?_ (Reads.pure _ _)
      cases m with
      | zero => exact Reads.pure _ _
      | succ m => exact Reads.bind (reads_accept_other hs hne rest) (Reads.pure _ _)
    | @more w t us vs ws condition result whens hw hus ht hvs hws =>
      simp only [List.length_cons, List.length_append] at hn hm
      rw [List.cons_append, List.append_assoc, List.cons_append, List.append_assoc]
      refine Reads.bind (reads_accept hw (by simp) (by simp)) ?_
      refine Reads.bind (reads_nested hexpr hus (by omega) ht rfl _) ?_
      refine Reads.bind (reads_consume _ ht (by simp) (by simp)) ?_
      obtain ⟨u, ts, heq, hu⟩ := hws.begins
      have hmore := ih hws (by omega) (by omega) hs hne hend rest
      refine Reads.bind (a := result) ?_ (Reads.bind hmore (Reads.pure _ _))
      rw [heq]
      exact reads_nested hexpr hvs (by omega) hu rfl _

theorem reads_someBranches {us : List Token} {whens : List (Expr × Expr)} (h : Branches us whens)
    (hn : us.length ≤ n + 1) {t : Token} {k : Kind} (hk : t.kind? = some k)
    (hne : k ≠ .keyword .WHEN) (hend : k.continuesExpression = false) (rest : List Token) :
    Reads (someBranches expr) (us ++ t :: rest) whens (t :: rest) := by
  refine Reads.budget ?_
  refine Reads.bind (reads_branches hexpr _ h hn (by simp) hk hne hend rest) ?_
  cases h with
  | one => exact Reads.pure _ _
  | more => exact Reads.pure _ _

theorem reads_caseOperand {us : List Token} {o : Option Expr}
    (h : Phrase.Maybe Disjunction us o) (hn : us.length ≤ n) {w : Token}
    (hw : w.kind? = some (.keyword .WHEN)) (rest : List Token) :
    Reads (caseOperand expr) (us ++ w :: rest) o (w :: rest) := by
  cases h with
  | absent => exact Reads.bind (reads_look hw rest) (Reads.pure none _)
  | @present us e h =>
    obtain ⟨t, ts, k, heq, hk, hS⟩ := h.begins.append (w :: rest)
    have hread := reads_nested hexpr h hn hw rfl rest
    rw [heq] at hread ⊢
    refine Reads.bind (reads_look hk ts) ?_
    rw [if_neg (by rintro rfl; cases hS)]
    exact Reads.bind hread (Reads.pure _ _)

theorem reads_otherwise {us : List Token} {o : Option Expr}
    (h : Phrase.After (.keyword .ELSE) Disjunction us o) (hn : us.length ≤ n + 1) {u : Token}
    (hu : u.kind? = some (.keyword .END)) (rest : List Token) :
    Reads (after (.keyword .ELSE) expr) (us ++ u :: rest) o (u :: rest) := by
  refine after_complete (by simp) hexpr ?_ hu ⟨by simp, rfl⟩
  cases h with
  | absent => exact .absent
  | present hk h => exact .present hk ⟨by simpa using hn, h⟩

theorem reads_caseExpression {t u : Token} {us vs ws : List Token} {operand otherwise : Option Expr}
    {whens : List (Expr × Expr)} (ht : t.kind? = some (.keyword .CASE))
    (hus : Phrase.Maybe Disjunction us operand) (hvs : Branches vs whens)
    (hws : Phrase.After (.keyword .ELSE) Disjunction ws otherwise)
    (hu : u.kind? = some (.keyword .END)) (hn : (us ++ (vs ++ ws)).length ≤ n) {rest : List Token}
    (hrest : rest ≠ []) :
    Reads (caseExpression expr) (t :: (us ++ (vs ++ (ws ++ u :: rest))))
      (.caseOf operand whens otherwise) rest := by
  simp only [List.length_append] at hn
  refine Reads.bind (reads_consume _ ht (by simp) (by simp)) ?_
  have hoperand : Reads (caseOperand expr) (us ++ (vs ++ (ws ++ u :: rest))) operand
      (vs ++ (ws ++ u :: rest)) := by
    obtain ⟨w, vs, rfl, hw⟩ := hvs.begins
    exact reads_caseOperand hexpr hus (by omega) hw _
  refine Reads.bind hoperand ?_
  have hbranches : Reads (someBranches expr) (vs ++ (ws ++ u :: rest)) whens
      (ws ++ u :: rest) := by
    cases hws with
    | absent => exact reads_someBranches hexpr hvs (by omega) hu (by simp) rfl rest
    | present hk _ => exact reads_someBranches hexpr hvs (by omega) hk (by simp) rfl _
  refine Reads.bind hbranches ?_
  refine Reads.bind (reads_otherwise hexpr hws (by omega) hu rest) ?_
  refine Reads.bind (reads_consume _ hu (by simp) hrest) ?_
  exact Reads.pure _ rest

omit hexpr in
/-- A primary expression that starts with a name. -/
theorem reads_primary_name {t : Token} {k : Kind} (hk : t.kind? = some k) (hname : k.isName = true)
    {ts rest : List Token} (hts : ts ≠ []) {e : Expr} (h : Reads (named expr t.text) ts e rest) :
    Reads (primary expr) (t :: ts) e rest := by
  refine Reads.get fun c hc => ?_
  refine Reads.bind (reads_look hk ts) ?_
  rw [hc.current]
  have hne : k ≠ .eof := by
    rintro rfl
    cases hname
  split
  case h_7 =>
    rw [if_pos hname]
    exact Reads.bind (reads_advance hk hne hts) h
  all_goals cases hname

theorem primary_complete :
    Complete (primary expr) (Phrase.upTo (n + 1) Primary) EndsUnary := by
  rintro us e t k rest ⟨hn, h⟩ hk hend
  cases h with
  | number h =>
    refine Reads.get fun c hc => Reads.bind (reads_look h _) ?_
    rw [hc.current]
    exact Reads.bind (reads_advance h (by simp) (by simp)) (Reads.pure _ _)
  | string h =>
    refine Reads.get fun c hc => Reads.bind (reads_look h _) ?_
    rw [hc.current]
    exact Reads.bind (reads_advance h (by simp) (by simp)) (Reads.pure _ _)
  | null h =>
    refine Reads.get fun c hc => Reads.bind (reads_look h _) ?_
    exact Reads.bind (reads_advance h (by simp) (by simp)) (Reads.pure _ _)
  | asterisk h =>
    refine Reads.get fun c hc => Reads.bind (reads_look h _) ?_
    exact Reads.bind (reads_advance h (by simp) (by simp)) (Reads.pure _ _)
  | name h hname =>
    refine reads_primary_name h hname (by simp) ?_
    refine Reads.bind (reads_look hk rest) ?_
    split
    · exact absurd rfl hend.1
    · exact absurd rfl hend.2
    · exact Reads.pure _ _
  | qualified h hname hd hu =>
    refine reads_primary_name h hname (by simp) ?_
    refine Reads.bind (reads_look hd _) ?_
    refine Reads.bind (reads_advance hd (by simp) (by simp)) ?_
    refine Reads.bind (reads_accept_other hu (by simp) _) ?_
    refine Reads.bind (reads_consume _ hu (by simp) (by simp)) ?_
    exact Reads.pure _ _
  | wildcard h hname hd hu =>
    refine reads_primary_name h hname (by simp) ?_
    refine Reads.bind (reads_look hd _) ?_
    refine Reads.bind (reads_advance hd (by simp) (by simp)) ?_
    refine Reads.bind (reads_accept hu (by simp) (by simp)) ?_
    exact Reads.pure _ _
  | @call s l r j us vs distinct arguments h hname hl hus hvs hr =>
    simp only [List.length_cons, List.length_append] at hn
    simp only [List.cons_append, List.append_assoc, List.nil_append]
    refine reads_primary_name h hname (by simp) ?_
    refine Reads.bind (reads_look hl _) ?_
    exact reads_callOf hexpr hl hus hvs hr (by omega) _ (by simp)
  | @caseOf s u us vs ws operand otherwise whens h hus hvs hws hu =>
    simp only [List.length_cons, List.length_append, List.length_nil] at hn
    simp only [List.cons_append, List.append_assoc, List.nil_append]
    refine Reads.get fun c hc => Reads.bind (reads_look h _) ?_
    exact reads_caseExpression hexpr h hus hvs hws hu (by simp; omega) (by simp)
  | @parens l r us e hl hus hr =>
    simp only [List.length_cons, List.length_append, List.length_nil] at hn
    simp only [List.cons_append, List.append_assoc, List.nil_append]
    refine Reads.get fun c hc => Reads.bind (reads_look hl _) ?_
    refine Reads.bind (reads_advance hl (by simp) (by simp)) ?_
    refine Reads.bind (reads_nested hexpr hus (by omega) hr rfl _) ?_
    refine Reads.bind (reads_consume _ hr (by simp) (by simp)) ?_
    exact Reads.pure _ _

/-- Prefix operators in front of a primary expression.  The induction is on the bound, which each
operator lowers by one. -/
theorem unaryFrom_complete : ∀ m, Complete (unaryFrom expr m)
    (fun us e => us.length ≤ m ∧ us.length ≤ n + 1 ∧ Unary us e) EndsUnary := by
  intro m
  induction m with
  | zero =>
    rintro us e t k rest ⟨hm, _, h⟩ _ _
    exact absurd (List.eq_nil_of_length_eq_zero (Nat.le_zero.mp hm)) h.begins.ne_nil
  | succ m ih =>
    rintro us e t k rest ⟨hm, hn, h⟩ hk hend
    cases h with
    | primary h =>
      have hread : Reads (primary expr) (us ++ t :: rest) e (t :: rest) :=
        primary_complete hexpr ⟨hn, h⟩ hk hend
      obtain ⟨s, ts, j, heq, hj, hS⟩ := h.begins.append (t :: rest)
      rw [heq] at hread ⊢
      refine Reads.bind (reads_look hj ts) ?_
      simp only [ofKind?_of_startsPrimary hS]
      exact hread
    | @operator s j o us e hj ho h =>
      rw [List.length_cons] at hm hn
      refine Reads.bind (reads_look hj _) ?_
      simp only [ho]
      have hne : j ≠ .eof := by
        rintro rfl
        cases ho
      refine Reads.bind (reads_advance hj hne (by simp)) ?_
      refine Reads.bind (ih ⟨by omega, by omega, h⟩ hk hend) ?_
      exact Reads.pure _ _

theorem unaryLevel_complete :
    Complete (unaryLevel expr) (Phrase.upTo (n + 1) Unary) EndsUnary := by
  rintro us e t k rest ⟨hn, h⟩ hk hend
  refine Reads.budget ?_
  exact unaryFrom_complete hexpr _ ⟨by simp, hn, h⟩ hk hend

theorem productLevel_complete :
    Complete (productLevel expr) (Phrase.upTo (n + 1) Product) EndsProduct := by
  rintro us e t k rest ⟨hn, ⟨h⟩⟩ hk hend
  exact chain_complete (unaryLevel_complete hexpr) (fun _ _ => endsUnary_of_product) (h.upTo hn) hk
    hend

theorem sumLevel_complete :
    Complete (sumLevel expr) (Phrase.upTo (n + 1) Sum) EndsSum := by
  rintro us e t k rest ⟨hn, ⟨h⟩⟩ hk hend
  exact chain_complete (productLevel_complete hexpr) (fun _ _ => endsProduct_of_sum) (h.upTo hn) hk
    hend

/-- Comparisons in a row.  Behind the first operand there is a comparison sign or the end, and in
neither case a membership test. -/
theorem reads_comparisons {us : List Token} {e : Expr}
    (h : Chain BinaryOperator.comparison? Sum us e) (hn : us.length ≤ n + 1) {t : Token} {k : Kind}
    (hk : t.kind? = some k) (hend : EndsComparison k) (rest : List Token) :
    Reads (comparisonLevel expr) (us ++ t :: rest) e (t :: rest) := by
  obtain ⟨us₀, e₀, vs, rfl, h₀, hvs, hloop⟩ := chainFrom_reads (sumLevel_complete hexpr)
    (fun _ _ ho => ⟨(endsSum_of_comparison ho).1, (endsSum_of_comparison ho).2.2.2⟩) (h.upTo hn)
  obtain ⟨m', _, hreads⟩ := hloop (t :: rest) ⟨t, rest, k, rfl, hk, hend.2.2⟩ _ (Nat.le_refl _)
  have hchain := hreads e (t :: rest) (reads_chainFrom_end hk hend.2.1 m' e rest)
  have hnext : Phrase.Begins (fun j => j ≠ .keyword .IN ∧ j ≠ .keyword .NOT ∧ EndsSum j)
      (vs ++ t :: rest) := by
    rcases hvs with rfl | hvs
    · exact ⟨t, rest, k, rfl, hk, hend.1.1, hend.1.2, hend.2.2⟩
    · refine (hvs.mono ?_).append _
      rintro j ⟨o, ho⟩
      exact (endsSum_of_comparison ho).2
  obtain ⟨s, ts, j, heq, hj, hin, hnot, hS⟩ := hnext
  rw [List.append_assoc]
  rw [heq] at hchain ⊢
  refine Reads.bind (sumLevel_complete hexpr h₀ hj hS) ?_
  refine Reads.bind (reads_look hj ts) ?_
  split
  · exact absurd rfl hin
  · exact absurd rfl hnot
  · exact Reads.budget hchain

theorem comparisonLevel_complete :
    Complete (comparisonLevel expr) (Phrase.upTo (n + 1) Comparison) EndsComparison := by
  rintro us e t k rest ⟨hn, h⟩ hk hend
  cases h with
  | chain h => exact reads_comparisons hexpr h hn hk hend rest
  | @isIn us vs s e es hus hs hvs =>
    simp only [List.length_append, List.length_cons] at hn
    simp only [List.cons_append, List.append_assoc]
    refine Reads.bind (sumLevel_complete hexpr ⟨by omega, hus⟩ hs ⟨rfl, rfl, nofun, nofun⟩) ?_
    refine Reads.bind (reads_look hs _) ?_
    refine Reads.bind (reads_advance hs (by simp) (by simp)) ?_
    refine Reads.bind (reads_valueList hexpr hvs (by omega) (by simp)) ?_
    exact Reads.pure _ _
  | @notIn us vs s u e es hus hs hu hvs =>
    simp only [List.length_append, List.length_cons] at hn
    simp only [List.cons_append, List.append_assoc]
    refine Reads.bind (sumLevel_complete hexpr ⟨by omega, hus⟩ hs ⟨rfl, rfl, nofun, nofun⟩) ?_
    refine Reads.bind (reads_look hs _) ?_
    refine Reads.bind (reads_lookNext hu _) ?_
    rw [if_pos rfl]
    refine Reads.bind (reads_advance hs (by simp) (by simp)) ?_
    refine Reads.bind (reads_advance hu (by simp) (by simp)) ?_
    refine Reads.bind (reads_valueList hexpr hvs (by omega) (by simp)) ?_
    exact Reads.pure _ _

theorem conjunctionLevel_complete :
    Complete (conjunctionLevel expr) (Phrase.upTo (n + 1) Conjunction) EndsConjunction := by
  rintro us e t k rest ⟨hn, ⟨h⟩⟩ hk hend
  exact chain_complete (comparisonLevel_complete hexpr) (fun _ _ => endsComparison_of_conjunction)
    (h.upTo hn) hk hend

theorem disjunctionLevel_complete :
    Complete (disjunctionLevel expr) (Phrase.upTo (n + 1) Disjunction) EndsDisjunction := by
  rintro us e t k rest ⟨hn, ⟨h⟩⟩ hk hend
  exact chain_complete (conjunctionLevel_complete hexpr) (fun _ _ => endsConjunction_of_disjunction)
    (h.upTo hn) hk hend

end Levels

theorem nested_complete : ∀ n, Complete (nested n) (Phrase.upTo n Disjunction)
    (·.continuesExpression = false) := by
  intro n
  induction n with
  | zero =>
    rintro us e t k rest ⟨hn, h⟩ _ _
    exact absurd (List.eq_nil_of_length_eq_zero (Nat.le_zero.mp hn)) h.begins.ne_nil
  | succ n ih =>
    exact (disjunctionLevel_complete ih).mono (fun _ _ h => h) fun _ =>
      endsDisjunction_of_not_continues

/-- **Every expression of the grammar is read**, if the token behind it does not go on with it. -/
theorem expression_complete :
    Complete expression Disjunction (·.continuesExpression = false) := by
  intro us e t k rest h hk hend
  refine Reads.budget ?_
  exact nested_complete _ ⟨by simp, h⟩ hk hend

/-! ## Both directions -/

/-- The tokens that an expression takes are counted by what is left of all tokens. -/
theorem ofTokens_eq_ok {ts : List Token} {n : Nat} {e : Expr} (h : ofTokens ts = .ok (n, e)) :
    ∃ us rest, ts = us ++ rest ∧ rest ≠ [] ∧ us.length = n ∧ Disjunction us e := by
  cases ts with
  | nil => cases h
  | cons first ts =>
    rw [ofTokens] at h
    cases hrun : expression (Cursor.start first ts) with
    | error error c =>
      rw [hrun] at h
      cases h
    | ok e' c =>
      rw [hrun] at h
      cases h
      obtain ⟨us, rest, heq, hc, hus⟩ := expression_sound (Cursor.at_start first ts) hrun
      have hlen := congrArg List.length heq
      rw [← hc.2, List.length_append, List.length_cons, List.length_cons] at hlen
      exact ⟨us, rest, heq, hc.ne_nil, by omega, hus⟩

theorem ofTokens_append {us : List Token} {e : Expr} (h : Disjunction us e) {t : Token} {k : Kind}
    (hk : t.kind? = some k) (hend : k.continuesExpression = false) (rest : List Token) :
    ofTokens (us ++ t :: rest) = .ok (us.length, e) := by
  obtain ⟨first, ts, heq⟩ : ∃ first ts, us ++ t :: rest = first :: ts :=
    List.exists_cons_of_ne_nil (by simp)
  have hread : Reads expression (us ++ t :: rest) e (t :: rest) := expression_complete h hk hend
  rw [heq] at hread ⊢
  obtain ⟨c, hrun, hc⟩ := hread _ (Cursor.at_start first ts)
  have hlen := congrArg List.length heq
  rw [List.length_append, List.length_cons, List.length_cons] at hlen
  have hcount : ts.length - c.rest.length = us.length := by
    rw [hc.rest]
    omega
  rw [ofTokens, hrun, ← hcount]

/-- **Expressions are exactly the phrases of the grammar.**  What is read from the start of some
tokens is a phrase, and every phrase at their start is read with its own expression, unless the
token behind it goes on with it. -/
theorem ofTokens_exact (ts : List Token) :
    (∀ n e, ofTokens ts = .ok (n, e) → n < ts.length ∧ Disjunction (ts.take n) e) ∧
      ∀ n e t k, Disjunction (ts.take n) e → ts[n]? = some t → t.kind? = some k →
        k.continuesExpression = false → ofTokens ts = .ok (n, e) := by
  constructor
  · intro n e h
    obtain ⟨us, rest, rfl, hrest, rfl, hus⟩ := ofTokens_eq_ok h
    have hpos := List.length_pos_iff.mpr hrest
    refine ⟨by rw [List.length_append]; omega, ?_⟩
    rw [List.take_left]
    exact hus
  · intro n e t k h ht hk hend
    obtain ⟨hn, rfl⟩ := List.getElem?_eq_some_iff.mp ht
    have hsplit : ts = ts.take n ++ ts[n] :: ts.drop (n + 1) := by
      rw [List.getElem_cons_drop, List.take_append_drop]
    have hread := ofTokens_append h hk hend (ts.drop (n + 1))
    rw [← hsplit, List.length_take, Nat.min_eq_left (Nat.le_of_lt hn)] at hread
    exact hread

/-- `- a not in ('x') and b + 2 * c >= 1 or count(*)`, in front of a comma. -/
theorem ofTokens_exact_levels :
    let ts : List Token :=
      [⟨.operator, "-", 0⟩, ⟨.identifier, "a", 2⟩, ⟨.keyword, "not", 4⟩, ⟨.keyword, "in", 8⟩,
       ⟨.punctuation, "(", 11⟩, ⟨.string, "x", 12⟩, ⟨.punctuation, ")", 15⟩, ⟨.keyword, "and", 17⟩,
       ⟨.identifier, "b", 21⟩, ⟨.operator, "+", 23⟩, ⟨.number, "2", 25⟩, ⟨.operator, "*", 27⟩,
       ⟨.identifier, "c", 29⟩, ⟨.operator, ">=", 31⟩, ⟨.number, "1", 34⟩, ⟨.keyword, "or", 36⟩,
       ⟨.keyword, "count", 39⟩, ⟨.punctuation, "(", 44⟩, ⟨.operator, "*", 45⟩,
       ⟨.punctuation, ")", 46⟩, ⟨.punctuation, ",", 47⟩, ⟨.eof, "", 48⟩]
    let sum : Expr :=
      .binary (.column ⟨"b", none, none⟩) .add
        (.binary (.literal (.number "2")) .mul (.column ⟨"c", none, none⟩))
    let e : Expr :=
      .binary
        (.binary
          (.membership (.unary .neg (.column ⟨"a", none, none⟩)) [.literal (.string "x")] true)
          .and (.binary sum .ge (.literal (.number "1"))))
        .or (.call "count" [Expr.wildcard none] false none)
    ofTokens ts = .ok (20, e) ∧ 20 < ts.length ∧ Disjunction (ts.take 20) e := by
  intro ts sum e
  have hmember : Comparison (ts.take 7)
      (.membership (.unary .neg (.column ⟨"a", none, none⟩)) [.literal (.string "x")] true) :=
    .notIn (Unary.operator rfl rfl (.primary (.name rfl rfl))).product.sum rfl rfl
      (.mk rfl (.one (Primary.string rfl).disjunction) rfl)
  have hproduct : Product ((ts.drop 10).take 3)
      (.binary (.literal (.number "2")) .mul (.column ⟨"c", none, none⟩)) :=
    .mk (.operator (.operand (Unary.primary (.number rfl))) rfl rfl
      (Unary.primary (.name rfl rfl)))
  have hsum : Sum ((ts.drop 8).take 5) sum :=
    .mk (.operator (.operand (Unary.primary (.name rfl rfl)).product) rfl rfl hproduct)
  have hcompare : Comparison ((ts.drop 8).take 7) (.binary sum .ge (.literal (.number "1"))) :=
    .chain (.operator (.operand hsum) rfl rfl (Primary.number rfl).sum)
  have hcall : Primary ((ts.drop 16).take 4) (.call "count" [Expr.wildcard none] false none) :=
    .call rfl rfl rfl .absent (.present (.one (Primary.asterisk rfl).disjunction)) rfl
  have hphrase : Disjunction (ts.take 20) e :=
    .mk (.operator (.operand (.mk (.operator (.operand hmember) rfl rfl hcompare))) rfl rfl
      hcall.sum.comparison.conjunction)
  have hread := (ofTokens_exact ts).2 20 e ⟨.punctuation, ",", 47⟩ (.mark .comma) hphrase rfl rfl rfl
  exact ⟨hread, (ofTokens_exact ts).1 20 e hread⟩

end Expr
end QueryPipeline
