import QueryPipeline.Proofs.Expr.Lockstep
import QueryPipeline.Script

/-!
# Statements in lockstep

Every rule of statements reads the same from related cursors (`Lockstep.Keeps`), and so does the
rule for a whole script (`Script.keeps_statements`).  Those that take the text of a name have to see
that it is one.
-/

namespace QueryPipeline

namespace Statement

open Rule Lockstep

variable {L : Lockstep}

theorem keeps_need {α : Type} {k : Kind} {x : Rule α} (hk : k.hasFixedName = true)
    (h : L.Keeps x) : L.Keeps (need k >>= fun _ => x) :=
  (agree_consume .statement (L.asksKind hk)).bind fun _ _ _ => h

theorem agree_takeMany (n : Nat) : L.Agree L.Tokens (takeMany n) (takeMany n) := by
  induction n with
  | zero => exact agree_get fun c d hcd => agree_pure (L.current hcd) c d hcd
  | succ n ih =>
    cases n with
    | zero => exact agree_advance
    | succ n => exact agree_advance.bind fun _ _ _ => ih

theorem agree_advanceBy (n : Nat) : L.Agree L.Tokens (advanceBy n) (advanceBy n) := by
  refine Agree.bind keeps_budget ?_
  rintro m _ rfl
  exact agree_takeMany (min n m)

/-- A failure puts both cursors back. -/
theorem keeps_expression : L.Keeps Statement.expression := by
  intro c d hcd
  have hread := Expr.keeps_expression c d hcd
  rw [AgreeAt] at hread ⊢
  rw [expression, expression, ← L.overrun hcd]
  split
  · cases hresult : Expr.expression c with
    | ok e c' =>
      rw [hresult] at hread
      obtain ⟨_, _, hd, heq, hnext⟩ := hread.of_ok
      rw [hd]
      exact .ok heq hnext
    | error error c' =>
      rw [hresult] at hread
      obtain ⟨_, _, hd, hef, _⟩ := hread.of_error
      rw [hd]
      exact .error hef hcd
  next hoverrun => exact .error (L.noTokens hcd hoverrun) hcd

theorem keeps_expressions : L.Keeps Statement.expressions :=
  keeps_sepBy (.mark .comma) keeps_expression

theorem keeps_name : L.Keeps name := by
  refine (agree_consume .statement (L.asksKind rfl)).bind ?_
  rintro t u ⟨htu, hk⟩
  rw [L.text htu hk rfl]
  exact keeps_pure u.text

theorem keeps_someName : L.Keeps (do let n ← name; return some n) :=
  keeps_name.bind fun n => keeps_pure (some n)

/-- The text of a name that was seen. -/
theorem agreeAt_seenName {c d : Cursor} (hcd : L.Cursors c d)
    (hk : c.current.kind? = some .identifier) :
    L.AgreeAt Eq (do let token ← advance; return some token.text)
      (do let token ← advance; return some token.text) c d := by
  refine (agreeAt_advance hcd hk).bind ?_
  rintro t u ⟨htu, ht⟩
  rw [L.text htu ht rfl]
  exact keeps_pure (some u.text)

theorem keeps_tableAlias : L.Keeps tableAlias := by
  intro c d hcd
  refine agreeAt_look hcd fun k hk => ?_
  split
  · exact keeps_someName.behind c d hcd
  · exact agreeAt_seenName hcd hk
  · exact keeps_pure none c d hcd

theorem keeps_tableRef : L.Keeps tableRef := by
  refine keeps_name.bind fun first => (keeps_after _ keeps_name).bind fun second => ?_
  refine keeps_tableAlias.bind fun aliasName => ?_
  split
  · exact keeps_pure _
  · exact keeps_pure _

theorem keeps_whereClause : L.Keeps whereClause :=
  keeps_after _ keeps_expression

/-! ### SELECT -/

theorem keeps_itemAlias : L.Keeps itemAlias := by
  intro c d hcd
  refine agreeAt_look hcd fun k hk => ?_
  split
  · exact keeps_someName.behind c d hcd
  · refine agreeAt_lookNext hcd fun j => ?_
    split
    · exact keeps_pure none c d hcd
    · exact agreeAt_seenName hcd hk
  · exact keeps_pure none c d hcd

theorem keeps_withAlias (e : Expr) : ∀ aliasName, L.Keeps (withAlias e aliasName)
  | none => keeps_pure e
  | some aliasName => by
    rw [withAlias]
    split
    · exact keeps_pure _
    · refine Agree.bind (V := Eq) ?_ fun _ _ _ => keeps_pure e
      exact fun c d hcd => .ok rfl (L.note [.aliasIgnored aliasName e.shape] hcd)

theorem keeps_selectItem : L.Keeps selectItem := by
  refine (keeps_accept _).bind fun b => ?_
  split
  · exact keeps_pure _
  · refine keeps_expression.bind fun e => keeps_itemAlias.bind fun aliasName => ?_
    exact keeps_withAlias e aliasName

theorem keeps_selectList : L.Keeps selectList :=
  keeps_sepBy _ keeps_selectItem

theorem keeps_joinKind : L.Keeps joinKind := by
  refine Keeps.look fun k => ?_
  split
  · exact ((keeps_accept _).bind fun _ => keeps_pure _).behind
  · exact ((keeps_accept _).bind fun _ => keeps_pure _).behind
  · exact (keeps_pure _).behind
  · exact (keeps_pure _).behind
  · exact keeps_pure _

theorem keeps_joinClause : L.Keeps joinClause := by
  refine keeps_joinKind.bind fun kind => keeps_need rfl (keeps_tableRef.bind fun table => ?_)
  exact (keeps_after _ keeps_expression).bind fun condition => keeps_pure _

theorem keeps_joins (n : Nat) : L.Keeps (joins n) := by
  induction n with
  | zero => exact keeps_pure []
  | succ n ih =>
    refine Keeps.look fun k => ?_
    split
    · exact keeps_joinClause.bind fun join => ih.bind fun more => keeps_pure (join :: more)
    · exact keeps_pure []

theorem keeps_sortKey : L.Keeps sortKey := by
  refine keeps_expression.bind fun e => Keeps.look fun k => ?_
  split
  · exact (keeps_pure _).behind
  · exact (keeps_pure _).behind
  · exact keeps_pure _

theorem keeps_sortKeys : L.Keeps sortKeys :=
  keeps_sepBy _ keeps_sortKey

theorem keeps_rowCount : L.Keeps rowCount := by
  refine agree_get fun c d hcd => agreeAt_look hcd fun k hk => ?_
  have hinteger : L.Keeps (unexpected .statement (some .integer) : Rule Int) := by
    refine keeps_unexpected .statement ?_
    rintro _ ⟨⟩
    exact L.asksInteger
  -- the texts are looked at only if the tokens are numbers, and then they are the same
  by_cases hnumber : k = .number
  · subst hnumber
    rw [← L.text (L.current hcd) hk rfl]
    split
    next hpoint =>
      refine (agree_advance c d hcd).bind fun _ _ _ => ?_
      cases hread : Integer.read c.current.text with
      | ok n => exact keeps_pure n
      | error e => exact fun _ _ => .error (L.integer hcd hk hpoint.2 hread)
    · exact hinteger c d hcd
  · rw [if_neg fun h => hnumber h.1, if_neg fun h => hnumber h.1]
    exact hinteger c d hcd

theorem keeps_selectStatement : L.Keeps selectStatement := by
  refine keeps_need rfl ((keeps_accept _).bind fun distinct => ?_)
  refine keeps_selectList.bind fun columns => ?_
  refine (keeps_after _ keeps_tableRef).bind fun source => ?_
  refine keeps_budget.bind fun n => (keeps_joins n).bind fun joins => ?_
  refine keeps_whereClause.bind fun condition => ?_
  refine (keeps_after _ (keeps_need rfl keeps_expressions)).bind fun grouping => ?_
  refine (keeps_after _ keeps_expression).bind fun having => ?_
  refine (keeps_after _ (keeps_need rfl keeps_sortKeys)).bind fun sortKeys => ?_
  refine (keeps_after _ keeps_rowCount).bind fun limit => ?_
  exact (keeps_after _ keeps_rowCount).bind fun offset => keeps_pure _

/-! ### The other statements -/

theorem keeps_columnNames : L.Keeps columnNames := by
  refine (keeps_accept _).bind fun b => ?_
  split
  · exact (keeps_sepBy _ keeps_name).bind fun names => keeps_need rfl (keeps_pure names)
  · exact keeps_pure []

theorem keeps_row : L.Keeps row :=
  keeps_need rfl (keeps_expressions.bind fun values => keeps_need rfl (keeps_pure values))

theorem keeps_insertStatement : L.Keeps insertStatement := by
  refine keeps_need rfl (keeps_need rfl (keeps_tableRef.bind fun table => ?_))
  refine keeps_columnNames.bind fun columns => keeps_need rfl ?_
  exact (keeps_sepBy _ keeps_row).bind fun rows => keeps_pure _

theorem keeps_assignment : L.Keeps assignment := by
  refine keeps_name.bind fun column => keeps_need rfl ?_
  exact keeps_expression.bind fun value => keeps_pure _

theorem keeps_updateStatement : L.Keeps updateStatement := by
  refine keeps_need rfl (keeps_tableRef.bind fun table => keeps_need rfl ?_)
  refine (keeps_sepBy _ keeps_assignment).bind fun assignments => ?_
  exact keeps_whereClause.bind fun condition => keeps_pure _

theorem keeps_deleteStatement : L.Keeps deleteStatement := by
  refine keeps_need rfl (keeps_need rfl (keeps_tableRef.bind fun table => ?_))
  exact keeps_whereClause.bind fun condition => keeps_pure _

theorem keeps_ruleFor? {k : Kind} {rule : Rule Statement} (h : ruleFor? k = some rule) :
    L.Keeps rule := by
  unfold ruleFor? at h
  split at h
  · cases h
    exact keeps_selectStatement.map _
  · cases h
    exact keeps_insertStatement.map _
  · cases h
    exact keeps_updateStatement.map _
  · cases h
    exact keeps_deleteStatement.map _
  · cases h

end Statement

/-! ## Scripts -/

namespace Script

open Rule Lockstep

variable {L : Lockstep}

theorem keeps_terminator : L.Keeps terminator := by
  intro c d hcd
  refine agreeAt_look hcd fun k hk => ?_
  split
  · exact L.step hcd hk nofun
  · exact keeps_pure () c d hcd
  · exact keeps_missing .statement rfl c d hcd

theorem keeps_statement : L.Keeps statement := by
  refine Keeps.look fun k => ?_
  split
  next rule hrule => exact Statement.keeps_ruleFor? hrule
  · exact agree_get fun _ _ hcd => .error (L.statementStart (L.current hcd)) hcd

theorem keeps_statementsFrom (n : Nat) : L.Keeps (statementsFrom n) := by
  induction n with
  | zero => exact keeps_pure []
  | succ n ih =>
    refine Keeps.look fun k => ?_
    split
    · exact keeps_pure []
    · refine keeps_statement.bind fun s => keeps_terminator.bind fun _ => ?_
      exact ih.bind fun more => keeps_pure (s :: more)

theorem keeps_statements : L.Keeps statements := by
  refine keeps_budget.bind fun n => (keeps_statementsFrom n).bind fun all => ?_
  split
  · exact fun _ _ => .error L.emptyQuery
  · exact keeps_pure all

end Script
end QueryPipeline
