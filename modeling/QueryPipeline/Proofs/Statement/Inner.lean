import QueryPipeline.Proofs.Expr.Induction
import QueryPipeline.Proofs.Statement.Grammar

/-!
# Where statements end

No phrase of a statement has a semicolon in it, nor the end (`inner_statement`), so a statement
never reaches over one of them.  And a statement reads the same in front of a semicolon as in front
of the end (`StatementPhrase.ahead`): only the alias of an item looks behind itself, and for it both
end the item.
-/

namespace QueryPipeline

/-! ## What stands inside a statement -/

/-- A token that can stand inside a statement: no semicolon, and not the end. -/
def Token.Inner (t : Token) : Prop :=
  t.kind? ≠ some (.mark .semicolon) ∧ t.kind? ≠ some .eof

theorem Token.Inner.of_kind {t : Token} {k : Kind} (ht : t.kind? = some k)
    (hk : k ≠ .mark .semicolon ∧ k ≠ .eof) : t.Inner := by
  rw [Inner, ht]
  exact ⟨fun h => hk.1 (Option.some.inj h), fun h => hk.2 (Option.some.inj h)⟩

namespace Phrase

variable {α : Type} {P : Phrase α}

/-- All tokens of the phrases can stand inside a statement. -/
def Inner (P : Phrase α) : Prop :=
  ∀ us a, P us a → ∀ t ∈ us, t.Inner

theorem inner_flag {k : Kind} (hk : k ≠ .mark .semicolon ∧ k ≠ .eof) : Inner (Flag k) := by
  intro us b h
  cases h with
  | absent => nofun
  | present ht => exact List.forall_mem_singleton.mpr (.of_kind ht hk)

theorem Inner.after (h : Inner P) {k : Kind} (hk : k ≠ .mark .semicolon ∧ k ≠ .eof) :
    Inner (After k P) := by
  intro us o hafter
  cases hafter with
  | absent => nofun
  | present ht hP => exact List.forall_mem_cons.mpr ⟨.of_kind ht hk, h _ _ hP⟩

theorem Inner.behind (h : Inner P) {k : Kind} (hk : k ≠ .mark .semicolon ∧ k ≠ .eof) :
    Inner (Behind k P) := by
  rintro _ a ⟨ht, hP⟩
  exact List.forall_mem_cons.mpr ⟨.of_kind ht hk, h _ _ hP⟩

theorem inner_maybe (h : Inner P) : Inner (Maybe P) := by
  intro us o hmaybe
  cases hmaybe with
  | absent => nofun
  | present hP => exact h _ _ hP

theorem inner_separatedBefore {P : Option Kind → Phrase α} (h : ∀ next, Inner (P next)) {k : Kind}
    (hk : k ≠ .mark .semicolon ∧ k ≠ .eof) (next : Option Kind) :
    Inner (SeparatedBefore k P next) := by
  intro us as hall
  induction hall with
  | one hP => exact h _ _ _ hP
  | more hP ht _ ih =>
    rw [List.forall_mem_append, List.forall_mem_cons]
    exact ⟨h _ _ _ hP, .of_kind ht hk, ih⟩

theorem Inner.separated (h : Inner P) {k : Kind} (hk : k ≠ .mark .semicolon ∧ k ≠ .eof) :
    Inner (Separated k P) :=
  fun us as hall => inner_separatedBefore (fun _ => h) hk none us as (hall.before none)

theorem Inner.repeated (h : Inner P) : Inner (Repeated P) := by
  intro us as hall
  induction hall with
  | nil => nofun
  | cons hP _ ih => exact List.forall_mem_append.mpr ⟨h _ _ hP, ih⟩

/-- Only the last part of a list sees what stands behind the list. -/
theorem SeparatedBefore.ahead {P : Option Kind → Phrase α} {k : Kind} {next next' : Option Kind}
    (h : ∀ us a, P next us a → P next' us a) {us : List Token} {as : List α}
    (hall : SeparatedBefore k P next us as) : SeparatedBefore k P next' us as := by
  induction hall with
  | one hP => exact .one (h _ _ hP)
  | more hP ht _ ih => exact .more hP ht ih

end Phrase

namespace Grammar

open Phrase (Inner)

theorem kind_of_isName {k : Kind} (h : k.isName = true) : k ≠ .mark .semicolon ∧ k ≠ .eof := by
  constructor <;> rintro rfl <;> cases h

theorem kind_of_unary {k : Kind} {o : UnaryOperator} (h : UnaryOperator.ofKind? k = some o) :
    k ≠ .mark .semicolon ∧ k ≠ .eof := by
  constructor <;> rintro rfl <;> cases h

theorem kind_of_binary (o : BinaryOperator) : o.kind ≠ .mark .semicolon ∧ o.kind ≠ .eof := by
  cases o <;> decide

theorem inner_branch {P : Phrase Expr} (h : Inner P) : Inner (Branch P) := by
  rintro _ _ ⟨hw, hcondition, ht, hresult⟩
  simp only [List.forall_mem_cons, List.forall_mem_append]
  exact ⟨.of_kind hw (by decide), h _ _ hcondition, .of_kind ht (by decide), h _ _ hresult⟩

theorem compositional_inner : Compositional (fun us _ => ∀ t ∈ us, t.Inner) := by
  have hself : Inner (fun (us : List Token) (_ : Expr) => ∀ t ∈ us, t.Inner) := fun _ _ h => h
  have hlist := hself.separated (k := .mark .comma) (by decide)
  constructor
  case number => exact fun ht => List.forall_mem_singleton.mpr (.of_kind ht (by decide))
  case string => exact fun ht => List.forall_mem_singleton.mpr (.of_kind ht (by decide))
  case null => exact fun ht => List.forall_mem_singleton.mpr (.of_kind ht (by decide))
  case asterisk => exact fun ht => List.forall_mem_singleton.mpr (.of_kind ht (by decide))
  case name => exact fun ht hk => List.forall_mem_singleton.mpr (.of_kind ht (kind_of_isName hk))
  case qualified =>
    intro t d u k ht hk hd hu
    simp only [List.forall_mem_cons]
    exact ⟨.of_kind ht (kind_of_isName hk), .of_kind hd (by decide), .of_kind hu (by decide), nofun⟩
  case wildcard =>
    intro t d u k ht hk hd hu
    simp only [List.forall_mem_cons]
    exact ⟨.of_kind ht (kind_of_isName hk), .of_kind hd (by decide), .of_kind hu (by decide), nofun⟩
  case call =>
    intro t l r k us vs distinct arguments ht hk hl hus hvs hr
    simp only [List.forall_mem_cons, List.forall_mem_append]
    exact ⟨.of_kind ht (kind_of_isName hk), .of_kind hl (by decide),
      Phrase.inner_flag (by decide) _ _ hus, Phrase.inner_maybe hlist _ _ hvs,
      .of_kind hr (by decide), nofun⟩
  case caseOf =>
    intro t u us vs ws operand otherwise whens ht hus hvs _ hws hu
    simp only [List.forall_mem_cons, List.forall_mem_append]
    exact ⟨.of_kind ht (by decide), Phrase.inner_maybe hself _ _ hus,
      (inner_branch hself).repeated _ _ hvs, hself.after (by decide) _ _ hws,
      .of_kind hu (by decide), nofun⟩
  case parens =>
    intro l r us e hl hus hr
    simp only [List.forall_mem_cons, List.forall_mem_append]
    exact ⟨.of_kind hl (by decide), hus, .of_kind hr (by decide), nofun⟩
  case unary =>
    exact fun hk ho hus => List.forall_mem_cons.mpr ⟨.of_kind hk (kind_of_unary ho), hus⟩
  case binary =>
    intro us vs t o left right hus ht hvs
    rw [List.forall_mem_append, List.forall_mem_cons]
    exact ⟨hus, .of_kind ht (kind_of_binary o), hvs⟩
  case membership =>
    intro us ns vs t l r negated e es hus hns ht hl hvs hr
    simp only [List.forall_mem_cons, List.forall_mem_append]
    exact ⟨hus, Phrase.inner_flag (by decide) _ _ hns, .of_kind ht (by decide),
      .of_kind hl (by decide), hlist _ _ hvs, .of_kind hr (by decide), nofun⟩

theorem inner_disjunction : Inner Disjunction :=
  fun _ _ => compositional_inner.disjunction

theorem inner_identifier : Inner Identifier := by
  rintro _ _ ⟨ht⟩
  exact List.forall_mem_singleton.mpr (.of_kind ht (by decide))

theorem inner_tableAlias : Inner TableAlias := by
  intro us o h
  cases h with
  | absent => nofun
  | present hflag ht =>
    rw [List.forall_mem_append, List.forall_mem_singleton]
    exact ⟨Phrase.inner_flag (by decide) _ _ hflag, .of_kind ht (by decide)⟩

theorem inner_table : Inner TablePhrase := by
  intro us table h
  cases h with
  | plain ht hus =>
    exact List.forall_mem_cons.mpr ⟨.of_kind ht (by decide), inner_tableAlias _ _ hus⟩
  | ofSchema hs hd ht hus =>
    simp only [List.forall_mem_cons]
    exact ⟨.of_kind hs (by decide), .of_kind hd (by decide), .of_kind ht (by decide),
      inner_tableAlias _ _ hus⟩

theorem inner_joinWords : Inner JoinWords := by
  intro us kind h
  cases h with
  | plain => nofun
  | inner ht => exact List.forall_mem_singleton.mpr (.of_kind ht (by decide))
  | outer ht => exact List.forall_mem_singleton.mpr (.of_kind ht (by decide))
  | left ht hus =>
    exact List.forall_mem_cons.mpr
      ⟨.of_kind ht (by decide), Phrase.inner_flag (by decide) _ _ hus⟩
  | right ht hus =>
    exact List.forall_mem_cons.mpr
      ⟨.of_kind ht (by decide), Phrase.inner_flag (by decide) _ _ hus⟩

theorem inner_join : Inner JoinPhrase := by
  rintro _ j ⟨hus, ht, hvs, hws⟩
  simp only [List.forall_mem_append, List.forall_mem_cons]
  exact ⟨inner_joinWords _ _ hus, .of_kind ht (by decide), inner_table _ _ hvs,
    inner_disjunction.after (by decide) _ _ hws⟩

theorem inner_item (next : Option Kind) : Inner (ItemPhrase next) := by
  intro us e h
  cases h with
  | asterisk ht => exact List.forall_mem_singleton.mpr (.of_kind ht (by decide))
  | plain hus => exact inner_disjunction _ _ hus
  | named hus _ hs ht =>
    simp only [List.forall_mem_append, List.forall_mem_cons]
    exact ⟨inner_disjunction _ _ hus, .of_kind hs (by decide), .of_kind ht (by decide), nofun⟩
  | bare hus _ ht =>
    rw [List.forall_mem_append, List.forall_mem_singleton]
    exact ⟨inner_disjunction _ _ hus, .of_kind ht (by decide)⟩

theorem inner_sortKey : Inner SortPhrase := by
  rintro _ _ ⟨hus, hvs⟩
  refine List.forall_mem_append.mpr ⟨inner_disjunction _ _ hus, ?_⟩
  cases hvs with
  | absent => nofun
  | ascending ht => exact List.forall_mem_singleton.mpr (.of_kind ht (by decide))
  | descending ht => exact List.forall_mem_singleton.mpr (.of_kind ht (by decide))

theorem inner_rowCount : Inner RowCount := by
  rintro _ _ ⟨ht, _, _⟩
  exact List.forall_mem_singleton.mpr (.of_kind ht (by decide))

theorem inner_clauses : Inner Clauses := by
  rintro _ s ⟨hfs, hjs, hws, hgs, hhs, hos, hls, hps⟩
  have hexprs := inner_disjunction.separated (k := .mark .comma) (by decide)
  have hkeys := inner_sortKey.separated (k := .mark .comma) (by decide)
  simp only [List.forall_mem_append]
  exact ⟨inner_table.after (by decide) _ _ hfs, inner_join.repeated _ _ hjs,
    inner_disjunction.after (by decide) _ _ hws,
    (hexprs.behind (by decide)).after (by decide) _ _ hgs,
    inner_disjunction.after (by decide) _ _ hhs,
    (hkeys.behind (by decide)).after (by decide) _ _ hos,
    inner_rowCount.after (by decide) _ _ hls, inner_rowCount.after (by decide) _ _ hps⟩

theorem inner_select (next : Option Kind) : Inner (SelectPhrase next) := by
  rintro _ s ⟨ht, hds, his, hcs⟩
  simp only [List.forall_mem_cons, List.forall_mem_append]
  exact ⟨.of_kind ht (by decide), Phrase.inner_flag (by decide) _ _ hds,
    Phrase.inner_separatedBefore inner_item (by decide) _ _ _ his, inner_clauses _ _ hcs⟩

theorem inner_columnNames : Inner ColumnNames := by
  intro us names h
  cases h with
  | absent => nofun
  | present hl hus hr =>
    simp only [List.forall_mem_cons, List.forall_mem_append]
    exact ⟨.of_kind hl (by decide), inner_identifier.separated (by decide) _ _ hus,
      .of_kind hr (by decide), nofun⟩

theorem inner_values : Inner Values := by
  rintro _ es ⟨hl, hus, hr⟩
  simp only [List.forall_mem_cons, List.forall_mem_append]
  exact ⟨.of_kind hl (by decide), inner_disjunction.separated (by decide) _ _ hus,
    .of_kind hr (by decide), nofun⟩

theorem inner_insert : Inner InsertPhrase := by
  rintro _ s ⟨hi, ho, hus, hcs, hv, hrs⟩
  simp only [List.forall_mem_cons, List.forall_mem_append]
  exact ⟨.of_kind hi (by decide), .of_kind ho (by decide), inner_table _ _ hus,
    inner_columnNames _ _ hcs, .of_kind hv (by decide),
    inner_values.separated (by decide) _ _ hrs⟩

theorem inner_assignment : Inner AssignmentPhrase := by
  rintro _ _ ⟨hn, hq, hus⟩
  simp only [List.forall_mem_cons]
  exact ⟨.of_kind hn (by decide), .of_kind hq (by decide), inner_disjunction _ _ hus⟩

theorem inner_update : Inner UpdatePhrase := by
  rintro _ s ⟨hu, hus, ht, has, hws⟩
  simp only [List.forall_mem_cons, List.forall_mem_append]
  exact ⟨.of_kind hu (by decide), inner_table _ _ hus, .of_kind ht (by decide),
    inner_assignment.separated (by decide) _ _ has, inner_disjunction.after (by decide) _ _ hws⟩

theorem inner_delete : Inner DeletePhrase := by
  rintro _ s ⟨hd, hf, hus, hws⟩
  simp only [List.forall_mem_cons, List.forall_mem_append]
  exact ⟨.of_kind hd (by decide), .of_kind hf (by decide), inner_table _ _ hus,
    inner_disjunction.after (by decide) _ _ hws⟩

/-- **No statement reaches over a semicolon or the end.** -/
theorem inner_statement (next : Option Kind) : Inner (StatementPhrase next) := by
  intro us s h
  cases h with
  | select h => exact inner_select next _ _ h
  | insert h => exact inner_insert _ _ h
  | update h => exact inner_update _ _ h
  | delete h => exact inner_delete _ _ h

/-! ## What stands behind a statement -/

/-- In front of a token that ends an item, the item reads as in front of any other one: it has no
alias without `AS` there. -/
theorem ItemPhrase.ahead {k : Kind} (hk : Statement.endsItem k = true) {us : List Token} {e : Expr}
    (h : ItemPhrase (some k) us e) (next : Option Kind) : ItemPhrase next us e := by
  cases h with
  | asterisk ht => exact .asterisk ht
  | plain hus hbegins => exact .plain hus hbegins
  | named hus hbegins hs ht => exact .named hus hbegins hs ht
  | bare _ _ _ hnext hends =>
    cases hnext
    rw [hk] at hends
    cases hends

/-- A statement reads the same in front of all tokens that end an item. -/
theorem StatementPhrase.ahead {j k : Kind} (hj : Statement.endsItem j = true) {us : List Token}
    {s : Statement} (h : StatementPhrase (some j) us s) : StatementPhrase (some k) us s := by
  cases h with
  | select h =>
    obtain ⟨ht, hds, his, hcs⟩ := h
    refine .select (.mk ht hds ?_ hcs)
    -- the last item sees what stands behind the statement only if there are no clauses
    generalize hbehind : Phrase.kindBehind _ (some j) = next at his
    unfold Phrase.kindBehind at hbehind ⊢
    split at hbehind
    · rw [← hbehind] at his
      exact his.ahead fun _ _ h => h.ahead hj _
    · rw [hbehind]
      exact his
  | insert h => exact .insert h
  | update h => exact .update h
  | delete h => exact .delete h

end Grammar
end QueryPipeline
