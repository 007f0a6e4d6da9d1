import QueryPipeline.Proofs.Expr.Complete
import QueryPipeline.Proofs.Statement.Grammar
import QueryPipeline.Script

/-!
# The rules read every statement of the grammar

A clause is read as a whole if the token behind it starts a later clause or ends the statement.  The
clauses have a fixed order, which `Kind.clauseRank` numbers; for what follows a clause it is enough
to know that its rank is higher.  All tokens with a rank end an expression, a table and an item
(`ends_of_clauseRank`), so the lemmas of the clauses need no more than that.
-/

namespace QueryPipeline

/-- The place of a clause in a select statement, by the kind of its first token.  Behind all clauses
there is a semicolon or the end. -/
def Kind.clauseRank : Kind → Nat
  | .keyword .FROM => 1
  | .keyword .JOIN => 2
  | .keyword .LEFT => 2
  | .keyword .RIGHT => 2
  | .keyword .INNER => 2
  | .keyword .OUTER => 2
  | .keyword .WHERE => 3
  | .keyword .GROUP => 4
  | .keyword .HAVING => 5
  | .keyword .ORDER => 6
  | .keyword .LIMIT => 7
  | .keyword .OFFSET => 8
  | .mark .semicolon => 9
  | .eof => 9
  | _ => 0

namespace Statement

open Rule Grammar

/-- The kinds that are no part of a table in front of them. -/
def EndsTable (k : Kind) : Prop :=
  k ≠ .mark .dot ∧ k ≠ .keyword .AS ∧ k ≠ .identifier

theorem ends_of_clauseRank {k : Kind} (h : 0 < k.clauseRank) :
    k.continuesExpression = false ∧ EndsTable k ∧ k ≠ .mark .comma ∧ k ≠ .keyword .ON ∧
      k ≠ .keyword .ASC ∧ k ≠ .keyword .DESC := by
  unfold EndsTable
  cases k with
  | keyword w =>
    revert h
    cases w <;> decide
  | mark m =>
    revert h
    cases m <;> decide
  | eof => exact ⟨rfl, ⟨nofun, nofun, nofun⟩, nofun, nofun, nofun, nofun⟩
  | sign | identifier | number | string | unsorted | other => cases h

theorem expression_complete : Complete expression Disjunction (·.continuesExpression = false) := by
  intro us e t k rest h hk hend c hc
  obtain ⟨c', hrun, hc'⟩ := Expr.expression_complete h hk hend c hc
  exact ⟨c', by rw [expression, if_pos hc.1, hrun], hc'⟩

theorem expressions_complete :
    Complete expressions (Phrase.Separated (.mark .comma) Disjunction)
      (fun k => k ≠ .mark .comma ∧ k.continuesExpression = false) :=
  sepBy_complete (by simp) expression_complete rfl

theorem name_complete : Complete name Identifier (fun _ => True) := by
  intro us n t k rest h _ _
  obtain ⟨hs⟩ := h
  exact Reads.bind (reads_consume _ hs (by simp) (by simp)) (Reads.pure _ _)

/-! ## Tables and joins -/

theorem tableAlias_complete :
    Complete tableAlias TableAlias (fun k => k ≠ .keyword .AS ∧ k ≠ .identifier) := by
  intro us o t k rest h hk hend
  cases h with
  | absent =>
    apply Reads.bind (reads_look hk rest)
    split
    · exact absurd rfl hend.1
    · exact absurd rfl hend.2
    · exact Reads.pure _ _
  | present hflag hs =>
    cases hflag with
    | absent =>
      apply Reads.bind (reads_look hs _)
      exact Reads.bind (reads_advance hs (by simp) (by simp)) (Reads.pure _ _)
    | present has =>
      apply Reads.bind (reads_look has _)
      apply Reads.bind (reads_advance has (by simp) (by simp))
      exact Reads.bind (name_complete (.mk hs) hk trivial) (Reads.pure _ _)

/-- Behind the name of a table there is no dot, with or without an alias. -/
theorem begins_tableAlias {us : List Token} {o : Option String} (h : TableAlias us o)
    {ts : List Token} (hts : Phrase.Begins EndsTable ts) :
    Phrase.Begins (· ≠ .mark .dot) (us ++ ts) := by
  cases h with
  | absent => exact hts.mono fun _ hk => hk.1
  | present hflag hs =>
    cases hflag with
    | absent => exact ⟨_, _, _, rfl, hs, nofun⟩
    | present has => exact ⟨_, _, _, rfl, has, nofun⟩

theorem tableRef_complete : Complete tableRef TablePhrase EndsTable := by
  intro us table t k rest h hk hend
  have hnext : Phrase.Begins EndsTable (t :: rest) := ⟨t, rest, k, rfl, hk, hend⟩
  have hafter := after_complete (k := .mark .dot) (by simp) name_complete
  cases h with
  | plain hs hus =>
    have hdot := (begins_tableAlias hus hnext).mono fun _ hj => And.intro hj trivial
    refine Reads.bind (Reads.bind (reads_consume _ hs (by simp) (by simp)) (Reads.pure _ _)) ?_
    apply Reads.bind (hafter.reads .absent hdot)
    exact Reads.bind (tableAlias_complete hus hk hend.2) (Reads.pure _ _)
  | ofSchema hs hd hu hus =>
    have hdot := (begins_tableAlias hus hnext).mono fun _ hj => And.intro hj trivial
    refine Reads.bind (Reads.bind (reads_consume _ hs (by simp) (by simp)) (Reads.pure _ _)) ?_
    apply Reads.bind (hafter.reads (.present hd (.mk hu)) hdot)
    exact Reads.bind (tableAlias_complete hus hk hend.2) (Reads.pure _ _)

theorem joinKind_complete : Complete joinKind JoinWords (· = .keyword .JOIN) := by
  rintro us kind t k rest h hk rfl
  cases h with
  | plain => exact Reads.bind (reads_look hk rest) (Reads.pure _ _)
  | inner hs =>
    apply Reads.bind (reads_look hs _)
    exact Reads.bind (reads_advance hs (by simp) (by simp)) (Reads.pure _ _)
  | outer hs =>
    apply Reads.bind (reads_look hs _)
    exact Reads.bind (reads_advance hs (by simp) (by simp)) (Reads.pure _ _)
  | left hs hflag =>
    apply Reads.bind (reads_look hs _)
    apply Reads.bind (reads_advance hs (by simp) (by simp))
    exact Reads.bind (accept_complete (by simp) hflag hk (by simp)) (Reads.pure _ _)
  | right hs hflag =>
    apply Reads.bind (reads_look hs _)
    apply Reads.bind (reads_advance hs (by simp) (by simp))
    exact Reads.bind (accept_complete (by simp) hflag hk (by simp)) (Reads.pure _ _)

theorem joinClause_complete : Complete joinClause JoinPhrase (0 < ·.clauseRank) := by
  intro us join t k rest h hk hend
  obtain ⟨hcont, htable, _, hon, _⟩ := ends_of_clauseRank hend
  cases h with
  | @mk us vs ws s _ hus hs hvs hws =>
    have hlast : Phrase.Begins EndsTable (t :: rest) := ⟨t, rest, k, rfl, hk, htable⟩
    have hnext : Phrase.Begins EndsTable (ws ++ t :: rest) :=
      hws.begins ⟨nofun, nofun, nofun⟩ hlast fun _ hj => hj
    simp only [List.append_assoc, List.cons_append]
    apply Reads.bind (joinKind_complete hus hs rfl)
    apply Reads.bind (reads_consume _ hs (by simp) (by simp))
    apply Reads.bind (tableRef_complete.reads hvs hnext)
    apply Reads.bind (after_complete (by simp) expression_complete hws hk ⟨hon, hcont⟩)
    exact Reads.pure _ _

theorem begins_joinWords {us : List Token} {kind : JoinKind} (h : JoinWords us kind) {s : Token}
    (hs : s.kind? = some (.keyword .JOIN)) (ts : List Token) :
    Phrase.Begins (startsJoin · = true) (us ++ s :: ts) := by
  cases h with
  | plain => exact ⟨_, _, _, rfl, hs, rfl⟩
  | inner ht => exact ⟨_, _, _, rfl, ht, rfl⟩
  | outer ht => exact ⟨_, _, _, rfl, ht, rfl⟩
  | left ht => exact ⟨_, _, _, rfl, ht, rfl⟩
  | right ht => exact ⟨_, _, _, rfl, ht, rfl⟩

theorem begins_join {us : List Token} {join : Join} :
    JoinPhrase us join → Phrase.Begins (startsJoin · = true) us
  | .mk hus hs _ _ => begins_joinWords hus hs _

theorem clauseRank_of_startsJoin {k : Kind} (h : startsJoin k = true) : k.clauseRank = 2 := by
  unfold startsJoin at h
  split at h
  case h_6 => cases h
  all_goals rfl

theorem begins_joins {us : List Token} {joins : List Join} (h : Phrase.Repeated JoinPhrase us joins)
    {ts : List Token} (hts : Phrase.Begins (2 < ·.clauseRank) ts) :
    Phrase.Begins (1 < ·.clauseRank) (us ++ ts) := by
  cases h with
  | nil => exact hts.mono fun _ hk => Nat.lt_of_succ_lt hk
  | cons h =>
    rw [List.append_assoc]
    refine ((begins_join h).mono fun k hk => ?_).append _
    rw [clauseRank_of_startsJoin hk]
    decide

theorem joins_complete : ∀ n, Complete (joins n)
    (fun us all => us.length ≤ n ∧ Phrase.Repeated JoinPhrase us all) (2 < ·.clauseRank) := by
  intro n
  induction n with
  | zero =>
    rintro us all t k rest ⟨hn, h⟩ hk hend
    obtain rfl := List.eq_nil_of_length_eq_zero (Nat.le_zero.mp hn)
    generalize hnil : ([] : List Token) = us at h
    cases h with
    | nil => exact Reads.pure _ _
    | cons h => exact absurd (List.append_eq_nil_iff.mp hnil.symm).1 (begins_join h).ne_nil
  | succ n ih =>
    rintro us all t k rest ⟨hn, h⟩ hk hend
    cases h with
    | nil =>
      apply Reads.bind (reads_look hk rest)
      have hjoin : ¬startsJoin k = true := by
        intro hj
        rw [clauseRank_of_startsJoin hj] at hend
        exact absurd hend (by decide)
      rw [if_neg hjoin]
      exact Reads.pure _ _
    | @cons us vs join all h hall =>
      have hpos := List.length_pos_iff.mpr (begins_join h).ne_nil
      rw [List.length_append] at hn
      have hnext := (begins_joins hall ⟨t, rest, k, rfl, hk, hend⟩).mono
        fun _ hj => Nat.lt_of_succ_lt hj
      have hread := joinClause_complete.reads h hnext
      obtain ⟨s, ts, j, heq, hj, hstart⟩ := (begins_join h).append (vs ++ t :: rest)
      rw [List.append_assoc]
      rw [heq] at hread ⊢
      apply Reads.bind (reads_look hj ts)
      rw [if_pos hstart]
      apply Reads.bind hread
      exact Reads.bind (ih ⟨by omega, hall⟩ hk hend) (Reads.pure _ _)

/-! ## SELECT -/

theorem reads_withAlias (e : Expr) (o : Option String) (ts : List Token) :
    Reads (withAlias e o) ts (o.elim e e.aliased) ts := by
  cases o with
  | none => exact Reads.pure e ts
  | some n =>
    intro c hc
    rw [withAlias, Option.elim, Expr.aliased]
    cases hn : e.withAlias? n with
    | some named => exact ⟨c, rfl, hc⟩
    | none => exact ⟨_, rfl, hc⟩

/-- The kinds behind an item of a select list: the next item, a clause, or the end. -/
def EndsItem (k : Kind) : Prop :=
  k = .mark .comma ∨ 0 < k.clauseRank

theorem continues_of_endsItem {k : Kind} (h : EndsItem k) :
    k.continuesExpression = false ∧ k ≠ .keyword .AS ∧ k ≠ .identifier := by
  rcases h with rfl | h
  · exact ⟨rfl, nofun, nofun⟩
  · obtain ⟨hcont, htable, _⟩ := ends_of_clauseRank h
    exact ⟨hcont, htable.2⟩

/-- An item that is no asterisk is read as an expression and what follows it. -/
theorem reads_selectItem {us vs rest : List Token} {e : Expr} {o : Option String}
    (hus : Disjunction us e) (hbegins : Phrase.Begins (· ≠ .sign .asterisk) us)
    (hvs : Phrase.Begins (·.continuesExpression = false) vs) (halias : Reads itemAlias vs o rest) :
    Reads selectItem (us ++ vs) (o.elim e e.aliased) rest := by
  have hread := expression_complete.reads hus hvs
  obtain ⟨t, ts, j, heq, hj, hne⟩ := hbegins.append vs
  rw [heq] at hread ⊢
  apply Reads.bind (reads_accept_other hj hne ts)
  apply Reads.bind hread
  apply Reads.bind halias
  exact reads_withAlias e o rest

/-- A name behind an expression is its alias, if the next token does not end an item. -/
theorem reads_bareItem {us rest : List Token} {e : Expr} {u t : Token} {k : Kind}
    (hus : Disjunction us e) (hbegins : Phrase.Begins (· ≠ .sign .asterisk) us)
    (hu : u.kind? = some .identifier) (ht : t.kind? = some k) (hk : endsItem k = false) :
    Reads selectItem (us ++ u :: t :: rest) (e.aliased u.text) (t :: rest) := by
  refine reads_selectItem (o := some u.text) hus hbegins ⟨u, _, _, rfl, hu, rfl⟩ ?_
  apply Reads.bind (reads_look hu _)
  apply Reads.bind (reads_lookNext ht _)
  rw [if_neg (by simp [hk])]
  exact Reads.bind (reads_advance hu (by simp) (by simp)) (Reads.pure _ _)

/-- An item is read in front of a token that does not go on with its expression, and is no alias. -/
theorem reads_item {us rest : List Token} {e : Expr} {t : Token} {k : Kind}
    (h : ItemPhrase (some k) us e) (hk : t.kind? = some k) (hcont : k.continuesExpression = false)
    (hnone : Reads itemAlias (t :: rest) none (t :: rest)) :
    Reads selectItem (us ++ t :: rest) e (t :: rest) := by
  cases h with
  | asterisk hs => exact Reads.bind (reads_accept hs (by simp) (by simp)) (Reads.pure _ _)
  | plain hus hbegins =>
    exact reads_selectItem (o := none) hus hbegins ⟨t, rest, k, rfl, hk, hcont⟩ hnone
  | @named us s u e hus hbegins hs hu =>
    rw [List.append_assoc]
    refine reads_selectItem (o := some u.text) hus hbegins ⟨s, _, _, rfl, hs, rfl⟩ ?_
    apply Reads.bind (reads_look hs _)
    apply Reads.bind (reads_advance hs (by simp) (by simp))
    exact Reads.bind (name_complete (.mk hu) hk trivial) (Reads.pure _ _)
  | bare hus hbegins hu hj hbare =>
    cases hj
    rw [List.append_assoc]
    exact reads_bareItem hus hbegins hu hk hbare

theorem selectItem_complete : CompleteBefore selectItem
    (fun next us e => (∃ k, next = some k ∧ EndsItem k) ∧ ItemPhrase next us e) := by
  rintro us e t k rest ⟨⟨_, ⟨⟩, hend⟩, h⟩ hk
  obtain ⟨hcont, has, hident⟩ := continues_of_endsItem hend
  refine reads_item h hk hcont ?_
  apply Reads.bind (reads_look hk rest)
  split
  · exact absurd rfl has
  · exact absurd rfl hident
  · exact Reads.pure _ _

theorem sortKey_complete : Complete sortKey SortPhrase
    (fun k => k.continuesExpression = false ∧ k ≠ .keyword .ASC ∧ k ≠ .keyword .DESC) := by
  intro us key t k rest h hk hend
  obtain ⟨hus, hvs⟩ := h
  rw [List.append_assoc]
  cases hvs with
  | absent =>
    apply Reads.bind (expression_complete hus hk hend.1)
    apply Reads.bind (reads_look hk rest)
    split
    · exact absurd rfl hend.2.1
    · exact absurd rfl hend.2.2
    · exact Reads.pure _ _
  | ascending hs =>
    apply Reads.bind (expression_complete hus hs rfl)
    apply Reads.bind (reads_look hs _)
    exact Reads.bind (reads_advance hs (by simp) (by simp)) (Reads.pure _ _)
  | descending hs =>
    apply Reads.bind (expression_complete hus hs rfl)
    apply Reads.bind (reads_look hs _)
    exact Reads.bind (reads_advance hs (by simp) (by simp)) (Reads.pure _ _)

theorem rowCount_complete : Complete rowCount RowCount (fun _ => True) := by
  intro us n t k rest h _ _
  cases h with
  | mk hs hpoint hread =>
    refine Reads.get fun c hc => ?_
    apply Reads.bind (reads_look hs _)
    rw [hc.current, if_pos ⟨rfl, hpoint⟩]
    apply Reads.bind (reads_advance hs (by simp) (by simp))
    simp only [hread]
    exact Reads.pure _ _

theorem begins_item {next : Option Kind} {us : List Token} {e : Expr} (h : ItemPhrase next us e) :
    Phrase.Begins (startsExpression · = true) us := by
  cases h with
  | asterisk hs => exact ⟨_, _, _, rfl, hs, rfl⟩
  | plain hus => exact hus.begins
  | named hus => exact hus.begins.append _
  | bare hus => exact hus.begins.append _

theorem begins_items {next : Option Kind} {us : List Token} {es : List Expr}
    (h : Phrase.SeparatedBefore (.mark .comma) ItemPhrase next us es) :
    Phrase.Begins (startsExpression · = true) us := by
  cases h with
  | one h => exact begins_item h
  | more h => exact (begins_item h).append _

/-- The items, in front of the first clause or the end. -/
theorem reads_selectList {us ts : List Token} {es : List Expr}
    (h : Phrase.SeparatedBefore (.mark .comma) ItemPhrase (Phrase.headKind ts) us es)
    (hts : Phrase.Begins (0 < ·.clauseRank) ts) : Reads selectList (us ++ ts) es ts := by
  obtain ⟨t, rest, k, rfl, hk, hrank⟩ := hts
  have hnext : Phrase.headKind (t :: rest) = some k := hk
  rw [hnext] at h
  refine sepBy_completeBefore (by simp) selectItem_complete ⟨?_, ?_⟩ hk
  · intro heq
    exact (ends_of_clauseRank hrank).2.2.1 (Option.some.inj heq)
  · exact h.mono (fun _ _ hP => ⟨⟨_, rfl, Or.inl rfl⟩, hP⟩)
      fun _ _ hP => ⟨⟨_, rfl, Or.inr hrank⟩, hP⟩

theorem sortKeys_complete : Complete sortKeys (Phrase.Separated (.mark .comma) SortPhrase)
    (fun k => k ≠ .mark .comma ∧
      k.continuesExpression = false ∧ k ≠ .keyword .ASC ∧ k ≠ .keyword .DESC) :=
  sepBy_complete (by simp) sortKey_complete ⟨rfl, nofun, nofun⟩

/-- A clause that may be missing, in front of what starts a later clause. -/
theorem reads_clause {α : Type} {k : Kind} {r : Rule α} {P : Phrase α} {S : Kind → Prop}
    (hne : k ≠ .eof) (hr : Complete r P S) (hS : ∀ j, 0 < j.clauseRank → S j) {us : List Token}
    {o : Option α} (h : Phrase.After k P us o) {ts : List Token}
    (hts : Phrase.Begins (k.clauseRank < ·.clauseRank) ts) :
    Reads (after k r) (us ++ ts) o ts := by
  refine (after_complete hne hr).reads h (hts.mono fun j hj => ⟨?_, hS j (Nat.zero_lt_of_lt hj)⟩)
  rintro rfl
  exact absurd hj (Nat.lt_irrefl _)

/-- **Every select statement of the grammar is read**, in front of a semicolon or the end. -/
theorem selectStatement_complete : CompleteBefore selectStatement
    (fun next us s => (∃ k, next = some k ∧ 8 < k.clauseRank) ∧ SelectPhrase next us s) := by
  rintro us s t k rest ⟨⟨_, ⟨⟩, hend⟩, h⟩ hk
  obtain ⟨hu, hds, his, ⟨hfs, hjs, hws, hgs, hhs, hos, hls, hps⟩⟩ := h
  -- What stands behind each clause has a higher rank, from the last clause to the first.
  have hb₈ : Phrase.Begins (8 < ·.clauseRank) (t :: rest) := ⟨t, rest, k, rfl, hk, hend⟩
  have hb₇ := hps.begins (T := (7 < ·.clauseRank)) (by decide) hb₈ fun _ => Nat.lt_of_succ_lt
  have hb₆ := hls.begins (T := (6 < ·.clauseRank)) (by decide) hb₇ fun _ => Nat.lt_of_succ_lt
  have hb₅ := hos.begins (T := (5 < ·.clauseRank)) (by decide) hb₆ fun _ => Nat.lt_of_succ_lt
  have hb₄ := hhs.begins (T := (4 < ·.clauseRank)) (by decide) hb₅ fun _ => Nat.lt_of_succ_lt
  have hb₃ := hgs.begins (T := (3 < ·.clauseRank)) (by decide) hb₄ fun _ => Nat.lt_of_succ_lt
  have hb₂ := hws.begins (T := (2 < ·.clauseRank)) (by decide) hb₃ fun _ => Nat.lt_of_succ_lt
  have hb₁ := begins_joins hjs hb₂
  have hb₀ := hfs.begins (T := (0 < ·.clauseRank)) (by decide) hb₁ fun _ => Nat.lt_of_succ_lt
  have hexpr : ∀ j : Kind, 0 < j.clauseRank → j.continuesExpression = false :=
    fun _ hj => (ends_of_clauseRank hj).1
  simp only [List.cons_append, List.append_assoc]
  apply Reads.bind (reads_consume _ hu (by simp) (by simp [(begins_items his).ne_nil]))
  have hitems : Phrase.Begins (· ≠ .keyword .DISTINCT) _ :=
    (begins_items his).mono (by rintro _ hj rfl; cases hj)
  apply Reads.bind ((accept_complete (by simp)).reads hds (hitems.append _))
  have hnext : Phrase.headKind (t :: rest) = some k := hk
  rw [← hnext, ← Phrase.headKind_append] at his
  simp only [List.append_assoc] at his
  apply Reads.bind (reads_selectList his hb₀)
  refine Reads.bind (reads_clause (by simp) tableRef_complete
    (fun _ hj => (ends_of_clauseRank hj).2.1) hfs hb₁) ?_
  refine Reads.budget (Reads.bind ((joins_complete _).reads ⟨by simp, hjs⟩ hb₂) ?_)
  apply Reads.bind (reads_clause (by simp) expression_complete hexpr hws hb₃)
  refine Reads.bind (reads_clause (by simp) (behind_complete (by simp) expressions_complete)
    (fun j hj => ⟨(ends_of_clauseRank hj).2.2.1, hexpr j hj⟩) hgs hb₄) ?_
  apply Reads.bind (reads_clause (by simp) expression_complete hexpr hhs hb₅)
  refine Reads.bind (reads_clause (by simp) (behind_complete (by simp) sortKeys_complete)
    (fun j hj => ⟨(ends_of_clauseRank hj).2.2.1, hexpr j hj, (ends_of_clauseRank hj).2.2.2.2⟩) hos
    hb₆) ?_
  apply Reads.bind (reads_clause (by simp) rowCount_complete (fun _ _ => trivial) hls hb₇)
  apply Reads.bind (reads_clause (by simp) rowCount_complete (fun _ _ => trivial) hps hb₈)
  exact Reads.pure _ _

/-! ## The other statements -/

theorem columnNames_complete : Complete columnNames ColumnNames (· ≠ .mark .lparen) := by
  intro us names t k rest h hk hend
  cases h with
  | absent => exact Reads.bind (reads_accept_other hk hend rest) (Reads.pure _ _)
  | present hl hus hr =>
    simp only [List.cons_append, List.append_assoc, List.nil_append]
    apply Reads.bind (reads_accept hl (by simp) (by simp))
    apply Reads.bind (sepBy_complete (by simp) name_complete trivial hus hr ⟨by simp, trivial⟩)
    exact Reads.bind (reads_consume _ hr (by simp) (by simp)) (Reads.pure _ _)

theorem row_complete : Complete row Values (fun _ => True) := by
  intro us es t k rest h _ _
  obtain ⟨hl, hus, hr⟩ := h
  simp only [List.cons_append, List.append_assoc, List.nil_append]
  apply Reads.bind (reads_consume _ hl (by simp) (by simp))
  apply Reads.bind (expressions_complete hus hr ⟨by simp, rfl⟩)
  exact Reads.bind (reads_consume _ hr (by simp) (by simp)) (Reads.pure _ _)

/-- Behind the table of an insertion there is a parenthesis or `VALUES`. -/
theorem begins_columnNames {us : List Token} {names : List String} (h : ColumnNames us names)
    {v : Token} (hv : v.kind? = some (.keyword .VALUES)) (ts : List Token) :
    Phrase.Begins EndsTable (us ++ v :: ts) := by
  cases h with
  | absent => exact ⟨v, ts, _, rfl, hv, nofun, nofun, nofun⟩
  | present hl => exact ⟨_, _, _, rfl, hl, nofun, nofun, nofun⟩

theorem insertStatement_complete : Complete insertStatement InsertPhrase (0 < ·.clauseRank) := by
  intro us s t k rest h hk hend
  obtain ⟨hi, ho, hus, hcs, hv, hrs⟩ := h
  simp only [List.cons_append, List.append_assoc]
  apply Reads.bind (reads_consume _ hi (by simp) (by simp))
  apply Reads.bind (reads_consume _ ho (by simp) (by simp))
  apply Reads.bind (tableRef_complete.reads hus (begins_columnNames hcs hv _))
  apply Reads.bind (columnNames_complete hcs hv (by simp))
  apply Reads.bind (reads_consume _ hv (by simp) (by simp))
  refine Reads.bind (sepBy_complete (by simp) row_complete trivial hrs hk
    ⟨(ends_of_clauseRank hend).2.2.1, trivial⟩) ?_
  exact Reads.pure _ _

theorem assignment_complete :
    Complete assignment AssignmentPhrase (·.continuesExpression = false) := by
  intro us a t k rest h hk hend
  obtain ⟨hn, hq, hus⟩ := h
  refine Reads.bind (Reads.bind (reads_consume _ hn (by simp) (by simp)) (Reads.pure _ _)) ?_
  apply Reads.bind (reads_consume _ hq (by simp) (by simp))
  exact Reads.bind (expression_complete hus hk hend) (Reads.pure _ _)

/-- The condition of a statement, in front of a semicolon or the end. -/
theorem reads_whereClause {us : List Token} {o : Option Expr}
    (h : Phrase.After (.keyword .WHERE) Disjunction us o) {ts : List Token}
    (hts : Phrase.Begins (3 < ·.clauseRank) ts) : Reads whereClause (us ++ ts) o ts :=
  reads_clause (by simp) expression_complete (fun _ hj => (ends_of_clauseRank hj).1) h hts

theorem updateStatement_complete : Complete updateStatement UpdatePhrase (3 < ·.clauseRank) := by
  intro us s t k rest h hk hend
  obtain ⟨hu, hus, hs, has, hws⟩ := h
  have hlast : Phrase.Begins (3 < ·.clauseRank) (t :: rest) := ⟨t, rest, k, rfl, hk, hend⟩
  have hnext := hws.begins (T := (0 < ·.clauseRank)) (by decide) hlast fun _ => Nat.zero_lt_of_lt
  simp only [List.cons_append, List.append_assoc]
  apply Reads.bind (reads_consume _ hu (by simp) (by simp))
  apply Reads.bind (tableRef_complete hus hs ⟨nofun, nofun, nofun⟩)
  apply Reads.bind (reads_consume _ hs (by simp) (by simp [hnext.ne_nil]))
  refine Reads.bind ((sepBy_complete (by simp) assignment_complete rfl).reads has
    (hnext.mono fun _ hj => ⟨(ends_of_clauseRank hj).2.2.1, (ends_of_clauseRank hj).1⟩)) ?_
  exact Reads.bind (reads_whereClause hws hlast) (Reads.pure _ _)

theorem deleteStatement_complete : Complete deleteStatement DeletePhrase (3 < ·.clauseRank) := by
  intro us s t k rest h hk hend
  obtain ⟨hd, hf, hus, hws⟩ := h
  have hlast : Phrase.Begins (3 < ·.clauseRank) (t :: rest) := ⟨t, rest, k, rfl, hk, hend⟩
  have hnext := hws.begins (T := (0 < ·.clauseRank)) (by decide) hlast fun _ => Nat.zero_lt_of_lt
  simp only [List.cons_append, List.append_assoc]
  apply Reads.bind (reads_consume _ hd (by simp) (by simp))
  apply Reads.bind (reads_consume _ hf (by simp) (by simp [hnext.ne_nil]))
  refine Reads.bind (tableRef_complete.reads hus
    (hnext.mono fun _ hj => (ends_of_clauseRank hj).2.1)) ?_
  exact Reads.bind (reads_whereClause hws hlast) (Reads.pure _ _)

end Statement

namespace Script

open Rule Grammar

/-! ## Scripts -/

theorem statement_complete : CompleteBefore statement
    (fun next us s => (∃ k, next = some k ∧ 8 < k.clauseRank) ∧ StatementPhrase next us s) := by
  rintro us s t k rest ⟨⟨_, ⟨⟩, hend⟩, h⟩ hk
  cases h with
  | @select us s h =>
    have hread : Reads Statement.selectStatement (us ++ t :: rest) s (t :: rest) :=
      Statement.selectStatement_complete ⟨⟨k, rfl, hend⟩, h⟩ hk
    obtain ⟨hs, _⟩ := h
    exact Reads.bind (reads_look hs _) (hread.map _)
  | @insert us s h =>
    have hread : Reads Statement.insertStatement (us ++ t :: rest) s (t :: rest) :=
      Statement.insertStatement_complete h hk (by omega)
    obtain ⟨hs, _⟩ := h
    exact Reads.bind (reads_look hs _) (hread.map _)
  | @update us s h =>
    have hread : Reads Statement.updateStatement (us ++ t :: rest) s (t :: rest) :=
      Statement.updateStatement_complete h hk (by omega)
    obtain ⟨hs, _⟩ := h
    exact Reads.bind (reads_look hs _) (hread.map _)
  | @delete us s h =>
    have hread : Reads Statement.deleteStatement (us ++ t :: rest) s (t :: rest) :=
      Statement.deleteStatement_complete h hk (by omega)
    obtain ⟨hs, _⟩ := h
    exact Reads.bind (reads_look hs _) (hread.map _)

theorem reads_terminator_semicolon {q : Token} (hq : q.kind? = some (.mark .semicolon))
    {ts : List Token} (hts : ts ≠ []) : Reads terminator (q :: ts) () ts :=
  Reads.bind (reads_look hq ts) (reads_step q hts)

theorem reads_terminator_eof {t : Token} (ht : t.kind? = some .eof) (ts : List Token) :
    Reads terminator (t :: ts) () (t :: ts) :=
  Reads.bind (reads_look ht ts) (Reads.pure () _)

theorem reads_statementsFrom_eof {t : Token} (ht : t.kind? = some .eof) (n : Nat)
    (ts : List Token) : Reads (statementsFrom n) (t :: ts) [] (t :: ts) := by
  cases n with
  | zero => exact Reads.pure _ _
  | succ n => exact Reads.bind (reads_look ht ts) (Reads.pure _ _)

/-- One statement, its end and the statements behind it. -/
theorem reads_statementsFrom {us vs ws rest : List Token} {s : Statement} {all : List Statement}
    {t : Token} {k : Kind} (ht : t.kind? = some k) (hend : 8 < k.clauseRank)
    (hs : StatementPhrase (some k) us s) (hterm : Reads terminator (t :: vs) () ws) {n : Nat}
    (hall : Reads (statementsFrom n) ws all rest) :
    Reads (statementsFrom (n + 1)) (us ++ t :: vs) (s :: all) rest := by
  have hread : Reads statement (us ++ t :: vs) s (t :: vs) :=
    statement_complete ⟨⟨k, rfl, hend⟩, hs⟩ ht
  obtain ⟨u, ts, j, heq, hj, hrule⟩ := hs.begins.append (t :: vs)
  rw [heq] at hread ⊢
  apply Reads.bind (reads_look hj ts)
  rw [if_neg (by rintro rfl; cases hrule)]
  apply Reads.bind hread
  apply Reads.bind hterm
  exact Reads.bind hall (Reads.pure _ _)

theorem statementsFrom_complete {t : Token} (ht : t.kind? = some .eof) (rest : List Token)
    {us : List Token} {all : List Statement} (h : ScriptPhrase us all) :
    ∀ n, us.length ≤ n → Reads (statementsFrom n) (us ++ t :: rest) all (t :: rest) := by
  induction h with
  | @last us s hs =>
    intro n hn
    have hpos := List.length_pos_iff.mpr hs.begins.ne_nil
    obtain ⟨m, rfl⟩ : ∃ m, n = m + 1 := ⟨n - 1, by omega⟩
    exact reads_statementsFrom ht (by decide) hs (reads_terminator_eof ht rest)
      (reads_statementsFrom_eof ht m rest)
  | @closed us q s hs hq =>
    intro n hn
    rw [List.length_append] at hn
    obtain ⟨m, rfl⟩ : ∃ m, n = m + 1 := ⟨n - 1, by simp at hn; omega⟩
    rw [List.append_assoc]
    exact reads_statementsFrom hq (by decide) hs (reads_terminator_semicolon hq (by simp))
      (reads_statementsFrom_eof ht m rest)
  | @cons us vs q s all hs hq _ ih =>
    intro n hn
    rw [List.length_append, List.length_cons] at hn
    obtain ⟨m, rfl⟩ : ∃ m, n = m + 1 := ⟨n - 1, by omega⟩
    rw [List.append_assoc]
    exact reads_statementsFrom hq (by decide) hs (reads_terminator_semicolon hq (by simp))
      (ih m (by omega))

/-- **Every script of the grammar is read.** -/
theorem ofTokens_complete {us : List Token} {all : List Statement} (h : ScriptPhrase us all)
    {t : Token} (ht : t.kind? = some .eof) : (ofTokens (us ++ [t])).1 = .ok all := by
  have hread : Reads statements (us ++ [t]) all [t] := by
    refine Reads.budget (Reads.bind (statementsFrom_complete ht [] h _ (by simp)) ?_)
    cases h <;> exact Reads.pure _ _
  have hlast : (us ++ [t]).getLast?.map Token.kind? = some (some .eof) := by simp [ht]
  obtain ⟨first, ts, heq⟩ : ∃ first ts, us ++ [t] = first :: ts :=
    List.exists_cons_of_ne_nil (by simp)
  rw [heq] at hread hlast ⊢
  obtain ⟨d, hrun, _⟩ := hread _ (Cursor.at_start first ts)
  simp only [ofTokens, hlast, hrun]

end Script
end QueryPipeline
