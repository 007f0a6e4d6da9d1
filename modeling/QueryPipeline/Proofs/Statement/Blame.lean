import QueryPipeline.Proofs.Expr.Blame
import QueryPipeline.Proofs.Statement.Complete
import QueryPipeline.Proofs.Statement.Inner
import QueryPipeline.Proofs.Statement.Sound
import QueryPipeline.Proofs.Token.Order

/-!
# Statements fail where they cannot go on

Where a rule of statements fails, the tokens in front of the one that it blames are the start of a
phrase, and so a script is given up only at a token that cannot stand there: the statements read so
far, and what has been seen of the next one, could be completed to a script (`ofTokens_blames`).

A completion must not change what has been read before it.  Only an alias without `AS` looks behind
itself.  Where nothing has been seen of the clauses behind the items, `OFFSET 1` completes the
statement: in front of `OFFSET`, every item reads as it does in front of any other token.
-/

namespace QueryPipeline

namespace Grammar

open Phrase (Started started_of started_nil)

/-! ## Completions -/

theorem rowCount_one : RowCount [Token.one] 1 :=
  .mk rfl (by decide) rfl

theorem table_one : TablePhrase [Token.ofName "x"] ⟨"x", none, none⟩ :=
  .plain (t := Token.ofName "x") rfl .absent

theorem assignment_one : AssignmentPhrase [Token.ofName "x", BinaryOperator.eq.token, Token.one]
    ⟨"x", .literal (.number "1")⟩ :=
  .mk (n := Token.ofName "x") rfl rfl disjunction_one

/-- A name, with or without another one behind a dot, and an alias are a table. -/
theorem exists_table {t : Token} {us vs : List Token} {o aliasName : Option String}
    (ht : t.kind? = some .identifier) (hus : Phrase.After (.mark .dot) Identifier us o)
    (hvs : TableAlias vs aliasName) : ∃ table, TablePhrase (t :: (us ++ vs)) table := by
  cases hus with
  | absent => exact ⟨_, .plain ht hvs⟩
  | present hd hus =>
    obtain ⟨hu⟩ := hus
    exact ⟨_, .ofSchema ht hd hu hvs⟩

theorem exists_join {us vs ws : List Token} {t : Token} {kind : JoinKind} {table : TableRef}
    {condition : Option Expr} (hus : JoinWords us kind) (ht : t.kind? = some (.keyword .JOIN))
    (hvs : TablePhrase vs table) (hws : Phrase.After (.keyword .ON) Disjunction ws condition) :
    ∃ j, JoinPhrase (us ++ t :: (vs ++ ws)) j :=
  ⟨⟨kind, table, condition⟩, .mk hus ht hvs hws⟩

theorem exists_clauses {fs js ws gs hs os ls ps : List Token} {source : Option TableRef}
    {joins : List Join} {condition having : Option Expr} {grouping : Option (List Expr)}
    {sortKeys : Option (List SortKey)} {limit offset : Option Int}
    (hfs : Phrase.After (.keyword .FROM) TablePhrase fs source)
    (hjs : Phrase.Repeated JoinPhrase js joins)
    (hws : Phrase.After (.keyword .WHERE) Disjunction ws condition)
    (hgs : Phrase.After (.keyword .GROUP)
      (Phrase.Behind (.keyword .BY) (Phrase.Separated (.mark .comma) Disjunction)) gs grouping)
    (hhs : Phrase.After (.keyword .HAVING) Disjunction hs having)
    (hos : Phrase.After (.keyword .ORDER)
      (Phrase.Behind (.keyword .BY) (Phrase.Separated (.mark .comma) SortPhrase)) os sortKeys)
    (hls : Phrase.After (.keyword .LIMIT) RowCount ls limit)
    (hps : Phrase.After (.keyword .OFFSET) RowCount ps offset) :
    ∃ s, Clauses (fs ++ (js ++ (ws ++ (gs ++ (hs ++ (os ++ (ls ++ ps))))))) s :=
  ⟨⟨[], source, condition, joins, grouping, having, sortKeys, limit, offset, false⟩,
    .mk hfs hjs hws hgs hhs hos hls hps⟩

theorem exists_insert {i o v : Token} {us cs rs : List Token} {table : TableRef}
    {columns : List String} {rows : List (List Expr)} (hi : i.kind? = some (.keyword .INSERT))
    (ho : o.kind? = some (.keyword .INTO)) (hus : TablePhrase us table)
    (hcs : ColumnNames cs columns) (hv : v.kind? = some (.keyword .VALUES))
    (hrs : Phrase.Separated (.mark .comma) Values rs rows) :
    ∃ s, InsertPhrase (i :: o :: (us ++ (cs ++ v :: rs))) s :=
  ⟨⟨table, columns, rows⟩, .mk hi ho hus hcs hv hrs⟩

theorem exists_update {u t : Token} {us as ws : List Token} {table : TableRef}
    {assignments : List Assignment} {condition : Option Expr}
    (hu : u.kind? = some (.keyword .UPDATE)) (hus : TablePhrase us table)
    (ht : t.kind? = some (.keyword .SET))
    (has : Phrase.Separated (.mark .comma) AssignmentPhrase as assignments)
    (hws : Phrase.After (.keyword .WHERE) Disjunction ws condition) :
    ∃ s, UpdatePhrase (u :: (us ++ t :: (as ++ ws))) s :=
  ⟨⟨table, assignments, condition⟩, .mk hu hus ht has hws⟩

theorem exists_delete {d f : Token} {us ws : List Token} {table : TableRef}
    {condition : Option Expr} (hd : d.kind? = some (.keyword .DELETE))
    (hf : f.kind? = some (.keyword .FROM)) (hus : TablePhrase us table)
    (hws : Phrase.After (.keyword .WHERE) Disjunction ws condition) :
    ∃ s, DeletePhrase (d :: f :: (us ++ ws)) s :=
  ⟨⟨table, condition⟩, .mk hd hf hus hws⟩

/-- The clauses say nothing about the items. -/
theorem Clauses.relabel {cs : List Token} {s : Select} (h : Clauses cs s) (columns : List Expr)
    (distinct : Bool) : Clauses cs { s with columns := columns, distinct := distinct } := by
  obtain ⟨hfs, hjs, hws, hgs, hhs, hos, hls, hps⟩ := h
  exact .mk hfs hjs hws hgs hhs hos hls hps

/-- In front of `OFFSET`, an item reads as in front of any other token. -/
theorem ItemPhrase.before_offset {next : Option Kind} {us : List Token} {e : Expr}
    (h : ItemPhrase next us e) : ItemPhrase (some (.keyword .OFFSET)) us e := by
  cases h with
  | asterisk ht => exact .asterisk ht
  | plain hus hbegins => exact .plain hus hbegins
  | named hus hbegins hs ht => exact .named hus hbegins hs ht
  | bare hus hbegins ht => exact .bare hus hbegins ht rfl rfl

/-- The items of a statement and a start of its clauses are a start of the statement. -/
theorem started_select {t : Token} {ds is cs : List Token} {distinct : Bool} {columns : List Expr}
    {next : Option Kind} (ht : t.kind? = some (.keyword .SELECT))
    (hds : Phrase.Flag (.keyword .DISTINCT) ds distinct)
    (his : Phrase.SeparatedBefore (.mark .comma) ItemPhrase next is columns)
    (hcs : Started Clauses cs) (hnext : cs ≠ [] → Phrase.headKind cs = next) :
    Started (SelectPhrase (some .eof)) (t :: (ds ++ (is ++ cs))) := by
  cases cs with
  | nil =>
    have hoffset : Phrase.After (.keyword .OFFSET) RowCount [Token.ofKeyword .OFFSET, Token.one]
        (some 1) := .present (Token.kind?_ofKeyword .OFFSET) rowCount_one
    obtain ⟨s, hs⟩ := exists_clauses .absent .nil .absent .absent .absent .absent .absent hoffset
    refine ⟨[Token.ofKeyword .OFFSET, Token.one], { s with columns, distinct }, ?_⟩
    have hbehind : Phrase.kindBehind [Token.ofKeyword .OFFSET, Token.one] (some .eof) =
        some (.keyword .OFFSET) := Token.kind?_ofKeyword .OFFSET
    have hitems := his.ahead fun _ _ h => h.before_offset
    rw [← hbehind] at hitems
    simpa using SelectPhrase.mk ht hds hitems (hs.relabel columns distinct)
  | cons u us =>
    obtain ⟨vs, s, hs⟩ := hcs
    refine ⟨vs, { s with columns, distinct }, ?_⟩
    have hbehind : Phrase.kindBehind (u :: us ++ vs) (some .eof) = next := hnext (by simp)
    rw [← hbehind] at his
    simpa using SelectPhrase.mk ht hds his (hs.relabel columns distinct)

/-- A statement, whatever stands behind it, is a start of a statement in front of the end. -/
theorem StatementPhrase.started {next : Option Kind} {us : List Token} {s : Statement}
    (h : StatementPhrase next us s) : Started (StatementPhrase (some .eof)) us := by
  cases h with
  | select h =>
    obtain ⟨ht, hds, his, hcs⟩ := h
    refine (started_select ht hds his (started_of hcs) ?_).mono fun vs s hs => ⟨_, .select hs⟩
    intro hne
    obtain ⟨u, us, rfl⟩ := List.exists_cons_of_ne_nil hne
    rfl
  | insert h => exact started_of (.insert h)
  | update h => exact started_of (.update h)
  | delete h => exact started_of (.delete h)

end Grammar

namespace Statement

open Rule Grammar
open Phrase (Started started_of started_nil)

variable {ts : List Token} {Q : List Token → Prop}

/-- An expression inside a statement fails as it does alone. -/
theorem expression_blames (ts : List Token) : Blames expression ts (Started Disjunction) := by
  intro c d e t hc h ht
  rw [expression, if_pos hc.1] at h
  cases hrun : Expr.expression c with
  | ok e' c' =>
    rw [hrun] at h
    cases h
  | error e' c' =>
    rw [hrun] at h
    cases h
    exact Expr.expression_blames ts hc hrun ht

theorem expressions_blames (ts : List Token) :
    Blames expressions ts (Started (Phrase.Separated (.mark .comma) Disjunction)) :=
  sepBy_blames (by simp) expression_sound expression_blames

theorem name_blames (hQ : Q []) : Blames name ts Q :=
  Blames.bindQuiet (blames_consume hQ) fun _ => quiet_pure _

theorem identifier_blames (ts : List Token) : Blames name ts (Started Identifier) :=
  name_blames (started_nil (.mk (t := Token.ofName "x") rfl))

/-! ## Tables and joins -/

theorem tableAlias_blames : Blames tableAlias ts (Started TableAlias) := by
  refine Blames.look fun t ts₁ k heq hk => ?_
  split
  · rw [heq]
    refine Blames.advance hk (by simp) ?_
    refine Blames.bindQuiet (name_blames ?_) fun _ => quiet_pure _
    exact ⟨[Token.ofName "x"], _, .present (.present hk) rfl⟩
  · exact (quiet_advance.bind fun _ => quiet_pure _).blames
  · exact blames_pure _

theorem tableRef_blames (ts : List Token) : Blames tableRef ts (Started TablePhrase) := by
  refine Blames.bind (name_blames (started_nil table_one)) name_sound fun us ts₁ first hus => ?_
  obtain ⟨ht⟩ := hus
  refine Blames.bind ((after_blames (by simp) identifier_blames).mono fun vs hvs => ?_)
    (after_sound (by simp) name_sound) fun vs ts₂ second hvs => ?_
  · exact hvs.close [] fun ws o ho => by simpa using exists_table ht ho .absent
  refine Blames.bindQuiet (tableAlias_blames.mono fun ws hws => ?_) fun aliasName => ?_
  · exact hws.close [] fun xs o ho => by simpa using exists_table ht hvs ho
  · cases second <;> exact quiet_pure _

theorem quiet_joinKind : Quiet joinKind := by
  refine quiet_look.bind fun k => ?_
  split
  · exact quiet_advance.bind fun _ => (quiet_accept _).bind fun _ => quiet_pure _
  · exact quiet_advance.bind fun _ => (quiet_accept _).bind fun _ => quiet_pure _
  · exact quiet_advance.bind fun _ => quiet_pure _
  · exact quiet_advance.bind fun _ => quiet_pure _
  · exact quiet_pure _

theorem joinClause_blames (ts : List Token) : Blames joinClause ts (Started JoinPhrase) := by
  refine Blames.bind quiet_joinKind.blames joinKind_sound fun us ts₁ kind hus => ?_
  refine Blames.consume (by simp) ?_ fun t ts₂ ht => ?_
  · exact ⟨[Token.ofKeyword .JOIN, Token.ofName "x"], by
      simpa using exists_join hus (Token.kind?_ofKeyword .JOIN) table_one .absent⟩
  refine Blames.bind ((tableRef_blames ts₂).mono fun vs hvs => ?_) tableRef_sound
    fun vs ts₃ table hvs => ?_
  · exact hvs.close [] fun ws table h => by simpa using exists_join hus ht h .absent
  refine Blames.bindQuiet ((after_blames (by simp) expression_blames).mono fun ws hws => ?_)
    fun _ => quiet_pure _
  exact hws.close [] fun xs o ho => by simpa using exists_join hus ht hvs ho

/-- The loop over joins fails inside one of them. -/
theorem joins_blames : ∀ (n : Nat) {ts : List Token},
    Blames (joins n) ts (Started (Phrase.Repeated JoinPhrase)) := by
  intro n
  induction n with
  | zero =>
    intro ts
    exact blames_pure _
  | succ n ih =>
    intro ts
    refine Blames.look fun t ts₁ k heq hk => ?_
    by_cases hstarts : startsJoin k = true
    · rw [if_pos hstarts]
      refine Blames.bind ((joinClause_blames ts).widen fun us j hj => ?_) joinClause_sound
        fun us rest join hus => ?_
      · exact ⟨[j], by simpa using Phrase.Repeated.cons hj .nil⟩
      · refine Blames.bindQuiet (ih.mono fun vs hvs => ?_) fun _ => quiet_pure _
        exact hvs.close [] fun ws all hall => ⟨_, by simpa using Phrase.Repeated.cons hus hall⟩
    · rw [if_neg hstarts]
      exact blames_pure _

/-! ## SELECT -/

theorem itemAlias_blames {us : List Token} {e : Expr} (hus : Disjunction us e)
    (hbegins : Phrase.Begins (· ≠ .sign .asterisk) us) (next : Option Kind) :
    Blames itemAlias ts fun vs => Started (ItemPhrase next) (us ++ vs) := by
  refine Blames.look fun t ts₁ k heq hk => ?_
  split
  · rw [heq]
    refine Blames.advance hk (by simp) ?_
    refine Blames.bindQuiet (name_blames ?_) fun _ => quiet_pure _
    exact ⟨[Token.ofName "x"], e.aliased (Token.ofName "x").text, by
      simpa using ItemPhrase.named (t := Token.ofName "x") hus hbegins hk rfl⟩
  · refine (quiet_lookNext.bind fun j => ?_).blames
    split
    · exact quiet_pure _
    · exact quiet_advance.bind fun _ => quiet_pure _
  · exact blames_pure _

theorem quiet_withAlias (e : Expr) (o : Option String) : Quiet (withAlias e o) := by
  intro c d error h
  cases o with
  | none => exact quiet_pure _ h
  | some n =>
    rw [withAlias] at h
    cases hn : e.withAlias? n with
    | some named =>
      rw [hn] at h
      exact quiet_pure _ h
    | none =>
      rw [hn] at h
      cases h

/-- An item that fails is no asterisk, and nothing has to stand behind its completion. -/
theorem selectItem_blames (next : Option Kind) (ts : List Token) :
    Blames selectItem ts (Started (ItemPhrase next)) := by
  refine Blames.accept (by simp) (fun _ _ _ _ => blames_pure _) fun hother => ?_
  obtain ⟨t, ts₁, j, rfl, hj, hne⟩ := hother
  have hbegins : ∀ us rest, t :: ts₁ = us ++ rest → us ≠ [] →
      Phrase.Begins (· ≠ .sign .asterisk) us := by
    intro us rest heq hus
    obtain ⟨u, vs, rfl⟩ := List.exists_cons_of_ne_nil hus
    cases heq
    exact ⟨t, vs, j, rfl, hj, hne⟩
  refine Blames.bindBefore ((expression_blames _).monoAt fun us s rest heq hus => ?_)
    (show SoundBefore expression fun _ => Disjunction from expression_sound)
    fun us rest e heq hus => ?_
  · by_cases hnil : us = []
    · subst hnil
      exact started_nil (.plain disjunction_one ⟨_, _, .number, rfl, rfl, by simp⟩)
    · obtain ⟨vs, e, he⟩ := hus
      exact ⟨vs, e, .plain he ((hbegins us _ heq hnil).append vs)⟩
  · refine Blames.bindQuiet ?_ fun o => quiet_withAlias e o
    exact itemAlias_blames hus (hbegins us rest heq hus.begins.ne_nil) next

theorem sortKey_blames (ts : List Token) : Blames sortKey ts (Started SortPhrase) := by
  refine Blames.bindQuiet ((expression_blames ts).widen fun us e he => ?_) fun e => ?_
  · exact ⟨_, by simpa using SortPhrase.mk he .absent⟩
  · refine quiet_look.bind fun k => ?_
    split
    · exact quiet_advance.bind fun _ => quiet_pure _
    · exact quiet_advance.bind fun _ => quiet_pure _
    · exact quiet_pure _

theorem rowCount_blames (ts : List Token) : Blames rowCount ts (Started RowCount) := by
  refine Blames.get fun c _ => Blames.look fun t ts₁ k heq hk => ?_
  split
  · refine (quiet_advance.bind fun _ => ?_).blames
    cases Integer.read c.current.text with
    | ok n => exact quiet_pure _
    | error e =>
      intro c d error h
      cases h
      rfl
  · exact blames_unexpected (started_nil rowCount_one)

/-- What a select statement reads behind its items. -/
def clausesOf (columns : List Expr) (distinct : Bool) : Rule Select := do
  let source ← after (.keyword .FROM) tableRef
  let joins ← joins (← budget)
  let condition ← whereClause
  let grouping ← after (.keyword .GROUP) do
    let _ ← need (.keyword .BY)
    expressions
  let having ← after (.keyword .HAVING) expression
  let sortKeys ← after (.keyword .ORDER) do
    let _ ← need (.keyword .BY)
    sortKeys
  let limit ← after (.keyword .LIMIT) rowCount
  let offset ← after (.keyword .OFFSET) rowCount
  return { columns, source, condition, joins, grouping, having, sortKeys, limit, offset, distinct }

theorem selectStatement_eq : selectStatement = (do
    let _ ← need (.keyword .SELECT)
    let distinct ← accept (.keyword .DISTINCT)
    let columns ← selectList
    clausesOf columns distinct) :=
  rfl

theorem grouping_blames : Blames (after (.keyword .GROUP) do
    let _ ← need (.keyword .BY)
    expressions) ts (Started (Phrase.After (.keyword .GROUP)
      (Phrase.Behind (.keyword .BY) (Phrase.Separated (.mark .comma) Disjunction)))) :=
  after_blames (by simp) fun _ => behind_blames (by simp)
    (started_nil (.mk (Token.kind?_ofKeyword .BY) (.one disjunction_one))) expressions_blames

theorem ordering_blames : Blames (after (.keyword .ORDER) do
    let _ ← need (.keyword .BY)
    sortKeys) ts (Started (Phrase.After (.keyword .ORDER)
      (Phrase.Behind (.keyword .BY) (Phrase.Separated (.mark .comma) SortPhrase)))) :=
  after_blames (by simp) fun _ => behind_blames (by simp)
    (started_nil (.mk (Token.kind?_ofKeyword .BY) (.one (.mk disjunction_one .absent))))
    fun _ => sepBy_blames (by simp) sortKey_sound sortKey_blames

/-- The clauses fail inside one of them, with those before it complete and none behind it. -/
theorem clausesOf_blames (columns : List Expr) (distinct : Bool) (ts : List Token) :
    Blames (clausesOf columns distinct) ts (Started Clauses) := by
  refine Blames.bind ((after_blames (by simp) tableRef_blames).mono fun us hus => ?_)
    (after_sound (by simp) tableRef_sound) fun fs ts₁ source hfs => ?_
  · exact hus.close [] fun vs o ho => by
      simpa using exists_clauses ho .nil .absent .absent .absent .absent .absent .absent
  refine Blames.budget fun n => ?_
  refine Blames.bind ((joins_blames n).mono fun us hus => ?_) (joins_sound n)
    fun js ts₂ joins hjs => ?_
  · exact hus.close [] fun vs o ho => by
      simpa using exists_clauses hfs ho .absent .absent .absent .absent .absent .absent
  refine Blames.bind ((after_blames (by simp) expression_blames).mono fun us hus => ?_)
    (after_sound (by simp) expression_sound) fun ws ts₃ condition hws => ?_
  · exact hus.close [] fun vs o ho => by
      simpa using exists_clauses hfs hjs ho .absent .absent .absent .absent .absent
  refine Blames.bind (grouping_blames.mono fun us hus => ?_)
    (after_sound (by simp) (behind_sound (by simp) expressions_sound)) fun gs ts₄ grouping hgs => ?_
  · exact hus.close [] fun vs o ho => by
      simpa using exists_clauses hfs hjs hws ho .absent .absent .absent .absent
  refine Blames.bind ((after_blames (by simp) expression_blames).mono fun us hus => ?_)
    (after_sound (by simp) expression_sound) fun hs ts₅ having hhs => ?_
  · exact hus.close [] fun vs o ho => by
      simpa using exists_clauses hfs hjs hws hgs ho .absent .absent .absent
  refine Blames.bind (ordering_blames.mono fun us hus => ?_)
    (after_sound (by simp) (behind_sound (by simp) (sepBy_sound (by simp) sortKey_sound)))
    fun os ts₆ sortKeys hos => ?_
  · exact hus.close [] fun vs o ho => by
      simpa using exists_clauses hfs hjs hws hgs hhs ho .absent .absent
  refine Blames.bind ((after_blames (by simp) rowCount_blames).mono fun us hus => ?_)
    (after_sound (by simp) rowCount_sound) fun ls ts₇ limit hls => ?_
  · exact hus.close [] fun vs o ho => by
      simpa using exists_clauses hfs hjs hws hgs hhs hos ho .absent
  refine Blames.bindQuiet ((after_blames (by simp) rowCount_blames).mono fun us hus => ?_)
    fun _ => quiet_pure _
  exact hus.close [] fun vs o ho => by
    simpa using exists_clauses hfs hjs hws hgs hhs hos hls ho

theorem selectStatement_blames (ts : List Token) :
    Blames selectStatement ts (Started (SelectPhrase (some .eof))) := by
  have hnone : Started Clauses [] :=
    ⟨[], exists_clauses .absent .nil .absent .absent .absent .absent .absent .absent⟩
  rw [selectStatement_eq]
  refine Blames.consume (by simp) ?_ fun t ts₁ ht => ?_
  · have hitem : ItemPhrase none [Token.one] (.literal (.number "1")) :=
      .plain disjunction_one ⟨_, _, .number, rfl, rfl, by simp⟩
    obtain ⟨vs, s, hs⟩ := started_select (Token.kind?_ofKeyword .SELECT) .absent (.one hitem) hnone
      fun h => absurd rfl h
    exact started_nil hs
  refine Blames.bind (quiet_accept _).blames (accept_sound (by simp)) fun ds ts₂ distinct hds => ?_
  refine Blames.bindBefore ((sepBy_blamesBefore (by simp) selectItem_sound
    (selectItem_blames none)).mono fun is his => ?_)
    (sepBy_soundBefore (by simp) selectItem_sound) fun is ts₃ columns _ his => ?_
  · obtain ⟨vs, columns, hitems⟩ := his
    obtain ⟨ws, s, hs⟩ := started_select ht hds hitems hnone fun h => absurd rfl h
    exact ⟨vs ++ ws, s, by simpa using hs⟩
  · refine (clausesOf_blames columns distinct ts₃).monoAt fun cs s rest heq hcs => ?_
    refine started_select ht hds his hcs fun hne => ?_
    obtain ⟨u, us, rfl⟩ := List.exists_cons_of_ne_nil hne
    rw [heq]
    rfl

/-! ## The other statements -/

theorem columnNames_blames (ts : List Token) : Blames columnNames ts (Started ColumnNames) := by
  have hclose := Token.kind?_ofMark .rparen
  refine Blames.accept (by simp) (fun l ts₁ _ hl => ?_) fun _ => blames_pure _
  refine Blames.closed (sepBy_blames (by simp) name_sound identifier_blames)
    (sepBy_sound (by simp) name_sound)
    fun us vs names hnames => ⟨vs ++ [Token.ofMark .rparen], names, ?_⟩
  simpa using ColumnNames.present hl hnames hclose

theorem row_blames (ts : List Token) : Blames row ts (Started Values) := by
  have hclose := Token.kind?_ofMark .rparen
  refine Blames.consume (by simp) (started_nil values_one) fun l ts₁ hl => ?_
  refine Blames.closed (expressions_blames ts₁) expressions_sound
    fun us vs es hes => ⟨vs ++ [Token.ofMark .rparen], es, ?_⟩
  simpa using Values.mk hl hes hclose

theorem insertStatement_blames (ts : List Token) :
    Blames insertStatement ts (Started InsertPhrase) := by
  have hinto := Token.kind?_ofKeyword .INTO
  have hvalues := Token.kind?_ofKeyword .VALUES
  have hrows : Phrase.Separated (.mark .comma) Values (Token.enclosed [Token.one])
      [[.literal (.number "1")]] := .one values_one
  -- what stands behind a table without names of columns
  let closing : List Token := Token.ofKeyword .VALUES :: Token.enclosed [Token.one]
  refine Blames.consume (by simp) ?_ fun i ts₁ hi => ?_
  · obtain ⟨s, hs⟩ :=
      exists_insert (Token.kind?_ofKeyword .INSERT) hinto table_one .absent hvalues hrows
    exact started_nil hs
  refine Blames.consume (by simp) ?_ fun o ts₂ ho => ?_
  · exact ⟨Token.ofKeyword .INTO :: Token.ofName "x" :: closing, by
      simpa using exists_insert hi hinto table_one .absent hvalues hrows⟩
  refine Blames.bind ((tableRef_blames ts₂).mono fun us hus => ?_) tableRef_sound
    fun us ts₃ table hus => ?_
  · exact hus.close closing fun vs table h => by
      simpa using exists_insert hi ho h .absent hvalues hrows
  refine Blames.bind ((columnNames_blames ts₃).mono fun cs hcs => ?_) columnNames_sound
    fun cs ts₄ columns hcs => ?_
  · exact hcs.close closing fun vs names h => by
      simpa using exists_insert hi ho hus h hvalues hrows
  refine Blames.consume (by simp) ?_ fun v ts₅ hv => ?_
  · exact ⟨closing, by simpa using exists_insert hi ho hus hcs hvalues hrows⟩
  refine Blames.bindQuiet ((sepBy_blames (by simp) row_sound row_blames).mono fun rs hrs => ?_)
    fun _ => quiet_pure _
  exact hrs.close [] fun vs rows h => by simpa using exists_insert hi ho hus hcs hv h

theorem assignment_blames (ts : List Token) : Blames assignment ts (Started AssignmentPhrase) := by
  refine Blames.bind (name_blames (started_nil assignment_one)) name_sound fun us ts₁ n hus => ?_
  obtain ⟨hn⟩ := hus
  refine Blames.consume (by simp) ?_ fun q ts₂ hq => ?_
  · exact ⟨[BinaryOperator.eq.token, Token.one], _, .mk hn rfl disjunction_one⟩
  refine Blames.bindQuiet ((expression_blames ts₂).mono fun vs hvs => ?_) fun _ => quiet_pure _
  exact hvs.close [] fun ws e he => ⟨_, by simpa using AssignmentPhrase.mk hn hq he⟩

theorem updateStatement_blames (ts : List Token) :
    Blames updateStatement ts (Started UpdatePhrase) := by
  have hset := Token.kind?_ofKeyword .SET
  have hone : Phrase.Separated (.mark .comma) AssignmentPhrase
      [Token.ofName "x", BinaryOperator.eq.token, Token.one] [⟨"x", .literal (.number "1")⟩] :=
    .one assignment_one
  let closing : List Token :=
    [Token.ofKeyword .SET, Token.ofName "x", BinaryOperator.eq.token, Token.one]
  refine Blames.consume (by simp) ?_ fun u ts₁ hu => ?_
  · obtain ⟨s, hs⟩ := exists_update (Token.kind?_ofKeyword .UPDATE) table_one hset hone .absent
    exact started_nil hs
  refine Blames.bind ((tableRef_blames ts₁).mono fun us hus => ?_) tableRef_sound
    fun us ts₂ table hus => ?_
  · exact hus.close closing fun vs table h => by simpa using exists_update hu h hset hone .absent
  refine Blames.consume (by simp) ?_ fun t ts₃ ht => ?_
  · exact ⟨closing, by simpa using exists_update hu hus hset hone .absent⟩
  refine Blames.bind ((sepBy_blames (by simp) assignment_sound assignment_blames).mono
    fun as has => ?_) (sepBy_sound (by simp) assignment_sound) fun as ts₄ assignments has => ?_
  · exact has.close [] fun vs all h => by simpa using exists_update hu hus ht h .absent
  refine Blames.bindQuiet ((after_blames (by simp) expression_blames).mono fun ws hws => ?_)
    fun _ => quiet_pure _
  exact hws.close [] fun vs o h => by simpa using exists_update hu hus ht has h

theorem deleteStatement_blames (ts : List Token) :
    Blames deleteStatement ts (Started DeletePhrase) := by
  have hfrom := Token.kind?_ofKeyword .FROM
  refine Blames.consume (by simp) ?_ fun d ts₁ hd => ?_
  · obtain ⟨s, hs⟩ := exists_delete (Token.kind?_ofKeyword .DELETE) hfrom table_one .absent
    exact started_nil hs
  refine Blames.consume (by simp) ?_ fun f ts₂ hf => ?_
  · exact ⟨[Token.ofKeyword .FROM, Token.ofName "x"], by
      simpa using exists_delete hd hfrom table_one .absent⟩
  refine Blames.bind ((tableRef_blames ts₂).mono fun us hus => ?_) tableRef_sound
    fun us ts₃ table hus => ?_
  · exact hus.close [] fun vs table h => by simpa using exists_delete hd hf h .absent
  refine Blames.bindQuiet ((after_blames (by simp) expression_blames).mono fun ws hws => ?_)
    fun _ => quiet_pure _
  exact hws.close [] fun vs o h => by simpa using exists_delete hd hf hus h

/-- The rule for a word fails inside a statement of its kind. -/
theorem ruleFor?_blames {k : Kind} {rule : Rule Statement} (h : ruleFor? k = some rule)
    (ts : List Token) : Blames rule ts (Started (StatementPhrase (some .eof))) := by
  unfold ruleFor? at h
  split at h
  · cases h
    exact ((selectStatement_blames ts).widen fun us s hs => ⟨_, .select hs⟩).map _
  · cases h
    exact ((insertStatement_blames ts).widen fun us s hs => ⟨_, .insert hs⟩).map _
  · cases h
    exact ((updateStatement_blames ts).widen fun us s hs => ⟨_, .update hs⟩).map _
  · cases h
    exact ((deleteStatement_blames ts).widen fun us s hs => ⟨_, .delete hs⟩).map _
  · cases h

end Statement

namespace Script

open Rule Grammar
open Phrase (Started started_of started_nil)

variable {Q : List Token → Prop}

/-! ## Scripts -/

theorem terminator_blames {ts : List Token} (hQ : Q []) : Blames terminator ts Q := by
  refine Blames.look fun t ts₁ k heq hk => ?_
  split
  · exact quiet_step.blames
  · exact blames_pure _
  · exact blames_unexpected hQ

theorem statement_blames (ts : List Token) :
    Blames statement ts (Started (StatementPhrase (some .eof))) := by
  refine Blames.look fun t ts₁ k heq hk => ?_
  cases hrule : Statement.ruleFor? k with
  | some rule => exact Statement.ruleFor?_blames hrule ts
  | none =>
    intro c d e s hc hrun hs
    cases hrun
    cases hs
    obtain ⟨all, hall⟩ := exists_delete (Token.kind?_ofKeyword .DELETE)
      (Token.kind?_ofKeyword .FROM) table_one .absent
    exact ⟨[], c.rest, hc.2.symm, started_nil (.delete hall)⟩

/-- At the end there are no more statements, and nothing is blamed. -/
theorem quiet_statementsFrom_eof {ts : List Token} (hend : Phrase.headKind ts = some .eof)
    (n : Nat) : Blames (statementsFrom n) ts Q := by
  cases n with
  | zero => exact blames_pure _
  | succ n =>
    refine Blames.look fun t ts₁ k heq hk => ?_
    have hkind : k = .eof := by
      rw [heq] at hend
      exact Option.some.inj (hk.symm.trans hend)
    rw [if_pos hkind]
    exact blames_pure _

/-- The loop over statements fails inside one of them or behind it, with those before it closed by
semicolons. -/
theorem statementsFrom_blames : ∀ (n : Nat) {ts : List Token},
    Blames (statementsFrom n) ts (Started ScriptPhrase) := by
  intro n
  induction n with
  | zero =>
    intro ts
    exact blames_pure _
  | succ n ih =>
    intro ts
    refine Blames.look fun t ts₁ k heq hk => ?_
    by_cases heof : k = .eof
    · rw [if_pos heof]
      exact blames_pure _
    rw [if_neg heof]
    refine Blames.bindBefore ((statement_blames ts).widen fun us s hs => ⟨[s], .last hs⟩)
      statement_sound fun us rest s _ hs => ?_
    intro c d e u hc hrun hu
    rcases bind_error hrun with hstop | ⟨_, c₁, h₁, h₂⟩
    · refine terminator_blames ?_ hc hstop hu
      rw [List.append_nil]
      exact hs.started.mono fun vs s hs => ⟨[s], .last hs⟩
    rcases terminator_ok hc h₁ with ⟨q, ts₂, rfl, hq, hc₁⟩ | ⟨hend, rfl⟩
    · have hsemicolon : StatementPhrase (some (.mark .semicolon)) us s := hq ▸ hs
      have hmore : Blames (statementsFrom n) ts₂ fun vs => Started ScriptPhrase (us ++ q :: vs) :=
        ih.mono fun vs hvs => hvs.close [] fun ws all hall =>
          ⟨_, by simpa using ScriptPhrase.cons hsemicolon hq hall⟩
      obtain ⟨vs, rest, rfl, hQ⟩ := hmore.bindQuiet (fun _ => quiet_pure _) hc₁ h₂ hu
      exact ⟨q :: vs, rest, rfl, hQ⟩
    · exact (quiet_statementsFrom_eof hend n).bindQuiet (fun _ => quiet_pure _) hc h₂ hu

theorem statements_blames (ts : List Token) : Blames statements ts (Started ScriptPhrase) := by
  refine Blames.budget fun n => ?_
  refine Blames.bindQuiet (statementsFrom_blames n) fun all => ?_
  split
  · intro c d e h
    cases h
    rfl
  · exact quiet_pure _

/-- **A script fails only where what stands before could still be completed.** -/
theorem ofTokens_blames {tokens : List Token} {e : ParseError} {t : Token}
    (h : (ofTokens tokens).1 = .error e) (ht : e.token? = some t) :
    ∃ us rest, tokens = us ++ t :: rest ∧ Started ScriptPhrase us := by
  unfold ofTokens at h
  split at h
  · next first rest _ =>
    split at h
    · cases h
    · next e' c hrun =>
      cases h
      exact statements_blames _ (Cursor.at_start first rest) hrun ht
  · cases h
    cases ht
  · cases h
    cases ht

/-- **Errors never come late.**  If the tokens of a text are not read as statements, and the error
is about a token, then it is one of them, the only one at its position, and the tokens in front of
it can be completed: with some tokens and an end behind them they are read. -/
theorem ofTokens_error_completable {text : String} {tokens : List Token} {e : ParseError}
    {t : Token} (htokens : tokenize text = .ok tokens) (h : (ofTokens tokens).1 = .error e)
    (ht : e.token? = some t) :
    ∃ i, tokens[i]? = some t ∧
      (∀ j s, tokens[j]? = some s → s.position = t.position → j = i) ∧
      ∃ u stop all, stop.kind? = some .eof ∧
        (ofTokens (tokens.take i ++ (u ++ [stop]))).1 = .ok all := by
  obtain ⟨us, rest, rfl, vs, all, hall⟩ := ofTokens_blames h ht
  have hi : (us ++ t :: rest)[us.length]? = some t := by simp
  refine ⟨us.length, hi, ?_, vs, Token.endOfText 0, all, rfl, ?_⟩
  · intro j s hs hposition
    exact tokenize_position_injective htokens hs hi hposition
  · rw [List.take_left, ← List.append_assoc]
    exact ofTokens_complete hall rfl

/-- The second statement stops inside of a parenthesis, with `ORDER` where an operand is missing. -/
theorem ofTokens_error_completable_operand :
    let text := "DELETE FROM t; SELECT a AS b WHERE (c AND ORDER BY a"
    let tokens : List Token :=
      [⟨.keyword, "DELETE", 0⟩, ⟨.keyword, "FROM", 7⟩, ⟨.identifier, "t", 12⟩,
       ⟨.punctuation, ";", 13⟩, ⟨.keyword, "SELECT", 15⟩, ⟨.identifier, "a", 22⟩,
       ⟨.keyword, "AS", 24⟩, ⟨.identifier, "b", 27⟩, ⟨.keyword, "WHERE", 29⟩,
       ⟨.punctuation, "(", 35⟩, ⟨.identifier, "c", 36⟩, ⟨.keyword, "AND", 38⟩,
       ⟨.keyword, "ORDER", 42⟩, ⟨.keyword, "BY", 48⟩, ⟨.identifier, "a", 51⟩, ⟨.eof, "", 52⟩]
    let e : ParseError := .unexpected .expression ⟨.keyword, "ORDER", 42⟩ none
    tokenize text = .ok tokens ∧ (ofTokens tokens).1 = .error e ∧
      ∃ u stop all, stop.kind? = some .eof ∧
        (ofTokens (tokens.take 12 ++ (u ++ [stop]))).1 = .ok all := by
  intro text tokens e
  have htokens : tokenize text = .ok tokens := by decide +kernel
  have herror : (ofTokens tokens).1 = .error e := rfl
  obtain ⟨i, _, hunique, hall⟩ := ofTokens_error_completable htokens herror rfl
  obtain rfl : 12 = i := hunique 12 ⟨.keyword, "ORDER", 42⟩ rfl rfl
  exact ⟨htokens, herror, hall⟩

end Script
end QueryPipeline
