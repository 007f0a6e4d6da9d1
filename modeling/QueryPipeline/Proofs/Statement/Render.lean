import QueryPipeline.Proofs.Statement.Complete
import QueryPipeline.Proofs.Statement.Printable
import QueryPipeline.Proofs.Statement.Sound

/-!
# Statements in writing

A script is written down as its tokens with blanks between them: names in double quotes, aliases
behind `AS`, row counts in decimal, the clauses in their order, and semicolons between statements.
Printable statements are read back from there, and those that come from a text are printable, so

    parse text = all  →  parse (render all) = all

although `render all` is hardly ever the text that `all` came from.
-/

namespace QueryPipeline

/-! ## Tokens of statements -/

/-- An alias, behind `AS`. -/
def Token.aliasTokens (aliasName : Option String) : List Token :=
  Token.clause .AS (aliasName.map fun n => [.ofName n])

def TableRef.tokens (t : TableRef) : List Token :=
  t.schema.elim [.ofName t.name] (fun s => [.ofName s, .ofMark .dot, .ofName t.name]) ++
    Token.aliasTokens t.aliasName

def JoinKind.word : JoinKind → Keyword
  | .inner => .INNER
  | .left => .LEFT
  | .right => .RIGHT
  | .outer => .OUTER

def Join.tokens (j : Join) : List Token :=
  .ofKeyword j.kind.word :: .ofKeyword .JOIN :: (j.table.tokens ++
    Token.clause .ON (j.condition.map Expr.tokens))

def Expr.itemTokens (e : Expr) : List Token :=
  e.tokens ++ Token.aliasTokens e.aliasName?

def Direction.word : Direction → Keyword
  | .ascending => .ASC
  | .descending => .DESC

def SortKey.tokens (k : SortKey) : List Token :=
  k.expression.tokens ++ [.ofKeyword k.direction.word]

/-- A bound of the rows in decimal. -/
def Token.countTokens (n : Int) : List Token :=
  [⟨.number, Text.intText n, 0⟩]

/-- Expressions with commas between them. -/
def Expr.listTokens (es : List Expr) : List Token :=
  Token.listed .comma (es.map Expr.tokens)

/-- The clauses behind the items of a select statement. -/
def Select.clauseTokens (s : Select) : List Token :=
  Token.clause .FROM (s.source.map TableRef.tokens) ++ (s.joins.flatMap Join.tokens ++
    (Token.clause .WHERE (s.condition.map Expr.tokens) ++
    (Token.clause .GROUP (s.grouping.map fun es => .ofKeyword .BY :: Expr.listTokens es) ++
    (Token.clause .HAVING (s.having.map Expr.tokens) ++
    (Token.clause .ORDER (s.sortKeys.map fun keys =>
      .ofKeyword .BY :: Token.listed .comma (keys.map SortKey.tokens)) ++
    (Token.clause .LIMIT (s.limit.map Token.countTokens) ++
    Token.clause .OFFSET (s.offset.map Token.countTokens)))))))

def Select.tokens (s : Select) : List Token :=
  .ofKeyword .SELECT :: (Token.flag .DISTINCT s.distinct ++
    (Token.listed .comma (s.columns.map Expr.itemTokens) ++ s.clauseTokens))

/-- The names of the columns of an insertion in parentheses, if there are any. -/
def Insert.columnTokens : List String → List Token
  | [] => []
  | n :: names => Token.enclosed (Token.listed .comma ((n :: names).map fun n => [.ofName n]))

def Insert.tokens (s : Insert) : List Token :=
  .ofKeyword .INSERT :: .ofKeyword .INTO :: (s.table.tokens ++ (Insert.columnTokens s.columns ++
    .ofKeyword .VALUES :: Token.listed .comma (s.rows.map fun row =>
      Token.enclosed (Expr.listTokens row))))

def Assignment.tokens (a : Assignment) : List Token :=
  .ofName a.column :: BinaryOperator.eq.token :: a.value.tokens

def Update.tokens (s : Update) : List Token :=
  .ofKeyword .UPDATE :: (s.table.tokens ++ .ofKeyword .SET ::
    (Token.listed .comma (s.assignments.map Assignment.tokens) ++
      Token.clause .WHERE (s.condition.map Expr.tokens)))

def Delete.tokens (s : Delete) : List Token :=
  .ofKeyword .DELETE :: .ofKeyword .FROM :: (s.table.tokens ++
    Token.clause .WHERE (s.condition.map Expr.tokens))

def Statement.tokens : Statement → List Token
  | .select s => s.tokens
  | .insert s => s.tokens
  | .update s => s.tokens
  | .delete s => s.tokens

/-- A script in writing. -/
def Script.render (all : List Statement) : String :=
  String.ofList (Token.spelled (Token.listed .semicolon (all.map Statement.tokens)))

/-! ## Tables and joins -/

open Grammar

theorem renders_name {n : String} (h : Quotable n) : Renders Identifier [.ofName n] n :=
  ⟨List.forall_mem_singleton.mpr h, fun _ => .mk rfl⟩

theorem renders_tableAlias {o : Option String} (h : ∀ a ∈ o, Quotable a) :
    Renders TableAlias (Token.aliasTokens o) o := by
  cases o with
  | none => exact ⟨nofun, fun _ => .absent⟩
  | some a =>
    refine ⟨List.forall_mem_cons.mpr ⟨Token.legible_ofKeyword _, ?_⟩, fun place => ?_⟩
    · exact List.forall_mem_singleton.mpr (h a rfl)
    · have hflag : Phrase.Flag (.keyword .AS) [(Token.ofKeyword .AS).moved place] true :=
        .present (Token.kind?_ofKeyword .AS)
      exact .present (t := (Token.ofName a).moved _) hflag rfl

theorem TableRef.Printable.renders {t : TableRef} (h : t.Printable) :
    Renders TablePhrase t.tokens t := by
  obtain ⟨name, schema, aliasName⟩ := t
  have halias := renders_tableAlias h.aliasName
  cases schema with
  | none =>
    refine ⟨List.forall_mem_cons.mpr ⟨h.name, halias.legible⟩, fun place => ?_⟩
    exact .plain (t := (Token.ofName name).moved _) rfl (halias.phrase _)
  | some s =>
    refine ⟨?_, fun place => ?_⟩
    · simp only [TableRef.tokens, Option.elim, List.cons_append, List.nil_append,
        List.forall_mem_cons]
      exact ⟨h.schema s rfl, Token.legible_ofMark _, h.name, halias.legible⟩
    · exact .ofSchema (s := (Token.ofName s).moved _) (t := (Token.ofName name).moved _) rfl
        (Token.kind?_ofMark .dot) rfl (halias.phrase _)

theorem renders_joinKind (k : JoinKind) : Renders JoinWords [.ofKeyword k.word] k := by
  refine ⟨List.forall_mem_singleton.mpr (Token.legible_ofKeyword _), fun place => ?_⟩
  cases k with
  | inner => exact .inner (Token.kind?_ofKeyword .INNER)
  | outer => exact .outer (Token.kind?_ofKeyword .OUTER)
  | left => exact .left (Token.kind?_ofKeyword .LEFT) .absent
  | right => exact .right (Token.kind?_ofKeyword .RIGHT) .absent

theorem Join.Printable.renders {j : Join} (h : j.Printable) : Renders JoinPhrase j.tokens j := by
  have hkind := renders_joinKind j.kind
  have htable := h.table.renders
  have hcondition := Renders.clause (fun e he => (h.condition e he).rendered.disjunction) .ON
  refine ⟨?_, fun place => ?_⟩
  · simp only [Join.tokens, List.forall_mem_cons, List.forall_mem_append]
    exact ⟨Token.legible_ofKeyword _, Token.legible_ofKeyword _, htable.legible, hcondition.legible⟩
  · have hword := hkind.phrase place
    simp only [Join.tokens, Token.placed_cons, Token.placed_append]
    exact .mk hword (Token.kind?_ofKeyword .JOIN) (htable.phrase _) (hcondition.phrase _)

theorem renders_joins {joins : List Join} (h : ∀ j ∈ joins, j.Printable) :
    Renders (Phrase.Repeated JoinPhrase) (joins.flatMap Join.tokens) joins := by
  induction joins with
  | nil => exact ⟨nofun, fun _ => .nil⟩
  | cons j joins ih =>
    rw [List.forall_mem_cons] at h
    have hfirst := h.1.renders
    have hrest := ih h.2
    rw [List.flatMap_cons]
    refine ⟨List.forall_mem_append.mpr ⟨hfirst.legible, hrest.legible⟩, fun place => ?_⟩
    rw [Token.placed_append]
    exact .cons (hfirst.phrase _) (hrest.phrase _)

/-! ## Items -/

namespace Expr

theorem tokens_unaliased (e : Expr) : e.unaliased.tokens = e.tokens := by
  cases e <;> rfl

theorem aliased_unaliased {e : Expr} {a : String} (h : e.aliasName? = some a) :
    e.unaliased.aliased a = e := by
  cases e with
  | column ref =>
    obtain ⟨name, table, aliasName⟩ := ref
    obtain rfl : aliasName = some a := h
    rfl
  | call name arguments distinct aliasName =>
    obtain rfl : aliasName = some a := h
    rfl
  | literal | binary | unary | membership | caseOf => cases h

theorem unaliased_eq {e : Expr} (h : e.aliasName? = none) : e.unaliased = e := by
  cases e with
  | column ref =>
    obtain ⟨name, table, aliasName⟩ := ref
    obtain rfl : aliasName = none := h
    rfl
  | call name arguments distinct aliasName =>
    obtain rfl : aliasName = none := h
    rfl
  | literal | binary | unary | membership | caseOf => rfl

/-- Names are written in quotes, the wildcard too, so no expression starts with an asterisk. -/
theorem head_tokens (e : Expr) :
    ∃ t ts k, e.tokens = t :: ts ∧ t.kind? = some k ∧ k ≠ .sign .asterisk := by
  have hoperand : ∀ e : Expr, ∀ us, ∃ t ts k, operandTokens e e.tokens ++ us = t :: ts ∧
      t.kind? = some k ∧ k ≠ .sign .asterisk := by
    intro e us
    cases e with
    | column ref =>
      obtain ⟨name, table, aliasName⟩ := ref
      cases table with
      | none => exact ⟨_, _, _, rfl, rfl, by decide⟩
      | some t => exact ⟨_, _, _, rfl, rfl, by decide⟩
    | literal value =>
      cases value with
      | number | string => exact ⟨_, _, _, rfl, rfl, by decide⟩
      | null => exact ⟨_, _, _, rfl, Token.kind?_ofKeyword .NULL, by decide⟩
    | call => exact ⟨_, _, _, rfl, rfl, by decide⟩
    | binary | unary | membership | caseOf =>
      exact ⟨_, _, _, rfl, Token.kind?_ofMark .lparen, by decide⟩
  cases e with
  | column ref => simpa [operandTokens, isCompound] using hoperand (.column ref) []
  | literal value => simpa [operandTokens, isCompound] using hoperand (.literal value) []
  | call name arguments distinct aliasName => exact ⟨_, _, _, rfl, rfl, by decide⟩
  | binary left o right => exact hoperand left _
  | membership subject values negated => exact hoperand subject _
  | unary o operand =>
    obtain ⟨k, hk, ho⟩ := o.ofKind?_token
    exact ⟨_, _, k, rfl, hk, by rintro rfl; cases ho⟩
  | caseOf => exact ⟨_, _, _, rfl, Token.kind?_ofKeyword .CASE, by decide⟩

theorem PrintableItem.renders {e : Expr} (h : e.PrintableItem) (next : Option Kind) :
    Renders (ItemPhrase next) e.itemTokens e := by
  have hexpr := h.expression.rendered.disjunction
  rw [tokens_unaliased] at hexpr
  have hbegins : ∀ place, Phrase.Begins (· ≠ .sign .asterisk) (Token.placed place e.tokens) := by
    intro place
    obtain ⟨t, ts, k, heq, hk, hne⟩ := e.head_tokens
    rw [heq]
    exact ⟨_, _, k, rfl, hk, hne⟩
  rw [itemTokens]
  cases halias : e.aliasName? with
  | none =>
    rw [unaliased_eq halias] at hexpr
    rw [show Token.aliasTokens none = [] from rfl, List.append_nil]
    exact ⟨hexpr.legible, fun place => .plain (hexpr.phrase place) (hbegins place)⟩
  | some a =>
    have hname := h.aliasName a halias
    refine ⟨?_, fun place => ?_⟩
    · rw [List.forall_mem_append]
      refine ⟨hexpr.legible, List.forall_mem_cons.mpr ⟨Token.legible_ofKeyword .AS, ?_⟩⟩
      exact List.forall_mem_singleton.mpr hname
    · have hitem : ItemPhrase next (Token.placed place e.tokens ++
          Token.placed (place + Token.width e.tokens) (Token.aliasTokens (some a)))
          (e.unaliased.aliased a) :=
        .named (s := (Token.ofKeyword .AS).moved _) (t := (Token.ofName a).moved _)
          (hexpr.phrase place) (hbegins place) (Token.kind?_ofKeyword .AS) rfl
      rw [Token.placed_append]
      rwa [aliased_unaliased halias] at hitem

end Expr

/-! ## SELECT -/

theorem renders_sortKey {k : SortKey} (h : k.expression.Printable) :
    Renders SortPhrase k.tokens k := by
  obtain ⟨e, direction⟩ := k
  have hexpr := h.rendered.disjunction
  refine ⟨?_, fun place => ?_⟩
  · rw [SortKey.tokens, List.forall_mem_append, List.forall_mem_singleton]
    exact ⟨hexpr.legible, Token.legible_ofKeyword _⟩
  · rw [SortKey.tokens, Token.placed_append]
    refine .mk (hexpr.phrase place) ?_
    cases direction with
    | ascending => exact .ascending (Token.kind?_ofKeyword .ASC)
    | descending => exact .descending (Token.kind?_ofKeyword .DESC)

theorem renders_rowCount {n : Int} (h : PrintableCount n) :
    Renders RowCount (Token.countTokens n) n := by
  obtain ⟨hnumber, hpoint⟩ := Integer.isNumber_of_areDigits h.digits
  refine ⟨List.forall_mem_singleton.mpr hnumber, fun place => ?_⟩
  exact .mk (t := (Token.mk .number (Text.intText n) 0).moved place) rfl hpoint h.read

theorem renders_expressions {es : List Expr} (h : es ≠ [] ∧ ∀ e ∈ es, e.Printable) :
    Renders (Phrase.Separated (.mark .comma) Disjunction) (Expr.listTokens es) es :=
  Renders.listed .comma h.1 fun e he => (h.2 e he).rendered.disjunction

theorem Select.Printable.renders_clauses {s : Select} (h : s.Printable) :
    Renders Clauses s.clauseTokens s := by
  have hfs := Renders.clause (fun t ht => (h.source t ht).renders) .FROM
  have hjs := renders_joins h.joins
  have hws := Renders.clause (fun e he => (h.condition e he).rendered.disjunction) .WHERE
  have hgs := Renders.clause (fun es hes => (renders_expressions (h.grouping es hes)).behind .BY)
    .GROUP
  have hhs := Renders.clause (fun e he => (h.having e he).rendered.disjunction) .HAVING
  have hos := Renders.clause (fun ks hks => (Renders.listed .comma (h.sortKeys ks hks).1
    fun k hk => renders_sortKey ((h.sortKeys ks hks).2 k hk)).behind .BY) .ORDER
  have hls := Renders.clause (fun n hn => renders_rowCount (h.limit n hn)) .LIMIT
  have hps := Renders.clause (fun n hn => renders_rowCount (h.offset n hn)) .OFFSET
  refine ⟨?_, fun place => ?_⟩
  · simp only [Select.clauseTokens, List.forall_mem_append]
    exact ⟨hfs.legible, hjs.legible, hws.legible, hgs.legible, hhs.legible, hos.legible,
      hls.legible, hps.legible⟩
  · simp only [Select.clauseTokens, Token.placed_append]
    exact .mk (hfs.phrase _) (hjs.phrase _) (hws.phrase _) (hgs.phrase _) (hhs.phrase _)
      (hos.phrase _) (hls.phrase _) (hps.phrase _)

theorem Select.Printable.renders {s : Select} (h : s.Printable) (next : Option Kind) :
    Renders (SelectPhrase next) s.tokens s := by
  have hflag := Renders.flag .DISTINCT s.distinct
  have hitems : ∀ k, Renders (Phrase.SeparatedBefore (.mark .comma) ItemPhrase k)
      (Token.listed .comma (s.columns.map Expr.itemTokens)) s.columns :=
    fun k => Renders.listedBefore .comma h.columns.1 fun e he => (h.columns.2 e he).renders
  have hclauses := h.renders_clauses
  refine ⟨?_, fun place => ?_⟩
  · simp only [Select.tokens, List.forall_mem_cons, List.forall_mem_append]
    exact ⟨Token.legible_ofKeyword _, hflag.legible, (hitems none).legible, hclauses.legible⟩
  · simp only [Select.tokens, Token.placed_cons, Token.placed_append]
    exact .mk (Token.kind?_ofKeyword .SELECT) (hflag.phrase _) ((hitems _).phrase _)
      (hclauses.phrase _)

/-! ## The other statements -/

theorem renders_columnNames {names : List String} (h : ∀ n ∈ names, Quotable n) :
    Renders ColumnNames (Insert.columnTokens names) names := by
  cases names with
  | nil => exact ⟨nofun, fun _ => .absent⟩
  | cons n names =>
    have hlist := Renders.listed .comma (List.cons_ne_nil n names) fun m hm => renders_name (h m hm)
    refine ⟨Renders.legible_enclosed hlist.legible, fun place => ?_⟩
    rw [Insert.columnTokens, Token.enclosed, Token.placed_cons, Token.placed_append]
    exact .present (Token.kind?_ofMark .lparen) (hlist.phrase _) (Token.kind?_ofMark .rparen)

theorem renders_row {es : List Expr} (h : es ≠ [] ∧ ∀ e ∈ es, e.Printable) :
    Renders Values (Token.enclosed (Expr.listTokens es)) es := by
  have hlist := Expr.renders_values h.1 fun e he => (h.2 e he).rendered
  rwa [Expr.tokensOfEach_eq_map] at hlist

theorem Insert.Printable.renders {s : Insert} (h : s.Printable) :
    Renders InsertPhrase s.tokens s := by
  have htable := h.table.renders
  have hcolumns := renders_columnNames h.columns
  have hrows := Renders.listed .comma h.rows.1 fun row hrow => renders_row (h.rows.2 row hrow)
  refine ⟨?_, fun place => ?_⟩
  · simp only [Insert.tokens, List.forall_mem_cons, List.forall_mem_append]
    exact ⟨Token.legible_ofKeyword _, Token.legible_ofKeyword _, htable.legible, hcolumns.legible,
      Token.legible_ofKeyword _, hrows.legible⟩
  · simp only [Insert.tokens, Token.placed_cons, Token.placed_append]
    exact .mk (Token.kind?_ofKeyword .INSERT) (Token.kind?_ofKeyword .INTO) (htable.phrase _)
      (hcolumns.phrase _) (Token.kind?_ofKeyword .VALUES) (hrows.phrase _)

theorem renders_assignment {a : Assignment} (h : Quotable a.column ∧ a.value.Printable) :
    Renders AssignmentPhrase a.tokens a := by
  have hvalue := h.2.rendered.disjunction
  refine ⟨?_, fun place => ?_⟩
  · simp only [Assignment.tokens, List.forall_mem_cons]
    exact ⟨h.1, BinaryOperator.legible_token _, hvalue.legible⟩
  · exact .mk (n := (Token.ofName a.column).moved place) rfl BinaryOperator.eq.kind?_token
      (hvalue.phrase _)

theorem Update.Printable.renders {s : Update} (h : s.Printable) :
    Renders UpdatePhrase s.tokens s := by
  have htable := h.table.renders
  have hlist := Renders.listed .comma h.assignments.1
    fun a ha => renders_assignment (h.assignments.2 a ha)
  have hwhere := Renders.clause (fun e he => (h.condition e he).rendered.disjunction) .WHERE
  refine ⟨?_, fun place => ?_⟩
  · simp only [Update.tokens, List.forall_mem_cons, List.forall_mem_append]
    exact ⟨Token.legible_ofKeyword _, htable.legible, Token.legible_ofKeyword _, hlist.legible,
      hwhere.legible⟩
  · simp only [Update.tokens, Token.placed_cons, Token.placed_append]
    exact .mk (Token.kind?_ofKeyword .UPDATE) (htable.phrase _) (Token.kind?_ofKeyword .SET)
      (hlist.phrase _) (hwhere.phrase _)

theorem Delete.Printable.renders {s : Delete} (h : s.Printable) :
    Renders DeletePhrase s.tokens s := by
  have htable := h.table.renders
  have hwhere := Renders.clause (fun e he => (h.condition e he).rendered.disjunction) .WHERE
  refine ⟨?_, fun place => ?_⟩
  · simp only [Delete.tokens, List.forall_mem_cons, List.forall_mem_append]
    exact ⟨Token.legible_ofKeyword _, Token.legible_ofKeyword _, htable.legible, hwhere.legible⟩
  · simp only [Delete.tokens, Token.placed_cons, Token.placed_append]
    exact .mk (Token.kind?_ofKeyword .DELETE) (Token.kind?_ofKeyword .FROM) (htable.phrase _)
      (hwhere.phrase _)

theorem Statement.Printable.renders {s : Statement} (h : s.Printable) (next : Option Kind) :
    Renders (StatementPhrase next) s.tokens s := by
  cases s with
  | select s => exact (Select.Printable.renders h next).mono fun _ => .select
  | insert s => exact (Insert.Printable.renders h).mono fun _ => .insert
  | update s => exact (Update.Printable.renders h).mono fun _ => .update
  | delete s => exact (Delete.Printable.renders h).mono fun _ => .delete

/-! ## Scripts -/

namespace Script

theorem phrase_of_separated {us : List Token} {all : List Statement}
    (h : Phrase.SeparatedBefore (.mark .semicolon) StatementPhrase (some .eof) us all) :
    ScriptPhrase us all := by
  induction h with
  | one h => exact .last h
  | more h hq _ ih => exact .cons h hq ih

theorem tokens_of_parse {text : String} {all : List Statement} (h : (parse text).1 = .ok all) :
    ∃ ts, tokenize text = .ok ts ∧ (ofTokens ts).1 = .ok all := by
  rw [parse] at h
  cases htokens : tokenize text with
  | error e =>
    rw [htokens] at h
    cases h
  | ok ts =>
    rw [htokens] at h
    refine ⟨ts, rfl, ?_⟩
    cases hresult : ofTokens ts with
    | mk result notes =>
      simp only [hresult] at h
      cases result with
      | ok found =>
        cases h
        rfl
      | error e => cases h

theorem parse_of_tokens {text : String} {ts : List Token} {all : List Statement}
    (htokens : tokenize text = .ok ts) (h : (ofTokens ts).1 = .ok all) :
    (parse text).1 = .ok all := by
  rw [parse, htokens]
  cases hresult : ofTokens ts with
  | mk result notes =>
    rw [hresult] at h
    obtain rfl : result = .ok all := h
    simp only [hresult]

/-- What is read from a text is printable. -/
theorem printable_of_parse {text : String} {all : List Statement}
    (h : (parse text).1 = .ok all) : all ≠ [] ∧ ∀ s ∈ all, s.Printable := by
  obtain ⟨ts, htokens, hall⟩ := tokens_of_parse h
  obtain ⟨legible, stop, rfl, hlegible⟩ := Scanner.scan_legible 0 text.toList htokens
  obtain ⟨us, rest, heq, _, hscript⟩ := ofTokens_sound hall
  refine yields_script us all ?_ hscript
  intro t ht
  have hmem : t ∈ legible ++ [Token.endOfText stop] := by
    rw [heq]
    exact List.mem_append_left _ ht
  rcases List.mem_append.mp hmem with hmem | hmem
  · exact (hlegible t hmem).clean
  · rw [List.mem_singleton.mp hmem]
    exact Token.clean_endOfText stop

/-- What is printable is read back. -/
theorem parse_of_printable {all : List Statement} (hne : all ≠ [])
    (h : ∀ s ∈ all, s.Printable) : (parse (render all)).1 = .ok all := by
  have hrenders : Renders (Phrase.SeparatedBefore (.mark .semicolon) StatementPhrase (some .eof))
      (Token.listed .semicolon (all.map Statement.tokens)) all :=
    Renders.listedBefore .semicolon hne fun s hs => (h s hs).renders
  obtain ⟨stop, htokens⟩ := tokenize_spelled hrenders.legible
  refine parse_of_tokens htokens (ofTokens_complete ?_ rfl)
  exact phrase_of_separated (hrenders.phrase 0)

/-- **Reading is undone by writing.**  Whatever is read from a text is read again, just as it was,
from what it is written down as. -/
theorem parse_render_parse (text : String) (all : List Statement)
    (h : (parse text).1 = .ok all) : (parse (render all)).1 = .ok all := by
  obtain ⟨hne, hall⟩ := printable_of_parse h
  exact parse_of_printable hne hall

/-- A call under an alias without `AS`, `<>` for `!=`, and leading zeros. -/
theorem parse_render_parse_join :
    let text := "select max(a) m join t on b <> 'it\\'s' offset 007"
    let all : List Statement :=
      [.select
        { columns := [.call "max" [.column ⟨"a", none, none⟩] false (some "m")]
          source := none
          condition := none
          joins := [⟨.inner, ⟨"t", none, none⟩,
            some (.binary (.column ⟨"b", none, none⟩) .ne (.literal (.string "it's")))⟩]
          grouping := none
          having := none
          sortKeys := none
          limit := none
          offset := some 7
          distinct := false }]
    (parse text).1 = .ok all ∧ (parse (render all)).1 = .ok all := by
  intro text all
  have htokens : tokenize text = .ok
      [⟨.keyword, "select", 0⟩, ⟨.keyword, "max", 7⟩, ⟨.punctuation, "(", 10⟩,
       ⟨.identifier, "a", 11⟩, ⟨.punctuation, ")", 12⟩, ⟨.identifier, "m", 14⟩,
       ⟨.keyword, "join", 16⟩, ⟨.identifier, "t", 21⟩, ⟨.keyword, "on", 23⟩,
       ⟨.identifier, "b", 26⟩, ⟨.operator, "<>", 28⟩, ⟨.string, "it's", 31⟩,
       ⟨.keyword, "offset", 39⟩, ⟨.number, "007", 46⟩, ⟨.eof, "", 49⟩] := by
    decide +kernel
  have hparse : (parse text).1 = .ok all := parse_of_tokens htokens rfl
  exact ⟨hparse, parse_render_parse text all hparse⟩

example : render [.delete ⟨⟨"t", some "s", none⟩, some (.binary (.literal .null) .ne
    (.unary .neg (.literal (.number "01.5"))))⟩] =
      "DELETE FROM \"s\" . \"t\" WHERE NULL != ( - 01.5 )" := by
  decide +kernel

end Script
end QueryPipeline
