import QueryPipeline.Proofs.Expr.Grammar
import QueryPipeline.Statement.Rules

/-!
# The phrases of statements

The grammar of statements and scripts as relations between sequences of tokens and what they say:

    select := SELECT [DISTINCT] item, ... [FROM table] join* [WHERE e] [GROUP BY e, ...]
              [HAVING e] [ORDER BY e [ASC | DESC], ...] [LIMIT int] [OFFSET int]
    insert := INSERT INTO table [( name, ... )] VALUES ( e, ... ), ...
    update := UPDATE table SET name = e, ... [WHERE e]
    delete := DELETE FROM table [WHERE e]
    table  := name [. name] [[AS] name]
    join   := [INNER | OUTER | (LEFT | RIGHT) [OUTER]] JOIN table [ON e]
    item   := * | e [AS name] | e name
    script := statement [;] | statement ; script

Whether a name behind an item is its alias depends on the token behind the name.  So the phrases of
items, and those of statements that hold them, have the kind of the token behind them as an argument
(`next`).  What follows the list of items are the `Clauses`; each is a field of the statement.
-/

namespace QueryPipeline

/-- An expression under an alias.  What cannot have one keeps none. -/
def Expr.aliased (e : Expr) (aliasName : String) : Expr :=
  (e.withAlias? aliasName).getD e

namespace Grammar

/-! ## Tables and joins -/

inductive Identifier : Phrase String
  | mk {t : Token} : t.kind? = some .identifier → Identifier [t] t.text

inductive TableAlias : Phrase (Option String)
  | absent : TableAlias [] none
  | present {us : List Token} {b : Bool} {t : Token} :
      Phrase.Flag (.keyword .AS) us b → t.kind? = some .identifier →
      TableAlias (us ++ [t]) (some t.text)

inductive TablePhrase : Phrase TableRef
  | plain {t : Token} {us : List Token} {aliasName : Option String} :
      t.kind? = some .identifier → TableAlias us aliasName →
      TablePhrase (t :: us) ⟨t.text, none, aliasName⟩
  | ofSchema {s d t : Token} {us : List Token} {aliasName : Option String} :
      s.kind? = some .identifier → d.kind? = some (.mark .dot) → t.kind? = some .identifier →
      TableAlias us aliasName → TablePhrase (s :: d :: t :: us) ⟨t.text, some s.text, aliasName⟩

/-- The words in front of `JOIN`. -/
inductive JoinWords : Phrase JoinKind
  | plain : JoinWords [] .inner
  | inner {t : Token} : t.kind? = some (.keyword .INNER) → JoinWords [t] .inner
  | outer {t : Token} : t.kind? = some (.keyword .OUTER) → JoinWords [t] .outer
  | left {t : Token} {us : List Token} {b : Bool} :
      t.kind? = some (.keyword .LEFT) → Phrase.Flag (.keyword .OUTER) us b →
      JoinWords (t :: us) .left
  | right {t : Token} {us : List Token} {b : Bool} :
      t.kind? = some (.keyword .RIGHT) → Phrase.Flag (.keyword .OUTER) us b →
      JoinWords (t :: us) .right

inductive JoinPhrase : Phrase Join
  | mk {us vs ws : List Token} {t : Token} {j : Join} :
      JoinWords us j.kind → t.kind? = some (.keyword .JOIN) → TablePhrase vs j.table →
      Phrase.After (.keyword .ON) Disjunction ws j.condition →
      JoinPhrase (us ++ t :: (vs ++ ws)) j

/-! ## SELECT -/

/-- An item of a select list in front of a token of kind `next`.  An asterisk in front is an item of
its own. -/
inductive ItemPhrase (next : Option Kind) : Phrase Expr
  | asterisk {t : Token} :
      t.kind? = some (.sign .asterisk) → ItemPhrase next [t] (Expr.wildcard none)
  | plain {us : List Token} {e : Expr} :
      Disjunction us e → Phrase.Begins (· ≠ .sign .asterisk) us → ItemPhrase next us e
  | named {us : List Token} {s t : Token} {e : Expr} :
      Disjunction us e → Phrase.Begins (· ≠ .sign .asterisk) us → s.kind? = some (.keyword .AS) →
      t.kind? = some .identifier → ItemPhrase next (us ++ [s, t]) (e.aliased t.text)
  | bare {us : List Token} {t : Token} {k : Kind} {e : Expr} :
      Disjunction us e → Phrase.Begins (· ≠ .sign .asterisk) us → t.kind? = some .identifier →
      next = some k → Statement.endsItem k = false → ItemPhrase next (us ++ [t]) (e.aliased t.text)

inductive DirectionPhrase : Phrase Direction
  | absent : DirectionPhrase [] .ascending
  | ascending {t : Token} : t.kind? = some (.keyword .ASC) → DirectionPhrase [t] .ascending
  | descending {t : Token} : t.kind? = some (.keyword .DESC) → DirectionPhrase [t] .descending

inductive SortPhrase : Phrase SortKey
  | mk {us vs : List Token} {e : Expr} {direction : Direction} :
      Disjunction us e → DirectionPhrase vs direction → SortPhrase (us ++ vs) ⟨e, direction⟩

/-- A number without a decimal point that can be read as a whole number. -/
inductive RowCount : Phrase Int
  | mk {t : Token} {n : Int} :
      t.kind? = some .number → '.' ∉ t.text.toList → Integer.read t.text = .ok n → RowCount [t] n

/-- The clauses behind the items of a select statement. -/
inductive Clauses : Phrase Select
  | mk {fs js ws gs hs os ls ps : List Token} {s : Select} :
      Phrase.After (.keyword .FROM) TablePhrase fs s.source →
      Phrase.Repeated JoinPhrase js s.joins →
      Phrase.After (.keyword .WHERE) Disjunction ws s.condition →
      Phrase.After (.keyword .GROUP)
        (Phrase.Behind (.keyword .BY) (Phrase.Separated (.mark .comma) Disjunction)) gs
        s.grouping →
      Phrase.After (.keyword .HAVING) Disjunction hs s.having →
      Phrase.After (.keyword .ORDER)
        (Phrase.Behind (.keyword .BY) (Phrase.Separated (.mark .comma) SortPhrase)) os
        s.sortKeys →
      Phrase.After (.keyword .LIMIT) RowCount ls s.limit →
      Phrase.After (.keyword .OFFSET) RowCount ps s.offset →
      Clauses (fs ++ (js ++ (ws ++ (gs ++ (hs ++ (os ++ (ls ++ ps))))))) s

inductive SelectPhrase (next : Option Kind) : Phrase Select
  | mk {t : Token} {ds is cs : List Token} {s : Select} :
      t.kind? = some (.keyword .SELECT) → Phrase.Flag (.keyword .DISTINCT) ds s.distinct →
      Phrase.SeparatedBefore (.mark .comma) ItemPhrase (Phrase.kindBehind cs next) is s.columns →
      Clauses cs s → SelectPhrase next (t :: (ds ++ (is ++ cs))) s

/-! ## The other statements -/

/-- Names in parentheses, or nothing. -/
inductive ColumnNames : Phrase (List String)
  | absent : ColumnNames [] []
  | present {l r : Token} {us : List Token} {names : List String} :
      l.kind? = some (.mark .lparen) → Phrase.Separated (.mark .comma) Identifier us names →
      r.kind? = some (.mark .rparen) → ColumnNames (l :: (us ++ [r])) names

inductive InsertPhrase : Phrase Insert
  | mk {i o v : Token} {us cs rs : List Token} {s : Insert} :
      i.kind? = some (.keyword .INSERT) → o.kind? = some (.keyword .INTO) →
      TablePhrase us s.table → ColumnNames cs s.columns → v.kind? = some (.keyword .VALUES) →
      Phrase.Separated (.mark .comma) Values rs s.rows →
      InsertPhrase (i :: o :: (us ++ (cs ++ v :: rs))) s

inductive AssignmentPhrase : Phrase Assignment
  | mk {n q : Token} {us : List Token} {e : Expr} :
      n.kind? = some .identifier → q.kind? = some (.sign .eq) → Disjunction us e →
      AssignmentPhrase (n :: q :: us) ⟨n.text, e⟩

inductive UpdatePhrase : Phrase Update
  | mk {u t : Token} {us as ws : List Token} {s : Update} :
      u.kind? = some (.keyword .UPDATE) → TablePhrase us s.table →
      t.kind? = some (.keyword .SET) →
      Phrase.Separated (.mark .comma) AssignmentPhrase as s.assignments →
      Phrase.After (.keyword .WHERE) Disjunction ws s.condition →
      UpdatePhrase (u :: (us ++ t :: (as ++ ws))) s

inductive DeletePhrase : Phrase Delete
  | mk {d f : Token} {us ws : List Token} {s : Delete} :
      d.kind? = some (.keyword .DELETE) → f.kind? = some (.keyword .FROM) →
      TablePhrase us s.table → Phrase.After (.keyword .WHERE) Disjunction ws s.condition →
      DeletePhrase (d :: f :: (us ++ ws)) s

inductive StatementPhrase (next : Option Kind) : Phrase Statement
  | select {us : List Token} {s : Select} :
      SelectPhrase next us s → StatementPhrase next us (.select s)
  | insert {us : List Token} {s : Insert} : InsertPhrase us s → StatementPhrase next us (.insert s)
  | update {us : List Token} {s : Update} : UpdatePhrase us s → StatementPhrase next us (.update s)
  | delete {us : List Token} {s : Delete} : DeletePhrase us s → StatementPhrase next us (.delete s)

/-- Statements with semicolons between them, up to the end. -/
inductive ScriptPhrase : Phrase (List Statement)
  | last {us : List Token} {s : Statement} :
      StatementPhrase (some .eof) us s → ScriptPhrase us [s]
  | closed {us : List Token} {q : Token} {s : Statement} :
      StatementPhrase (some (.mark .semicolon)) us s → q.kind? = some (.mark .semicolon) →
      ScriptPhrase (us ++ [q]) [s]
  | cons {us vs : List Token} {q : Token} {s : Statement} {all : List Statement} :
      StatementPhrase (some (.mark .semicolon)) us s → q.kind? = some (.mark .semicolon) →
      ScriptPhrase vs all → ScriptPhrase (us ++ q :: vs) (s :: all)

/-! ## How statements begin -/

theorem StatementPhrase.begins {next : Option Kind} {us : List Token} {s : Statement}
    (h : StatementPhrase next us s) :
    Phrase.Begins (fun k => (Statement.ruleFor? k).isSome = true) us := by
  cases h with
  | select h =>
    obtain ⟨ht⟩ := h
    exact ⟨_, _, _, rfl, ht, rfl⟩
  | insert h =>
    obtain ⟨ht⟩ := h
    exact ⟨_, _, _, rfl, ht, rfl⟩
  | update h =>
    obtain ⟨ht⟩ := h
    exact ⟨_, _, _, rfl, ht, rfl⟩
  | delete h =>
    obtain ⟨ht⟩ := h
    exact ⟨_, _, _, rfl, ht, rfl⟩

theorem ScriptPhrase.begins {us : List Token} {all : List Statement} (h : ScriptPhrase us all) :
    Phrase.Begins (fun k => (Statement.ruleFor? k).isSome = true) us := by
  cases h with
  | last h => exact h.begins
  | closed h => exact h.begins.append _
  | cons h => exact h.begins.append _

end Grammar
end QueryPipeline
