import QueryPipeline.Proofs.Expr.Printable
import QueryPipeline.Proofs.Number
import QueryPipeline.Proofs.Statement.Grammar

/-!
# Statements of a text can be written down

What can be written down of a statement: names without a double quote, printable expressions,
aliases on columns and calls of the select list only, row counts that are read back from their
digits, and no empty list where the grammar asks for something.  Statements that are read from a
text are printable (`yields_script`); `Phrase.Yields` carries this through the grammar, clause by
clause.
-/

namespace QueryPipeline

/-! ## What can be written down -/

structure TableRef.Printable (t : TableRef) : Prop where
  name : Quotable t.name
  schema : ∀ s ∈ t.schema, Quotable s
  aliasName : ∀ a ∈ t.aliasName, Quotable a

structure Join.Printable (j : Join) : Prop where
  table : j.table.Printable
  condition : ∀ e ∈ j.condition, e.Printable

namespace Expr

/-- The alias of an item of a select list. -/
def aliasName? : Expr → Option String
  | .column ref => ref.aliasName
  | .call _ _ _ aliasName => aliasName
  | _ => none

/-- An item of a select list without its alias. -/
def unaliased : Expr → Expr
  | .column ref => .column { ref with aliasName := none }
  | .call name arguments distinct _ => .call name arguments distinct none
  | e => e

/-- An item of a select list may have an alias, but nothing inside it. -/
structure PrintableItem (e : Expr) : Prop where
  expression : e.unaliased.Printable
  aliasName : ∀ a ∈ e.aliasName?, Quotable a

end Expr

/-- A bound of the rows is read back from its digits. -/
structure PrintableCount (n : Int) : Prop where
  digits : Integer.AreDigits (Text.intText n).toList
  read : Integer.read (Text.intText n) = .ok n

structure Select.Printable (s : Select) : Prop where
  columns : s.columns ≠ [] ∧ ∀ e ∈ s.columns, e.PrintableItem
  source : ∀ t ∈ s.source, t.Printable
  joins : ∀ j ∈ s.joins, j.Printable
  condition : ∀ e ∈ s.condition, e.Printable
  grouping : ∀ es ∈ s.grouping, es ≠ [] ∧ ∀ e ∈ es, e.Printable
  having : ∀ e ∈ s.having, e.Printable
  sortKeys : ∀ ks ∈ s.sortKeys, ks ≠ [] ∧ ∀ k ∈ ks, k.expression.Printable
  limit : ∀ n ∈ s.limit, PrintableCount n
  offset : ∀ n ∈ s.offset, PrintableCount n

structure Insert.Printable (s : Insert) : Prop where
  table : s.table.Printable
  columns : ∀ n ∈ s.columns, Quotable n
  rows : s.rows ≠ [] ∧ ∀ row ∈ s.rows, row ≠ [] ∧ ∀ e ∈ row, e.Printable

structure Update.Printable (s : Update) : Prop where
  table : s.table.Printable
  assignments : s.assignments ≠ [] ∧
    ∀ a ∈ s.assignments, Quotable a.column ∧ a.value.Printable
  condition : ∀ e ∈ s.condition, e.Printable

structure Delete.Printable (s : Delete) : Prop where
  table : s.table.Printable
  condition : ∀ e ∈ s.condition, e.Printable

def Statement.Printable : Statement → Prop
  | .select s => s.Printable
  | .insert s => s.Printable
  | .update s => s.Printable
  | .delete s => s.Printable

/-! ## Statements of a text are printable -/

namespace Grammar

open Phrase (Yields)

theorem yields_identifier : Yields Identifier Quotable := by
  rintro _ _ hclean ⟨ht⟩
  exact (hclean _ (by simp)).name _ ht rfl

theorem yields_tableAlias : Yields TableAlias (fun o => ∀ a ∈ o, Quotable a) := by
  intro us o hclean h
  cases h with
  | absent => nofun
  | present _ ht =>
    rintro _ ⟨⟩
    exact (hclean _ (by simp)).name _ ht rfl

theorem yields_table : Yields TablePhrase TableRef.Printable := by
  intro us t hclean h
  cases h with
  | plain ht hus =>
    rw [List.forall_mem_cons] at hclean
    exact ⟨hclean.1.name _ ht rfl, nofun, yields_tableAlias _ _ hclean.2 hus⟩
  | ofSchema hs _ ht hus =>
    simp only [List.forall_mem_cons] at hclean
    refine ⟨hclean.2.2.1.name _ ht rfl, ?_, yields_tableAlias _ _ hclean.2.2.2 hus⟩
    rintro _ ⟨⟩
    exact hclean.1.name _ hs rfl

theorem yields_join : Yields JoinPhrase Join.Printable := by
  rintro _ j hclean ⟨_, _, hvs, hws⟩
  simp only [List.forall_mem_append, List.forall_mem_cons] at hclean
  exact ⟨yields_table _ _ hclean.2.2.1 hvs, yields_printable.after _ _ _ hclean.2.2.2 hws⟩

end Grammar

theorem Expr.Printable.item {e : Expr} (h : e.Printable) : e.PrintableItem := by
  cases h with
  | column hname htable => exact ⟨.column hname htable, nofun⟩
  | number htext => exact ⟨.number htext, nofun⟩
  | string => exact ⟨.string, nofun⟩
  | null => exact ⟨.null, nofun⟩
  | binary hleft hright => exact ⟨.binary hleft hright, nofun⟩
  | unary hoperand => exact ⟨.unary hoperand, nofun⟩
  | call hname harguments => exact ⟨.call hname harguments, nofun⟩
  | membership hsubject hne hvalues => exact ⟨.membership hsubject hne hvalues, nofun⟩
  | caseOf hoperand hne hfst hsnd hotherwise =>
    exact ⟨.caseOf hoperand hne hfst hsnd hotherwise, nofun⟩

/-- An alias is put on a column or a call, and disappears on anything else. -/
theorem Expr.Printable.aliased {e : Expr} (h : e.Printable) {a : String} (ha : Quotable a) :
    (e.aliased a).PrintableItem := by
  have hitem := h.item
  cases h with
  | column hname htable =>
    refine ⟨.column hname htable, ?_⟩
    rintro _ ⟨⟩
    exact ha
  | call hname harguments =>
    refine ⟨.call hname harguments, ?_⟩
    rintro _ ⟨⟩
    exact ha
  | number | string | null | binary | unary | membership | caseOf => exact hitem

namespace Grammar

open Phrase (Yields)

theorem yields_item (next : Option Kind) : Yields (ItemPhrase next) Expr.PrintableItem := by
  intro us e hclean h
  cases h with
  | asterisk => exact ⟨.column (by decide) nofun, nofun⟩
  | plain hus => exact (yields_printable _ _ hclean hus).item
  | named hus _ _ ht =>
    simp only [List.forall_mem_append, List.forall_mem_cons] at hclean
    exact (yields_printable _ _ hclean.1 hus).aliased (hclean.2.2.1.name _ ht rfl)
  | bare hus _ ht =>
    simp only [List.forall_mem_append, List.forall_mem_cons] at hclean
    exact (yields_printable _ _ hclean.1 hus).aliased (hclean.2.1.name _ ht rfl)

theorem yields_sortKey : Yields SortPhrase (fun k => k.expression.Printable) := by
  rintro _ _ hclean ⟨hus, _⟩
  exact yields_printable _ _ (List.forall_mem_append.mp hclean).1 hus

theorem yields_rowCount : Yields RowCount PrintableCount := by
  rintro _ n hclean ⟨ht, hpoint, hread⟩
  have hdigits := Integer.areDigits_of_isNumber ((hclean _ (by simp)).number ht) hpoint
  obtain ⟨htext, hagain⟩ := Integer.read_intText hdigits hread
  exact ⟨htext, hagain⟩

theorem yields_select (next : Option Kind) : Yields (SelectPhrase next) Select.Printable := by
  rintro _ s hclean ⟨_, _, his, ⟨hfs, hjs, hws, hgs, hhs, hos, hls, hps⟩⟩
  simp only [List.forall_mem_append, List.forall_mem_cons] at hclean
  obtain ⟨_, _, cis, cfs, cjs, cws, cgs, chs, cos, cls, cps⟩ := hclean
  have hexprs := yields_printable.separated (.mark .comma)
  have hkeys := yields_sortKey.separated (.mark .comma)
  exact
    { columns := Yields.separatedBefore yields_item _ _ _ _ cis his
      source := yields_table.after _ _ _ cfs hfs
      joins := yields_join.repeated _ _ cjs hjs
      condition := yields_printable.after _ _ _ cws hws
      grouping := (hexprs.behind _).after _ _ _ cgs hgs
      having := yields_printable.after _ _ _ chs hhs
      sortKeys := (hkeys.behind _).after _ _ _ cos hos
      limit := yields_rowCount.after _ _ _ cls hls
      offset := yields_rowCount.after _ _ _ cps hps }

theorem yields_values : Yields Values (fun es => es ≠ [] ∧ ∀ e ∈ es, e.Printable) := by
  rintro _ es hclean ⟨_, hus, _⟩
  simp only [List.forall_mem_append, List.forall_mem_cons] at hclean
  exact yields_printable.separated _ _ _ hclean.2.1 hus

theorem yields_columnNames : Yields ColumnNames (fun names => ∀ n ∈ names, Quotable n) := by
  intro us names hclean h
  cases h with
  | absent => nofun
  | present _ hus _ =>
    simp only [List.forall_mem_append, List.forall_mem_cons] at hclean
    exact (yields_identifier.separated _ _ _ hclean.2.1 hus).2

theorem yields_insert : Yields InsertPhrase Insert.Printable := by
  rintro _ s hclean ⟨_, _, hus, hcs, _, hrs⟩
  simp only [List.forall_mem_append, List.forall_mem_cons] at hclean
  obtain ⟨_, _, cus, ccs, _, crs⟩ := hclean
  exact ⟨yields_table _ _ cus hus, yields_columnNames _ _ ccs hcs,
    yields_values.separated _ _ _ crs hrs⟩

theorem yields_assignment :
    Yields AssignmentPhrase (fun a => Quotable a.column ∧ a.value.Printable) := by
  rintro _ _ hclean ⟨hn, _, hus⟩
  simp only [List.forall_mem_cons] at hclean
  exact ⟨hclean.1.name _ hn rfl, yields_printable _ _ hclean.2.2 hus⟩

theorem yields_update : Yields UpdatePhrase Update.Printable := by
  rintro _ s hclean ⟨_, hus, _, has, hws⟩
  simp only [List.forall_mem_append, List.forall_mem_cons] at hclean
  obtain ⟨_, cus, _, cas, cws⟩ := hclean
  exact ⟨yields_table _ _ cus hus, yields_assignment.separated _ _ _ cas has,
    yields_printable.after _ _ _ cws hws⟩

theorem yields_delete : Yields DeletePhrase Delete.Printable := by
  rintro _ s hclean ⟨_, _, hus, hws⟩
  simp only [List.forall_mem_append, List.forall_mem_cons] at hclean
  exact ⟨yields_table _ _ hclean.2.2.1 hus, yields_printable.after _ _ _ hclean.2.2.2 hws⟩

theorem yields_statement (next : Option Kind) :
    Yields (StatementPhrase next) Statement.Printable := by
  intro us s hclean h
  cases h with
  | select h => exact yields_select next _ _ hclean h
  | insert h => exact yields_insert _ _ hclean h
  | update h => exact yields_update _ _ hclean h
  | delete h => exact yields_delete _ _ hclean h

theorem yields_script : Yields ScriptPhrase (fun all => all ≠ [] ∧ ∀ s ∈ all, s.Printable) := by
  intro us all hclean h
  induction h with
  | last hs =>
    exact ⟨by simp, List.forall_mem_singleton.mpr (yields_statement _ _ _ hclean hs)⟩
  | closed hs =>
    have hfirst := yields_statement _ _ _ (List.forall_mem_append.mp hclean).1 hs
    exact ⟨by simp, List.forall_mem_singleton.mpr hfirst⟩
  | cons hs _ _ ih =>
    rw [List.forall_mem_append, List.forall_mem_cons] at hclean
    exact ⟨by simp, List.forall_mem_cons.mpr
      ⟨yields_statement _ _ _ hclean.1 hs, (ih hclean.2.2).2⟩⟩

end Grammar
end QueryPipeline
