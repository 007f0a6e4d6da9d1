import QueryPipeline.Proofs.Condition.Expressible
import QueryPipeline.Proofs.Condition.Timestamp
import QueryPipeline.Proofs.Descriptor.Contained

/-!
# The statements that a pipeline can express

A statement has a descriptor when it selects from a table that has a name (`Statement.ReadsTable`),
when all it selects can be moved (`Statement.MovesColumns`), and when it has no condition or one
that is a filter (`Statement.FiltersRows`).  A build looks at these parts in this order, and there
is nothing else to fail: the timestamp is searched for only in a filter that has made conditions.

So each part decides, once the parts before it are there, whether the build goes on or reports a
problem in its own field.  `Decides` says this of the work on one part, and the main result
`build_iff_expressible` puts the three together.
-/

namespace QueryPipeline

/-! ## Expressible statements -/

/-- What a pipeline can move: a column with a name, the wildcard is one of them, or a call with an
alias or a name. -/
def Expr.IsMovable : Expr → Prop
  | .column ref => ref.name ≠ ""
  | .call name _ _ aliasName => (∃ a ∈ aliasName, a ≠ "") ∨ name ≠ ""
  | _ => False

namespace Statement

/-- It selects from a table with a name. -/
def ReadsTable : Statement → Prop
  | .select q => ∃ t ∈ q.source, t.name ≠ ""
  | _ => False

/-- It selects what can be moved. -/
def MovesColumns : Statement → Prop
  | .select q => ∀ e ∈ q.columns, e.IsMovable
  | _ => False

/-- It selects all rows, or those that pass a filter. -/
def FiltersRows : Statement → Prop
  | .select q => ∀ e ∈ q.condition, e.IsFilter
  | _ => False

end Statement

namespace Descriptor

/-- A configuration whose sink and batch size, if it has them, can be used. -/
def IsConfig : Value → Prop
  | .null => True
  | .obj given =>
    (Value.fieldOf "sink" given = .null ∨ ∃ sink, Value.fieldOf "sink" given = .obj sink) ∧
      (Value.fieldOf "batch_size" given = .null ∨
        ∃ size : Int, Value.fieldOf "batch_size" given = .int size ∧ 0 < size)
  | _ => False

theorem configOf_isConfig {config : Value} (h : IsConfig config) :
    ∃ settings, configOf config = .ok settings := by
  cases config with
  | null => exact ⟨_, rfl⟩
  | obj given =>
    obtain ⟨hsink, hsize⟩ := h
    have hmap : ¬(Value.fieldOf "sink" given ≠ .null ∧ !(Value.fieldOf "sink" given).isObj) := by
      obtain hsink | ⟨sink, hsink⟩ := hsink <;> simp [hsink, Value.isObj]
    have hbatch : isBatchSize (Value.fieldOf "batch_size" given) = true := by
      obtain hsize | ⟨size, hsize, hpos⟩ := hsize
      · rw [hsize]
        rfl
      · rw [hsize]
        exact decide_eq_true hpos
    rw [configOf]
    simp only [if_neg hmap, hbatch]
    exact ⟨_, rfl⟩
  | _ => exact h.elim

/-! ## Outcomes

What is found here does not depend on the notes that have been taken before. -/

section Outcomes

variable {α β : Type} {x : Builder α} {f : α → Builder β} {field : String}

def Succeeds (x : Builder α) : Prop :=
  ∀ notes, ∃ a taken, x notes = .ok a taken

/-- The work ends with a problem in a field. -/
def Reports (field : String) (x : Builder α) : Prop :=
  ∀ notes, ∃ (p : Problem) (taken : List Note),
    x notes = .error (.problem p) taken ∧ p.part.name = field

theorem Succeeds.bind (hx : Succeeds x) (hf : ∀ a, Succeeds (f a)) : Succeeds (x >>= f) := by
  intro notes
  obtain ⟨a, between, hx⟩ := hx notes
  obtain ⟨b, taken, hf⟩ := hf a between
  exact ⟨b, taken, step_eq_ok.2 ⟨a, between, hx, hf⟩⟩

theorem Reports.bind (hx : Reports field x) : Reports field (x >>= f) := by
  intro notes
  obtain ⟨p, taken, hx, hp⟩ := hx notes
  exact ⟨p, taken, step_eq_error.2 (.inl hx), hp⟩

theorem Succeeds.reports (hx : Succeeds x) (hf : ∀ a, Reports field (f a)) :
    Reports field (x >>= f) := by
  intro notes
  obtain ⟨a, between, hx⟩ := hx notes
  obtain ⟨p, taken, hf, hp⟩ := hf a between
  exact ⟨p, taken, step_eq_error.2 (.inr ⟨a, between, hx, hf⟩), hp⟩

theorem succeeds_pure (a : α) : Succeeds (pure a) :=
  fun notes => ⟨a, notes, rfl⟩

theorem succeeds_take (notes : List Note) : Succeeds (take notes) :=
  fun before => ⟨(), before ++ notes, rfl⟩

theorem succeeds_attempt {r : Except PipelineError α} (h : ∃ a, r = .ok a) :
    Succeeds (attempt r) := by
  obtain ⟨a, rfl⟩ := h
  exact succeeds_pure a

theorem reports_attempt {r : Except PipelineError α} {part : Part}
    (h : ∃ p : Problem, r = .error (.problem p) ∧ p.part = part) :
    Reports part.name (attempt r) := by
  obtain ⟨p, rfl, hp⟩ := h
  exact fun notes => ⟨p, notes, rfl, congrArg Part.name hp⟩

end Outcomes

/-! ## One part -/

/-- **The work on a part succeeds exactly when it should**, and else ends with a problem of this
part. -/
structure Decides {α : Type} (part : Part) (P : Prop) (x : Except PipelineError α) : Prop where
  ok : P → ∃ a, x = .ok a
  error : ¬P → ∃ p : Problem, x = .error (.problem p) ∧ p.part = part

theorem Decides.of_iff {α : Type} {part : Part} {P : Prop} {x : Except PipelineError α}
    (hiff : (∃ a, x = .ok a) ↔ P)
    (h : Throws (fun e => ∃ p : Problem, e = .problem p ∧ p.part = part) x) :
    Decides part P x := by
  refine ⟨hiff.2, fun hnot => ?_⟩
  cases x with
  | ok a => exact absurd (hiff.1 ⟨a, rfl⟩) hnot
  | error e =>
    obtain ⟨p, rfl, hpart⟩ := h e rfl
    exact ⟨p, rfl, hpart⟩

theorem problem_isOk_iff {α : Type} {x : Except Problem α} :
    (∃ a, Condition.problem x = .ok a) ↔ ∃ a, x = .ok a :=
  exists_congr fun _ => Condition.problem_eq_ok

/-! ## The source -/

theorem tableOf_iff {query : List (String × Value)} :
    (∃ found, tableOf query = .ok found) ↔
      ∃ name, (Value.fieldOf "from" query).field "table" = .str name ∧ name ≠ "" := by
  rw [tableOf]
  generalize (Value.fieldOf "from" query).field "table" = table
  cases table with
  | str name => by_cases hname : name = "" <;> simp [Value.truthy, hname]
  | _ =>
    refine iff_of_false ?_ (by simp)
    rintro ⟨found, h⟩
    split at h <;> cases h

theorem tableOf_select_iff {q : Select} :
    (∃ found, tableOf (Value.compact q.parts) = .ok found) ↔ ∃ t ∈ q.source, t.name ≠ "" := by
  have hfrom : Value.fieldOf "from" (Value.compact q.parts) = q.source.elim .null TableRef.form :=
    Value.fieldOf_compact q.nodup_parts "from"
  rw [tableOf_iff, hfrom]
  cases q.source with
  | none => simp [Value.field]
  | some t =>
    have htable : t.form.field "table" = .str t.name :=
      Value.field_withoutAbsent (by simp [TableRef.parts]) _
    simp [htable]

theorem decides_source {s : Statement} {map : List (String × Value)} (hform : s.form = .obj map) :
    Decides .source s.ReadsTable (Condition.problem (tableOf map)) := by
  refine .of_iff ?_ ((throws_tableOf_source map).problem fun p hp => ⟨p, rfl, hp⟩)
  rw [problem_isOk_iff]
  constructor
  · rintro ⟨⟨table, schema⟩, h⟩
    obtain ⟨q, rfl, rfl⟩ := select_of_tableOf hform h
    exact tableOf_select_iff.1 ⟨_, h⟩
  · intro h
    cases s with
    | select q =>
      cases hform
      exact tableOf_select_iff.2 h
    | insert | update | delete => exact h.elim

/-! ## The columns -/

/-- The items that have a name, by their types. -/
theorem columnName_iff {item : Value} (hitem : item ≠ .str "*") :
    (∃ name, columnName item = .ok name) ↔
      item.field "type" = .str "all" ∨
      (item.field "type" = .str "column" ∧ ∃ name, Condition.requiredName .columns item = .ok name) ∨
      (item.field "type" = .str "function" ∧
        if (item.field "alias").truthy then ∃ name, item.field "alias" = .str name
        else ∃ name, Condition.requiredName .columns item = .ok name) := by
  rw [columnName, if_neg hitem]
  split
  next htype => simp [htype]
  next htype => simp [htype]
  next htype =>
    simp only [htype, Value.str.injEq, String.reduceEq, false_and, false_or, true_and]
    split
    · generalize item.field "alias" = aliasName
      cases aliasName <;> simp
    · rfl
  next hall hcolumn hfunction =>
    refine iff_of_false (by simp) ?_
    rintro (h | ⟨h, _⟩ | ⟨h, _⟩)
    · exact hall h
    · exact hcolumn h
    · exact hfunction h

theorem requiredName_call_iff {name : String} {arguments : List Expr} {distinct : Bool}
    {aliasName : Option String} :
    (∃ n, Condition.requiredName .columns (Expr.call name arguments distinct aliasName).form = .ok n) ↔
      name ≠ "" := by
  have hname : (Expr.call name arguments distinct aliasName).form.field "name" = .str name := rfl
  simp [Condition.requiredName_ok_iff, hname]

theorem columnName_form_iff {e : Expr} :
    (∃ name, columnName e.form = .ok name) ↔ e.IsMovable := by
  have hitem : e.form ≠ .str "*" := by
    intro h
    have hobj := e.isObj_form
    rw [h] at hobj
    cases hobj
  rw [columnName_iff hitem]
  cases e with
  | column ref =>
    obtain ⟨htype, hname, _⟩ := ref.field_form
    rw [Expr.form, htype, Expr.IsMovable]
    by_cases hstar : ref.name = "*"
    · simp [hstar]
    · rw [if_neg hstar] at hname
      simp [hstar, Condition.requiredName_ok_iff, hname]
  | call name arguments distinct aliasName =>
    rw [Expr.field_alias, Expr.field_type, requiredName_call_iff, Expr.IsMovable]
    cases aliasName with
    | none => simp [Expr.typeName, Value.optional, Value.truthy]
    | some a =>
      rw [Option.filter_some]
      by_cases ha : a = "" <;> simp [Expr.typeName, Value.optional, Value.truthy, ha]
  | literal value => cases value <;> simp [Expr.field_type, Expr.typeName, Expr.IsMovable]
  | binary | unary | membership | caseOf =>
    simp [Expr.field_type, Expr.typeName, Expr.IsMovable]

theorem namesFrom_iff {items : List Value} : ∀ {seen : List String},
    (∃ names, namesFrom seen items = .ok names) ↔
      ∀ item ∈ items, ∃ name, columnName item = .ok name := by
  induction items with
  | nil => exact fun {seen} => iff_of_true ⟨seen, rfl⟩ (List.forall_mem_nil _)
  | cons item rest ih =>
    intro seen
    rw [List.forall_mem_cons, namesFrom]
    cases columnName item with
    | error p => simp [bind, Except.bind]
    | ok name =>
      show (∃ names, (if (Source.reservedColumns.contains name || seen.contains name) = true then
        namesFrom seen rest else namesFrom (seen ++ [name]) rest) = .ok names) ↔ _
      split
      · simp [ih]
      · simp [ih]

theorem decides_columns (q : Select) :
    Decides .columns (Statement.select q).MovesColumns
      (Condition.problem (columnsOf (Value.compact q.parts))) := by
  refine .of_iff ?_ ((throws_columnsOf _).problem fun p hp => ⟨p, rfl, hp.part_eq⟩)
  have hcolumns : Value.fieldOf "columns" (Value.compact q.parts) = .arr (Expr.forms q.columns) :=
    Value.fieldOf_compact q.nodup_parts "columns"
  have hnames : (∃ names, namesFrom [] (Expr.forms q.columns) = .ok names) ↔
      (Statement.select q).MovesColumns := by
    rw [namesFrom_iff, Expr.forms_eq_map, List.forall_mem_map]
    exact forall₂_congr fun _ _ => columnName_form_iff
  rw [problem_isOk_iff, ← hnames, columnsOf, hcolumns]
  constructor
  · rintro ⟨_, h⟩
    obtain ⟨items, hitems, h⟩ := bind_eq_ok.1 h
    cases hitems
    obtain ⟨names, hnames, _⟩ := bind_eq_ok.1 h
    exact ⟨names, hnames⟩
  · rintro ⟨names, h⟩
    exact ⟨_, bind_eq_ok.2 ⟨_, rfl, bind_eq_ok.2 ⟨names, h, rfl⟩⟩⟩

/-! ## The filter -/

theorem decides_filter (q : Select) :
    Decides .filter (Statement.select q).FiltersRows
      (Condition.ofFilter (Filter.ofJson (Value.fieldOf "where" (Value.compact q.parts)))) := by
  refine .of_iff ?_ (Condition.throws_ofFilter (fun p hp => ⟨p, rfl, hp.part_eq⟩) ?_)
  · rw [fieldOf_where]
    exact Expr.ofFilter_form_iff
  · intro node hnode
    exact (symbolic_where q node hnode).operatorThrows

/-! ## The whole -/

theorem succeeds_timestampOf (config : List (String × Value)) {filter : Filter}
    {conditions : List Condition} (h : Condition.ofFilter filter = .ok conditions) :
    Succeeds (timestampOf config filter) := by
  have hfound : Condition.timestampColumn Condition.timestampWords filter = .ok _ :=
    Condition.firstColumn_eq_find? _ (Condition.columns_of_ofFilter h)
  rw [timestampOf]
  split
  · exact (succeeds_take _).bind fun _ => succeeds_pure _
  · refine (succeeds_attempt ⟨_, hfound⟩).bind fun found => ?_
    split
    · exact (succeeds_take _).bind fun _ => succeeds_pure _
    · exact (succeeds_take _).bind fun _ => succeeds_pure _

section Derive

variable {query : List (String × Value)} (config : List (String × Value)) {S C F : Prop}
  (hsource : Decides .source S (Condition.problem (tableOf query)))
  (hcolumns : Decides .columns C (Condition.problem (columnsOf query)))
  (hfilter : Decides .filter F
    (Condition.ofFilter (Filter.ofJson (Value.fieldOf "where" query))))
include hsource

theorem derive_source (h : ¬S) : Reports "from" (derive query config) :=
  (reports_attempt (hsource.error h)).bind

include hcolumns

theorem derive_columns (hs : S) (h : ¬C) : Reports "columns" (derive query config) := by
  refine (succeeds_attempt (hsource.ok hs)).reports fun (table, schema) => ?_
  refine (succeeds_take _).reports fun _ => (succeeds_take _).reports fun _ => ?_
  exact (reports_attempt (hcolumns.error h)).bind

include hfilter

theorem derive_filter (hs : S) (hc : C) (h : ¬F) : Reports "where" (derive query config) := by
  refine (succeeds_attempt (hsource.ok hs)).reports fun (table, schema) => ?_
  refine (succeeds_take _).reports fun _ => (succeeds_take _).reports fun _ => ?_
  refine (succeeds_attempt (hcolumns.ok hc)).reports fun columns => ?_
  exact (reports_attempt (hfilter.error h)).bind

theorem derive_succeeds (hs : S) (hc : C) (hf : F) : Succeeds (derive query config) := by
  refine (succeeds_attempt (hsource.ok hs)).bind fun (table, schema) => ?_
  refine (succeeds_take _).bind fun _ => (succeeds_take _).bind fun _ => ?_
  refine (succeeds_attempt (hcolumns.ok hc)).bind fun columns => ?_
  obtain ⟨conditions, hconditions⟩ := hfilter.ok hf
  refine (succeeds_attempt ⟨conditions, hconditions⟩).bind fun _ => ?_
  refine (succeeds_timestampOf config hconditions).bind fun _ => ?_
  exact (succeeds_take _).bind fun _ => succeeds_pure _

end Derive

/-- Every statement has one of four outcomes. -/
theorem derive_outcome {s : Statement} {map : List (String × Value)} (hform : s.form = .obj map)
    (config : List (String × Value)) :
    (s.ReadsTable → s.MovesColumns → s.FiltersRows → Succeeds (derive map config)) ∧
    (¬s.ReadsTable → Reports "from" (derive map config)) ∧
    (s.ReadsTable → ¬s.MovesColumns → Reports "columns" (derive map config)) ∧
    (s.ReadsTable → s.MovesColumns → ¬s.FiltersRows → Reports "where" (derive map config)) := by
  have hsource := decides_source hform
  cases s with
  | select q =>
    cases hform
    have hcolumns := decides_columns q
    have hfilter := decides_filter q
    exact ⟨derive_succeeds config hsource hcolumns hfilter, derive_source config hsource,
      derive_columns config hsource hcolumns, derive_filter config hsource hcolumns hfilter⟩
  | insert | update | delete =>
    exact ⟨fun h => h.elim, derive_source config hsource, fun h => h.elim, fun h => h.elim⟩

theorem build_eq_derive {query config : Value} {map settings : List (String × Value)}
    (hmap : mapOf query = .ok map) (hsettings : configOf config = .ok settings) :
    build query config = derive map settings := by
  rw [build, hmap, attemptPart, hsettings]
  rfl

/-- **A descriptor is built exactly for the statements that a pipeline can express**, and the first
part that it cannot express is reported.  The statement comes from a text without long numbers, and
the configuration can be used. -/
theorem build_iff_expressible {text : String} {tokens : List Token} {all : List Statement}
    (htokens : tokenize text = .ok tokens) (hread : (Script.ofTokens tokens).1 = .ok all)
    (hshort : Token.AllShort tokens) {s : Statement} (hs : s ∈ all) {config : Value}
    (hconfig : IsConfig config) (notes : List Note) :
    ((∃ d taken, build s.toTree config notes = .ok d taken) ↔
      s.ReadsTable ∧ s.MovesColumns ∧ s.FiltersRows) ∧
    (¬s.ReadsTable → Reports "from" (build s.toTree config)) ∧
    (s.ReadsTable → ¬s.MovesColumns → Reports "columns" (build s.toTree config)) ∧
    (s.ReadsTable → s.MovesColumns → ¬s.FiltersRows →
      Reports "where" (build s.toTree config)) := by
  have hcanonical : s.toTree.canonical = .ok s.form :=
    (Statement.settles_form (Script.legible_of_tokens htokens hread s hs)).ok
      (Script.short_of_tokens htokens hread hshort s hs)
  obtain ⟨map, hform⟩ := s.form_eq_obj
  rw [hform] at hcanonical
  obtain ⟨settings, hsettings⟩ := configOf_isConfig hconfig
  have hbuild : build s.toTree config = derive map settings :=
    build_eq_derive (mapOf_single.2 hcanonical) hsettings
  rw [hbuild]
  obtain ⟨hok, hfrom, hcolumns, hwhere⟩ := derive_outcome hform settings
  refine ⟨⟨?_, fun ⟨hr, hm, hf⟩ => hok hr hm hf notes⟩, hfrom, hcolumns, hwhere⟩
  rintro ⟨d, taken, hd⟩
  -- there is a descriptor, so no part is reported
  have hnone : ∀ field, ¬Reports field (derive map settings) := by
    intro field h
    obtain ⟨p, after, herror, _⟩ := h notes
    cases hd.symm.trans herror
  have hr := by_contra fun h => hnone _ (hfrom h)
  have hm := by_contra fun h => hnone _ (hcolumns hr h)
  have hf := by_contra fun h => hnone _ (hwhere hr hm h)
  exact ⟨hr, hm, hf⟩

/-- A statement that can be expressed, and one that reads no table. -/
theorem build_iff_expressible_two :
    let tokens : List Token :=
      [⟨.keyword, "SELECT", 0⟩, ⟨.identifier, "f", 7⟩, ⟨.punctuation, "(", 8⟩,
       ⟨.punctuation, ")", 9⟩, ⟨.keyword, "FROM", 11⟩, ⟨.identifier, "t", 16⟩,
       ⟨.keyword, "WHERE", 18⟩, ⟨.number, "0", 24⟩, ⟨.operator, "<", 26⟩, ⟨.identifier, "a", 28⟩,
       ⟨.punctuation, ";", 29⟩, ⟨.keyword, "DELETE", 31⟩, ⟨.keyword, "FROM", 38⟩,
       ⟨.identifier, "t", 43⟩, ⟨.eof, "", 44⟩]
    let select : Statement := .select ⟨[.call "f" [] false none], some ⟨"t", none, none⟩,
      some (.binary (.literal (.number "0")) .lt (.column ⟨"a", none, none⟩)), [], none, none, none,
      none, none, false⟩
    let delete : Statement := .delete ⟨⟨"t", none, none⟩, none⟩
    tokenize "SELECT f() FROM t WHERE 0 < a; DELETE FROM t" = .ok tokens ∧
      (Script.ofTokens tokens).1 = .ok [select, delete] ∧
      (∃ d taken, build select.toTree .null [] = .ok d taken) ∧
      Reports "from" (build delete.toTree .null) := by
  intro tokens select delete
  have htokens : tokenize "SELECT f() FROM t WHERE 0 < a; DELETE FROM t" = .ok tokens := by
    decide +kernel
  have hread : (Script.ofTokens tokens).1 = .ok [select, delete] := rfl
  have hshort : Token.AllShort tokens := by decide +kernel
  have hconfig : IsConfig .null := trivial
  have hreads : select.ReadsTable := ⟨_, rfl, by decide⟩
  have hmoves : select.MovesColumns := List.forall_mem_singleton.2 (.inr (by decide))
  have hfilters : select.FiltersRows := by
    rintro _ ⟨⟩
    exact .exchanged rfl (.literal _) rfl ⟨by decide, by decide⟩
  have hselect := build_iff_expressible htokens hread hshort (s := select) (by simp) hconfig []
  have hdelete := build_iff_expressible htokens hread hshort (s := delete) (by simp) hconfig []
  exact ⟨htokens, hread, hselect.1.2 ⟨hreads, hmoves, hfilters⟩, hdelete.2.1 id⟩

end Descriptor
end QueryPipeline
