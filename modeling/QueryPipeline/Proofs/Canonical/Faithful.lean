import QueryPipeline.Proofs.Canonical.Normal
import QueryPipeline.Proofs.Statement.Render

/-!
# Canonical maps are faithful

Nothing but what normalisation removes is lost in a canonical form: expressions with equal forms are
equal after normalisation.  The proof goes along the expression.  The type in a form says how the
expression is made (`shape_eq_of_same`), and its parts are found in the fields.
-/

namespace QueryPipeline

open Canonical (tagged withoutAbsent)
open Value

/-! ## How an expression is made -/

namespace Expr

/-- What a form says about how its expression is made. -/
def typeName : Expr → String
  | .column ref => if ref.name = "*" then "all" else "column"
  | .literal (.number _) => "number"
  | .literal (.string _) => "string"
  | .literal .null => "null"
  | .binary .. => "binary_op"
  | .unary .. => "unary_op"
  | .call .. => "function"
  | .membership .. => "in_expression"
  | .caseOf .. => "case"

/-- The shape of the expressions with a form of some type. -/
def shapeOf (typeName : String) : Shape :=
  match typeName with
  | "number" | "string" | "null" => .literal
  | "binary_op" => .binary
  | "unary_op" => .unary
  | "function" => .call
  | "in_expression" => .membership
  | "case" => .caseOf
  | _ => .column

theorem shapeOf_typeName (e : Expr) : shapeOf e.typeName = e.shape := by
  cases e with
  | column ref =>
    rw [typeName]
    split <;> rfl
  | literal value => cases value <;> rfl
  | binary | unary | call | membership | caseOf => rfl

end Expr

theorem ColumnRef.field_form (c : ColumnRef) :
    c.form.field "type" = .str (if c.name = "*" then "all" else "column") ∧
      c.form.field "name" = (if c.name = "*" then .null else .str c.name) ∧
      c.form.field "table" = .optional c.table ∧ c.form.field "alias" = .optional c.aliasName := by
  rw [form, Canonical.column]
  by_cases hname : c.name = "*"
  · simp only [hname, if_true]
    refine ⟨?_, ?_, ?_, ?_⟩ <;> exact field_withoutAbsent (by simp) _
  · have hne : ¬ Value.str c.name = .str "*" := by simpa using hname
    simp only [hname, hne, if_false]
    refine ⟨?_, ?_, ?_, ?_⟩ <;> exact field_withoutAbsent (by simp) _

namespace Expr

theorem field_type (e : Expr) : e.form.field "type" = .str e.typeName := by
  cases e with
  | column ref => exact ref.field_form.1
  | literal value => cases value <;> rfl
  | caseOf => exact field_withoutAbsent (by simp) _
  | binary | unary | call | membership => rfl

theorem typeName_eq_of_same {a b : Expr} (h : a.form.same b.form = true) :
    a.typeName = b.typeName := by
  have htype := same_field h "type"
  rw [field_type, field_type] at htype
  exact eq_of_same_str htype

/-- Expressions with equal forms are made in the same way. -/
theorem shape_eq_of_same {a b : Expr} (h : a.form.same b.form = true) : a.shape = b.shape := by
  rw [← shapeOf_typeName, ← shapeOf_typeName, typeName_eq_of_same h]

end Expr

/-! ## Expressions -/

theorem ColumnRef.eq_of_same {a b : ColumnRef}
    (h : (Expr.column a).form.same (Expr.column b).form = true) : a = b := by
  obtain ⟨_, haname, hatable, haalias⟩ := a.field_form
  obtain ⟨_, hbname, hbtable, hbalias⟩ := b.field_form
  have hname := Expr.same_field h "name"
  have htable := Expr.same_field h "table"
  have halias := Expr.same_field h "alias"
  rw [Expr.form, Expr.form] at hname htable halias
  rw [haname, hbname] at hname
  rw [hatable, hbtable] at htable
  rw [haalias, hbalias] at halias
  have hnames : a.name = b.name := by
    by_cases ha : a.name = "*"
    · by_cases hb : b.name = "*"
      · rw [ha, hb]
      · rw [if_pos ha, if_neg hb] at hname
        cases hname
    · by_cases hb : b.name = "*"
      · rw [if_neg ha, if_pos hb] at hname
        cases hname
      · rw [if_neg ha, if_neg hb] at hname
        exact eq_of_same_str hname
  obtain ⟨name, table, aliasName⟩ := a
  obtain ⟨name', table', aliasName'⟩ := b
  cases hnames
  cases eq_of_same_optional htable
  cases eq_of_same_optional halias
  rfl

theorem Literal.field_number (text : String) :
    (Literal.number text).form.field "value" = .int (wholePart text) ∧
      (Literal.number text).form.field "raw" =
        if '.' ∈ text.toList then .str text else .null := by
  rw [form]
  by_cases hpoint : '.' ∈ text.toList
  · simp only [List.contains_iff_mem, hpoint, if_true]
    exact ⟨rfl, rfl⟩
  · simp only [List.contains_iff_mem, hpoint, if_false]
    exact ⟨rfl, rfl⟩

/-- Numbers of a query with equal forms differ in zeros in front, and only if they have no decimal
point. -/
theorem Literal.normalized_eq_of_same_number {x y : String} (hx : Token.IsNumber x.toList)
    (hy : Token.IsNumber y.toList)
    (h : (Expr.literal (.number x)).form.same (Expr.literal (.number y)).form = true) :
    (Literal.number x).normalized = (Literal.number y).normalized := by
  have hvalue := Expr.same_field h "value"
  have hraw := Expr.same_field h "raw"
  rw [Expr.form, Expr.form, (field_number x).1, (field_number y).1] at hvalue
  rw [Expr.form, Expr.form, (field_number x).2, (field_number y).2] at hraw
  rw [normalized, normalized]
  by_cases hxpoint : '.' ∈ x.toList
  · by_cases hypoint : '.' ∈ y.toList
    · rw [if_pos hxpoint, if_pos hypoint] at hraw
      rw [eq_of_same_str hraw]
    · rw [if_pos hxpoint, if_neg hypoint] at hraw
      cases hraw
  · by_cases hypoint : '.' ∈ y.toList
    · rw [if_neg hxpoint, if_pos hypoint] at hraw
      cases hraw
    · have hwhole : wholePart x = wholePart y := Int.ofNat.inj (eq_of_same_int hvalue)
      have hdigits : Integer.significant x.toList = Integer.significant y.toList := by
        rw [← Integer.decimal_ofDigitChars (Integer.areDigits_of_isNumber hx hxpoint),
          ← Integer.decimal_ofDigitChars (Integer.areDigits_of_isNumber hy hypoint),
          ← wholePart_eq hxpoint, ← wholePart_eq hypoint, hwhole]
      simp only [List.contains_iff_mem, hxpoint, hypoint, if_false, hdigits]

/-- Literals of a query with equal forms are equal but for leading zeros. -/
theorem Literal.normalized_eq_of_same {a b : Literal} (ha : (Expr.literal a).Legible)
    (hb : (Expr.literal b).Legible)
    (h : (Expr.literal a).form.same (Expr.literal b).form = true) : a.normalized = b.normalized := by
  have htype := Expr.typeName_eq_of_same h
  cases a with
  | number x =>
    cases b with
    | number y =>
      exact normalized_eq_of_same_number (ha x (by simp [Expr.numbers]))
        (hb y (by simp [Expr.numbers])) h
    | string | null => simp [Expr.typeName] at htype
  | string s =>
    cases b with
    | string t => rw [eq_of_same_str (Expr.same_field h "value")]
    | number | null => simp [Expr.typeName] at htype
  | null =>
    cases b with
    | null => rfl
    | number | string => simp [Expr.typeName] at htype

namespace Expr

theorem form_ne_null (e : Expr) : e.form ≠ .null := by
  intro hnull
  have hobj := e.isObj_form
  rw [hnull] at hobj
  cases hobj

theorem field_alias (name : String) (arguments : List Expr) (distinct : Bool)
    (aliasName : Option String) :
    (form (.call name arguments distinct aliasName)).field "alias" =
      .optional (aliasName.filter (· != "")) := by
  rw [form, truthy_optional]
  cases aliasName.filter (· != "") <;> rfl

theorem field_case (operand : Option Expr) (whens : List (Expr × Expr)) (otherwise : Option Expr) :
    (form (.caseOf operand whens otherwise)).field "operand" = optionForm operand ∧
      (form (.caseOf operand whens otherwise)).field "whens" = .arr (branchForms whens) ∧
      (form (.caseOf operand whens otherwise)).field "else" = optionForm otherwise := by
  rw [form]
  refine ⟨?_, ?_, ?_⟩ <;> exact field_withoutAbsent (by simp) _

theorem normalizedList_eq_of_same {as bs : List Expr}
    (h : ∀ a ∈ as, ∀ b ∈ bs, a.form.same b.form = true → a.normalized = b.normalized)
    (hsame : (Value.arr (forms as)).same (.arr (forms bs)) = true) :
    normalizedList as = normalizedList bs := by
  rw [forms_eq_map, forms_eq_map] at hsame
  rw [normalizedList_eq_map, normalizedList_eq_map]
  exact map_eq_of_sameItems h hsame

theorem normalizedOption_eq_of_same {o p : Option Expr}
    (h : ∀ a ∈ o, ∀ b ∈ p, a.form.same b.form = true → a.normalized = b.normalized)
    (hsame : (optionForm o).same (optionForm p) = true) :
    normalizedOption o = normalizedOption p := by
  rw [optionForm_eq_elim, optionForm_eq_elim] at hsame
  rw [normalizedOption_eq_map, normalizedOption_eq_map]
  exact map_eq_of_same_elim form_ne_null h hsame

theorem normalizedBranches_eq_of_same {as bs : List (Expr × Expr)}
    (h : ∀ a ∈ as, ∀ b ∈ bs, (a.1.form.same b.1.form = true → a.1.normalized = b.1.normalized) ∧
      (a.2.form.same b.2.form = true → a.2.normalized = b.2.normalized))
    (hsame : (Value.arr (branchForms as)).same (.arr (branchForms bs)) = true) :
    normalizedBranches as = normalizedBranches bs := by
  rw [branchForms_eq_map, branchForms_eq_map] at hsame
  rw [normalizedBranches_eq_map, normalizedBranches_eq_map]
  refine map_eq_of_sameItems (fun a ha b hb hbranch => ?_) hsame
  obtain ⟨hcondition, hresult⟩ := h a ha b hb
  have hfields := (plain_branchForm a).same_field rfl hbranch
  rw [normalizedBranch, normalizedBranch, hcondition (hfields "condition"),
    hresult (hfields "result")]

/-- **Expressions with equal forms are equal after normalisation.** -/
theorem normalized_eq_of_same {a : Expr} : ∀ {b : Expr}, a.Legible → b.Legible →
    a.form.same b.form = true → a.normalized = b.normalized := by
  induction a using Expr.inductionOn with
  | column ref =>
    intro b _ _ h
    cases b with
    | column ref' => rw [ColumnRef.eq_of_same h]
    | literal | binary | unary | call | membership | caseOf => cases shape_eq_of_same h
  | literal value =>
    intro b ha hb h
    cases b with
    | literal value' =>
      rw [normalized, normalized, Literal.normalized_eq_of_same ha hb h]
    | column | binary | unary | call | membership | caseOf => cases shape_eq_of_same h
  | binary left operator right hleft hright =>
    intro b ha hb h
    cases b with
    | binary left' operator' right' =>
      obtain ⟨hal, har⟩ := List.forall_mem_append.mp ha
      obtain ⟨hbl, hbr⟩ := List.forall_mem_append.mp hb
      have hop := BinaryOperator.symbol_injective (eq_of_same_str (same_field h "operator"))
      rw [normalized, normalized, hop, hleft hal hbl (same_field h "left"),
        hright har hbr (same_field h "right")]
    | column | literal | unary | call | membership | caseOf => cases shape_eq_of_same h
  | unary operator operand hoperand =>
    intro b ha hb h
    cases b with
    | unary operator' operand' =>
      have hop := UnaryOperator.symbol_injective (eq_of_same_str (same_field h "operator"))
      rw [normalized, normalized, hop, hoperand (b := operand') ha hb (same_field h "operand")]
    | column | literal | binary | call | membership | caseOf => cases shape_eq_of_same h
  | call name arguments distinct aliasName harguments =>
    intro b ha hb h
    cases b with
    | call name' arguments' distinct' aliasName' =>
      have hlist := normalizedList_eq_of_same
        (fun a hma b hmb => harguments a hma (forall_numbersIn.mp ha a hma)
          (forall_numbersIn.mp hb b hmb)) (same_field h "arguments")
      have halias := same_field h "alias"
      rw [field_alias, field_alias] at halias
      rw [normalized, normalized, hlist, eq_of_same_str (same_field h "name"),
        eq_of_same_bool (same_field h "distinct"), eq_of_same_optional halias]
    | column | literal | binary | unary | membership | caseOf => cases shape_eq_of_same h
  | membership subject values negated hsubject hvalues =>
    intro b ha hb h
    cases b with
    | membership subject' values' negated' =>
      obtain ⟨has, hav⟩ := List.forall_mem_append.mp ha
      obtain ⟨hbs, hbv⟩ := List.forall_mem_append.mp hb
      have hlist := normalizedList_eq_of_same
        (fun a hma b hmb => hvalues a hma (forall_numbersIn.mp hav a hma)
          (forall_numbersIn.mp hbv b hmb)) (same_field h "values")
      rw [normalized, normalized, hlist, hsubject has hbs (same_field h "expression"),
        eq_of_same_bool (same_field h "negated")]
    | column | literal | binary | unary | call | caseOf => cases shape_eq_of_same h
  | caseOf operand whens otherwise hoperand hwhens hotherwise =>
    intro b ha hb h
    cases b with
    | caseOf operand' whens' otherwise' =>
      simp only [Legible, numbers, List.forall_mem_append, forall_optionNumbers,
        forall_branchNumbers] at ha hb
      obtain ⟨hao, haw, hae⟩ := ha
      obtain ⟨hbo, hbw, hbe⟩ := hb
      have hfirst := same_field h "operand"
      have hall := same_field h "whens"
      have hlast := same_field h "else"
      rw [(field_case ..).1, (field_case ..).1] at hfirst
      rw [(field_case ..).2.1, (field_case ..).2.1] at hall
      rw [(field_case ..).2.2, (field_case ..).2.2] at hlast
      rw [normalized, normalized,
        normalizedOption_eq_of_same (fun a ha b hb => hoperand a ha (hao a ha) (hbo b hb)) hfirst,
        normalizedBranches_eq_of_same (fun a ha b hb =>
          ⟨(hwhens a ha).1 (haw a ha).1 (hbw b hb).1, (hwhens a ha).2 (haw a ha).2 (hbw b hb).2⟩)
          hall,
        normalizedOption_eq_of_same (fun a ha b hb => hotherwise a ha (hae a ha) (hbe b hb)) hlast]
    | column | literal | binary | unary | call | membership => cases shape_eq_of_same h

end Expr

/-! ## Statements -/

/-- Equal objects agree field by field, whether or not fields that are null have been left out. -/
theorem Value.same_withoutAbsent {as bs : List (String × Value)} (has : (as.map Prod.fst).Nodup)
    (hbs : (bs.map Prod.fst).Nodup) (h : (withoutAbsent as).same (withoutAbsent bs) = true)
    (key : String) : (fieldOf key as).same (fieldOf key bs) = true := by
  have hnodup : ((compact as).map Prod.fst).Nodup := (List.filter_sublist.map _).nodup has
  have hsame := same_fieldOf hnodup h key
  rwa [fieldOf_compact has, fieldOf_compact hbs] at hsame

theorem TableRef.eq_of_same {a b : TableRef} (h : a.form.same b.form = true) : a = b := by
  have hfield := same_withoutAbsent a.nodup_parts b.nodup_parts h
  obtain ⟨name, schema, aliasName⟩ := a
  obtain ⟨name', schema', aliasName'⟩ := b
  cases eq_of_same_str (hfield "table")
  cases eq_of_same_optional (hfield "schema")
  cases eq_of_same_optional (hfield "alias")
  rfl

theorem TableRef.form_ne_null (t : TableRef) : t.form ≠ .null := by
  rw [form, withoutAbsent]
  exact Value.noConfusion

theorem Select.groupingForm_ne_null (es : List Expr) : groupingForm es ≠ .null := by
  rw [groupingForm, tagged]
  exact Value.noConfusion

theorem JoinKind.lowerName_injective {a b : JoinKind} (h : a.lowerName = b.lowerName) : a = b := by
  revert h
  cases a <;> cases b <;> simp [lowerName]

theorem Expr.map_normalized_eq_of_same {as bs : List Expr} (has : ∀ e ∈ as, e.Legible)
    (hbs : ∀ e ∈ bs, e.Legible) (h : (Value.arr (forms as)).same (.arr (forms bs)) = true) :
    as.map normalized = bs.map normalized := by
  rw [forms_eq_map, forms_eq_map] at h
  exact map_eq_of_sameItems (fun a ha b hb => normalized_eq_of_same (has a ha) (hbs b hb)) h

theorem Expr.option_normalized_eq_of_same {o p : Option Expr} (ho : ∀ e ∈ o, e.Legible)
    (hp : ∀ e ∈ p, e.Legible) (h : (optionForm o).same (optionForm p) = true) :
    o.map normalized = p.map normalized := by
  rw [optionForm_eq_elim, optionForm_eq_elim] at h
  exact map_eq_of_same_elim form_ne_null
    (fun a ha b hb => normalized_eq_of_same (ho a ha) (hp b hb)) h

theorem Join.normalized_eq_of_same {a b : Join} (ha : ∀ e ∈ a.condition, e.Legible)
    (hb : ∀ e ∈ b.condition, e.Legible) (h : a.form.same b.form = true) :
    a.normalized = b.normalized := by
  have hfield := same_withoutAbsent a.nodup_parts b.nodup_parts h
  have hkind := JoinKind.lowerName_injective (eq_of_same_str (hfield "kind"))
  have htable := TableRef.eq_of_same (hfield "table")
  have hcondition := Expr.option_normalized_eq_of_same ha hb (hfield "condition")
  rw [normalized, normalized, hkind, htable, hcondition]

theorem SortKey.normalized_eq_of_same {a b : SortKey} (ha : a.expression.Legible)
    (hb : b.expression.Legible) (h : a.form.same b.form = true) : a.normalized = b.normalized := by
  have hfield := a.plain_form.same_field rfl h
  have hexpression := Expr.normalized_eq_of_same ha hb (hfield "expression")
  have hdirection := Direction.name_injective (eq_of_same_str (hfield "direction"))
  rw [normalized, normalized, hexpression, hdirection]

theorem Assignment.normalized_eq_of_same {a b : Assignment} (ha : a.value.Legible)
    (hb : b.value.Legible) (h : a.form.same b.form = true) : a.normalized = b.normalized := by
  have hfield := a.plain_form.same_field rfl h
  have hvalue := Expr.normalized_eq_of_same ha hb (hfield "value")
  rw [normalized, normalized, eq_of_same_str (hfield "column"), hvalue]

theorem Select.distinct_eq_of_same {a b : Select}
    (h : (fieldOf "distinct" a.parts).same (fieldOf "distinct" b.parts) = true) :
    a.distinct = b.distinct := by
  have hfield : ∀ s : Select, fieldOf "distinct" s.parts =
      if s.distinct then .bool true else .null := by
    intro s
    rw [parts]
    cases s.distinct <;> rfl
  rw [hfield, hfield] at h
  cases hda : a.distinct <;> cases hdb : b.distinct <;> rw [hda, hdb] at h <;> trivial

theorem Select.groupingForm_eq_of_same {as bs : List Expr} (ha : ∀ e ∈ as, e.Legible)
    (hb : ∀ e ∈ bs, e.Legible) (h : (groupingForm as).same (groupingForm bs) = true) :
    as.map Expr.normalized = bs.map Expr.normalized :=
  Expr.map_normalized_eq_of_same ha hb ((plain_groupingForm as).same_field rfl h "expressions")

/-- A list of keys that is there is not empty, so that an absent list is not confused with it. -/
theorem Select.sortKeys_eq_of_same {o p : Option (List SortKey)}
    (ho : ∀ ks ∈ o, ∀ k ∈ ks, k.expression.Legible) (hp : ∀ ks ∈ p, ∀ k ∈ ks, k.expression.Legible)
    (hone : o ≠ some []) (hpne : p ≠ some [])
    (h : (Value.arr ((o.getD []).map SortKey.form)).same
      (.arr ((p.getD []).map SortKey.form)) = true) :
    o.map (List.map SortKey.normalized) = p.map (List.map SortKey.normalized) := by
  have hkeys : (o.getD []).map SortKey.normalized = (p.getD []).map SortKey.normalized := by
    refine map_eq_of_sameItems (fun k hk l hl => ?_) h
    refine SortKey.normalized_eq_of_same ?_ ?_
    · cases o with
      | none => cases hk
      | some ks => exact ho ks rfl k hk
    · cases p with
      | none => cases hl
      | some ls => exact hp ls rfl l hl
  cases o with
  | none =>
    cases p with
    | none => rfl
    | some ls =>
      cases ls with
      | nil => exact absurd rfl hpne
      | cons l ls => cases hkeys
  | some ks =>
    cases p with
    | none =>
      cases ks with
      | nil => exact absurd rfl hone
      | cons k ks => cases hkeys
    | some ls => exact congrArg some hkeys

theorem Select.normalized_eq_of_same {a b : Select} (ha : ∀ e ∈ a.exprs, e.Legible)
    (hb : ∀ e ∈ b.exprs, e.Legible) (hakeys : a.sortKeys ≠ some []) (hbkeys : b.sortKeys ≠ some [])
    (h : a.form.same b.form = true) : a.normalized = b.normalized := by
  have hfield := same_withoutAbsent a.nodup_parts b.nodup_parts h
  obtain ⟨hacolumns, hacondition, hajoins, hagrouping, hahaving, hasort⟩ := forall_exprs.mp ha
  obtain ⟨hbcolumns, hbcondition, hbjoins, hbgrouping, hbhaving, hbsort⟩ := forall_exprs.mp hb
  have hcolumns := Expr.map_normalized_eq_of_same hacolumns hbcolumns (hfield "columns")
  have hsource : a.source = b.source :=
    eq_of_same_elim TableRef.form_ne_null (fun _ _ _ _ => TableRef.eq_of_same) (hfield "from")
  have hcondition := Expr.option_normalized_eq_of_same hacondition hbcondition (hfield "where")
  have hjoins : a.joins.map Join.normalized = b.joins.map Join.normalized :=
    map_eq_of_sameItems (fun i hi j hj => Join.normalized_eq_of_same (hajoins i hi) (hbjoins j hj))
      (hfield "joins")
  have hgrouping : a.grouping.map (List.map Expr.normalized) =
      b.grouping.map (List.map Expr.normalized) :=
    map_eq_of_same_elim groupingForm_ne_null
      (fun es hes fs hfs => groupingForm_eq_of_same (hagrouping es hes) (hbgrouping fs hfs))
      (hfield "group_by")
  have hhaving := Expr.option_normalized_eq_of_same hahaving hbhaving (hfield "having")
  have hsort := sortKeys_eq_of_same hasort hbsort hakeys hbkeys (hfield "order_by")
  have hlimit := eq_of_same_optionalInt (hfield "limit")
  have hoffset := eq_of_same_optionalInt (hfield "offset")
  have hdistinct := distinct_eq_of_same (hfield "distinct")
  rw [normalized, normalized, hcolumns, hsource, hcondition, hjoins, hgrouping, hhaving, hsort,
    hlimit, hoffset, hdistinct]

theorem Insert.normalized_eq_of_same {a b : Insert} (ha : ∀ e ∈ a.exprs, e.Legible)
    (hb : ∀ e ∈ b.exprs, e.Legible) (h : a.form.same b.form = true) :
    a.normalized = b.normalized := by
  have hfield := a.plain_form.same_field rfl h
  have htable := TableRef.eq_of_same (hfield "table")
  have hcolumns : a.columns = b.columns :=
    eq_of_sameItems (fun _ _ _ _ => eq_of_same_str) (hfield "columns")
  have hrows : a.rows.map (List.map Expr.normalized) = b.rows.map (List.map Expr.normalized) := by
    refine map_eq_of_sameItems (fun r hr t ht => ?_) (hfield "values")
    exact Expr.map_normalized_eq_of_same (fun e he => ha e (List.mem_flatten.mpr ⟨r, hr, he⟩))
      (fun e he => hb e (List.mem_flatten.mpr ⟨t, ht, he⟩))
  rw [normalized, normalized, htable, hcolumns, hrows]

theorem Update.normalized_eq_of_same {a b : Update} (ha : ∀ e ∈ a.exprs, e.Legible)
    (hb : ∀ e ∈ b.exprs, e.Legible) (h : a.form.same b.form = true) :
    a.normalized = b.normalized := by
  have hfield := same_withoutAbsent a.nodup_parts b.nodup_parts h
  simp only [exprs, List.forall_mem_append, List.forall_mem_map, Option.mem_toList] at ha hb
  have htable := TableRef.eq_of_same (hfield "table")
  have hassignments : a.assignments.map Assignment.normalized =
      b.assignments.map Assignment.normalized :=
    map_eq_of_sameItems
      (fun i hi j hj => Assignment.normalized_eq_of_same (ha.1 i hi) (hb.1 j hj))
      (hfield "assignments")
  have hcondition := Expr.option_normalized_eq_of_same ha.2 hb.2 (hfield "where")
  rw [normalized, normalized, htable, hassignments, hcondition]

theorem Delete.normalized_eq_of_same {a b : Delete} (ha : ∀ e ∈ a.exprs, e.Legible)
    (hb : ∀ e ∈ b.exprs, e.Legible) (h : a.form.same b.form = true) :
    a.normalized = b.normalized := by
  have hfield := same_withoutAbsent a.nodup_parts b.nodup_parts h
  simp only [exprs, Option.mem_toList] at ha hb
  have htable := TableRef.eq_of_same (hfield "table")
  have hcondition := Expr.option_normalized_eq_of_same ha hb (hfield "where")
  rw [normalized, normalized, htable, hcondition]

namespace Statement

def typeName : Statement → String
  | .select _ => "select"
  | .insert _ => "insert"
  | .update _ => "update"
  | .delete _ => "delete"

theorem field_type (s : Statement) : s.form.field "type" = .str s.typeName := by
  cases s with
  | select s => exact field_withoutAbsent s.nodup_parts _
  | insert s => rfl
  | update s => exact field_withoutAbsent s.nodup_parts _
  | delete s => exact field_withoutAbsent s.nodup_parts _

theorem isObj_form (s : Statement) : s.form.isObj = true := by
  cases s <;> rfl

/-- What a statement of a text is like: its numbers are numbers, and an order has a key. -/
structure Regular (s : Statement) : Prop where
  legible : ∀ e ∈ s.exprs, e.Legible
  ordered : ∀ q, s = .select q → q.sortKeys ≠ some []

/-- **Statements with equal forms are equal after normalisation.** -/
theorem normalized_eq_of_same {a b : Statement} (ha : a.Regular) (hb : b.Regular)
    (h : a.form.same b.form = true) : a.normalized = b.normalized := by
  have htype := a.plain_form.same_field a.isObj_form h "type"
  rw [field_type, field_type] at htype
  have htype := eq_of_same_str htype
  cases a with
  | select a =>
    cases b with
    | select b =>
      exact congrArg select (Select.normalized_eq_of_same ha.legible hb.legible
        (ha.ordered a rfl) (hb.ordered b rfl) h)
    | insert | update | delete => simp [typeName] at htype
  | insert a =>
    cases b with
    | insert b => exact congrArg insert (Insert.normalized_eq_of_same ha.legible hb.legible h)
    | select | update | delete => simp [typeName] at htype
  | update a =>
    cases b with
    | update b => exact congrArg update (Update.normalized_eq_of_same ha.legible hb.legible h)
    | select | insert | delete => simp [typeName] at htype
  | delete a =>
    cases b with
    | delete b => exact congrArg delete (Delete.normalized_eq_of_same ha.legible hb.legible h)
    | select | insert | update => simp [typeName] at htype

end Statement

/-! ## Scripts -/

namespace Script

theorem form_normalized (all : List Statement) : form (all.map Statement.normalized) = form all := by
  have hlist : (all.map Statement.normalized).map Statement.form = all.map Statement.form := by
    rw [List.map_map]
    exact List.map_congr_left fun s _ => s.form_normalized
  match all with
  | [] => rfl
  | [s] => exact s.form_normalized
  | _ :: _ :: _ => exact congrArg Value.arr hlist

theorem same_form_iff {as bs : List Statement} (has : ∀ s ∈ as, s.Regular)
    (hbs : ∀ s ∈ bs, s.Regular) :
    (form as).same (form bs) = true ↔
      as.map Statement.normalized = bs.map Statement.normalized := by
  constructor
  · intro h
    exact map_eq_of_same_collected (fun s _ => by cases s <;> exact ⟨rfl, rfl⟩)
      (fun a ha b hb => Statement.normalized_eq_of_same (has a ha) (hbs b hb)) h
  · intro h
    rw [← form_normalized as, h, form_normalized bs]
    exact (plain_form bs).same_self

theorem regular_of_tokens {text : String} {tokens : List Token} {all : List Statement}
    (htokens : tokenize text = .ok tokens) (h : (ofTokens tokens).1 = .ok all) :
    ∀ s ∈ all, s.Regular := by
  intro s hs
  refine ⟨legible_of_tokens htokens h s hs, ?_⟩
  rintro q rfl hempty
  have hprintable : q.Printable := (printable_of_parse (parse_of_tokens htokens h)).2 _ hs
  exact (hprintable.sortKeys [] hempty).1 rfl

/-- **The canonical form loses nothing but leading zeros and empty aliases of calls.**  For two
texts whose numbers can be read, the canonical forms of their statements exist, and they are equal
exactly when the statements are equal, and have equal trees, after normalisation. -/
theorem canonical_same_iff {x y : String} {xs ys : List Token} {as bs : List Statement}
    (hx : tokenize x = .ok xs) (hy : tokenize y = .ok ys) (hxs : Token.AllShort xs)
    (hys : Token.AllShort ys) (ha : (ofTokens xs).1 = .ok as) (hb : (ofTokens ys).1 = .ok bs) :
    ∃ v w, (toTree as).canonical = .ok v ∧ (toTree bs).canonical = .ok w ∧
      (v.same w = true ↔ (toTree (as.map Statement.normalized)).same
        (toTree (bs.map Statement.normalized)) = true) ∧
      (v.same w = true ↔ as.map Statement.normalized = bs.map Statement.normalized) := by
  have hsame := same_form_iff (regular_of_tokens hx ha) (regular_of_tokens hy hb)
  refine ⟨form as, form bs, canonical_of_tokens hx ha hxs, canonical_of_tokens hy hb hys, ?_, hsame⟩
  rw [hsame, same_toTree_iff]

/-- Leading zeros and an empty alias. -/
theorem canonical_same_iff_zeros :
    let xs : List Token :=
      [⟨.keyword, "SELECT", 0⟩, ⟨.number, "007", 7⟩, ⟨.punctuation, ",", 10⟩,
       ⟨.identifier, "f", 12⟩, ⟨.punctuation, "(", 13⟩, ⟨.number, "0.50", 14⟩,
       ⟨.punctuation, ")", 18⟩, ⟨.keyword, "AS", 20⟩, ⟨.identifier, "", 23⟩, ⟨.eof, "", 25⟩]
    let ys : List Token :=
      [⟨.keyword, "SELECT", 0⟩, ⟨.number, "7", 7⟩, ⟨.punctuation, ",", 8⟩,
       ⟨.identifier, "f", 10⟩, ⟨.punctuation, "(", 11⟩, ⟨.number, "0.50", 12⟩,
       ⟨.punctuation, ")", 16⟩, ⟨.eof, "", 17⟩]
    tokenize "SELECT 007, f(0.50) AS \"\"" = .ok xs ∧ tokenize "SELECT 7, f(0.50)" = .ok ys ∧
      ∃ as bs v w, (ofTokens xs).1 = .ok as ∧ (ofTokens ys).1 = .ok bs ∧
        (toTree as).canonical = .ok v ∧ (toTree bs).canonical = .ok w ∧ v.same w = true := by
  intro xs ys
  have hx : tokenize "SELECT 007, f(0.50) AS \"\"" = .ok xs := by decide +kernel
  have hy : tokenize "SELECT 7, f(0.50)" = .ok ys := by decide +kernel
  have hxs : Token.AllShort xs := by decide +kernel
  have hys : Token.AllShort ys := by decide +kernel
  let as : List Statement := [.select ⟨[.literal (.number "007"),
    .call "f" [.literal (.number "0.50")] false (some "")], none, none, [], none, none, none, none,
    none, false⟩]
  let bs : List Statement := [.select ⟨[.literal (.number "7"),
    .call "f" [.literal (.number "0.50")] false none], none, none, [], none, none, none, none,
    none, false⟩]
  have ha : (ofTokens xs).1 = .ok as := rfl
  have hb : (ofTokens ys).1 = .ok bs := rfl
  obtain ⟨v, w, hv, hw, _, hsame⟩ := canonical_same_iff hx hy hxs hys ha hb
  exact ⟨hx, hy, as, bs, v, w, ha, hb, hv, hw, hsame.mpr rfl⟩

end Script
end QueryPipeline
