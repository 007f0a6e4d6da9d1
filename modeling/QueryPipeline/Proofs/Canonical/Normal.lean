import QueryPipeline.Proofs.Canonical.Form

/-!
# Normal statements

Two differences between statements cannot be seen in their canonical forms: leading zeros of a
number without a decimal point, and an empty alias of a call in place of none.  `normalized` removes
them, and leaves the form as it is (`form_normalized`).

The forms are `Plain` values, so that equality of forms can be taken apart field by field.
-/

namespace QueryPipeline

open Canonical (tagged withoutAbsent)

namespace Value

theorem Plain.tagged {type : String} {fields : List (String × Value)}
    (hnodup : ("type" :: fields.map Prod.fst).Nodup) (h : ∀ f ∈ fields, f.2.Plain) :
    (tagged type fields).Plain :=
  .obj hnodup (List.forall_mem_cons.mpr ⟨.str, h⟩)

theorem Plain.withoutAbsent {fields : List (String × Value)}
    (hnodup : (fields.map Prod.fst).Nodup) (h : ∀ f ∈ fields, f.2.Plain) :
    (withoutAbsent fields).Plain := by
  refine .obj ((List.filter_sublist.map _).nodup hnodup) fun f hf => ?_
  exact h f (List.mem_of_mem_filter hf)

theorem field_withoutAbsent {fields : List (String × Value)} (hnodup : (fields.map Prod.fst).Nodup)
    (key : String) : (withoutAbsent fields).field key = fieldOf key fields :=
  fieldOf_compact hnodup key

/-- An object that is equal to something agrees with it field by field. -/
theorem Plain.same_field {v w : Value} (hv : v.Plain) (hobj : v.isObj = true)
    (h : v.same w = true) (key : String) : (v.field key).same (w.field key) = true := by
  cases hv with
  | obj hnodup _ =>
    cases w with
    | obj others => exact same_fieldOf hnodup h key
    | null | bool | int | real | str | arr | tuple | token | node => cases h
  | null | bool | int | str | arr | tuple | node => cases hobj

end Value

namespace Expr

theorem plain_form (e : Expr) : e.form.Plain := by
  induction e using Expr.inductionOn with
  | column ref =>
    rw [form, ColumnRef.form, Canonical.column]
    split <;> refine .withoutAbsent (by simp) ?_ <;>
      simp [Value.Plain.str, Value.plain_optional]
  | literal value =>
    cases value with
    | number text =>
      rw [form, Literal.form]
      split <;> exact .tagged (by simp) (by simp [Value.Plain.str, Value.Plain.int])
    | string value => exact .tagged (by simp) (by simp [Value.Plain.str])
    | null => exact .tagged (by simp) (by simp [Value.Plain.null])
  | binary left operator right hleft hright =>
    exact .tagged (by simp) (by simp [Value.Plain.str, hleft, hright])
  | unary operator operand hoperand =>
    exact .tagged (by simp) (by simp [Value.Plain.str, hoperand])
  | call name arguments distinct aliasName harguments =>
    rw [form, forms_eq_map]
    have hall := Value.Plain.map harguments
    split <;>
      exact .tagged (by simp) (by simp [Value.Plain.str, Value.Plain.bool, Value.plain_optional, hall])
  | membership subject values negated hsubject hvalues =>
    rw [form, forms_eq_map]
    have hall := Value.Plain.map hvalues
    exact .tagged (by simp) (by simp [Value.Plain.bool, hsubject, hall])
  | caseOf operand whens otherwise hoperand hwhens hotherwise =>
    rw [form, optionForm_eq_elim, optionForm_eq_elim, branchForms_eq_map]
    have hall : (Value.arr (whens.map branchForm)).Plain := by
      refine Value.Plain.map fun b hb => ?_
      exact .tagged (by simp) (by simp [hwhens b hb])
    refine .withoutAbsent (by simp) ?_
    simp [Value.Plain.str, hall, Value.Plain.elim hoperand, Value.Plain.elim hotherwise]

theorem plain_branchForm (b : Expr × Expr) : (branchForm b).Plain :=
  .tagged (by simp) (by simp [plain_form])

theorem isObj_form (e : Expr) : e.form.isObj = true := by
  cases e with
  | literal value => cases value <;> rfl
  | column | binary | unary | call | membership | caseOf => rfl

theorem same_field {a : Expr} {w : Value} (h : a.form.same w = true) (key : String) :
    (a.form.field key).same (w.field key) = true :=
  a.plain_form.same_field a.isObj_form h key

end Expr

theorem TableRef.nodup_parts (t : TableRef) : (t.parts.map Prod.fst).Nodup := by
  simp [parts]

theorem Join.nodup_parts (j : Join) : (j.parts.map Prod.fst).Nodup := by
  simp [parts]

theorem Select.nodup_parts (s : Select) : (s.parts.map Prod.fst).Nodup := by
  rw [parts]
  cases s.distinct <;> simp

theorem Update.nodup_parts (s : Update) : (s.parts.map Prod.fst).Nodup := by
  simp [parts]

theorem Delete.nodup_parts (s : Delete) : (s.parts.map Prod.fst).Nodup := by
  simp [parts]

section Plain

open Value (Plain)

theorem Expr.plain_forms (es : List Expr) : (Value.arr (forms es)).Plain := by
  rw [forms_eq_map]
  exact .map fun e _ => e.plain_form

theorem Expr.plain_optionForm (o : Option Expr) : (optionForm o).Plain := by
  rw [optionForm_eq_elim]
  exact .elim fun e _ => e.plain_form

theorem TableRef.plain_form (t : TableRef) : t.form.Plain :=
  .withoutAbsent t.nodup_parts (by simp [parts, Plain.str, Value.plain_optional])

theorem Join.plain_form (j : Join) : j.form.Plain :=
  .withoutAbsent j.nodup_parts
    (by simp [parts, Plain.str, TableRef.plain_form, Expr.plain_optionForm])

theorem SortKey.plain_form (k : SortKey) : k.form.Plain :=
  .tagged (by simp) (by simp [Plain.str, Expr.plain_form])

theorem Assignment.plain_form (a : Assignment) : a.form.Plain :=
  .tagged (by simp) (by simp [Plain.str, Expr.plain_form])

theorem Select.plain_groupingForm (es : List Expr) : (groupingForm es).Plain :=
  .tagged (by simp) (by simp [Expr.plain_forms])

theorem Select.plain_form (s : Select) : s.form.Plain := by
  have hsource : (s.source.elim .null TableRef.form).Plain := .elim fun t _ => t.plain_form
  have hjoins : (Value.arr (s.joins.map Join.form)).Plain := .map fun j _ => j.plain_form
  have hgrouping : (s.grouping.elim .null groupingForm).Plain :=
    .elim fun es _ => plain_groupingForm es
  have hkeys : (Value.arr ((s.sortKeys.getD []).map SortKey.form)).Plain :=
    .map fun k _ => k.plain_form
  refine .withoutAbsent s.nodup_parts ?_
  rw [parts]
  cases s.distinct <;>
    simp [Plain.str, Plain.bool, Expr.plain_forms, Expr.plain_optionForm, hsource, hjoins,
      hgrouping, hkeys, Value.plain_optionalInt]

theorem Insert.plain_form (s : Insert) : s.form.Plain := by
  have hcolumns : (Value.arr (s.columns.map .str)).Plain := .map fun _ _ => .str
  have hrows : (Value.arr (s.rows.map fun row => .arr (Expr.forms row))).Plain :=
    .map fun row _ => Expr.plain_forms row
  exact .tagged (by simp) (by simp [TableRef.plain_form, hcolumns, hrows])

theorem Update.plain_form (s : Update) : s.form.Plain := by
  have hassignments : (Value.arr (s.assignments.map Assignment.form)).Plain :=
    .map fun a _ => a.plain_form
  exact .withoutAbsent s.nodup_parts
    (by simp [parts, Plain.str, TableRef.plain_form, Expr.plain_optionForm, hassignments])

theorem Delete.plain_form (s : Delete) : s.form.Plain :=
  .withoutAbsent s.nodup_parts
    (by simp [parts, Plain.str, TableRef.plain_form, Expr.plain_optionForm])

theorem Statement.plain_form (s : Statement) : s.form.Plain := by
  cases s with
  | select s => exact s.plain_form
  | insert s => exact s.plain_form
  | update s => exact s.plain_form
  | delete s => exact s.plain_form

theorem Script.plain_form (all : List Statement) : (form all).Plain :=
  plain_collected Statement.plain_form all

end Plain

/-! ## Normalisation -/

/-- A number without a decimal point loses its leading zeros. -/
def Literal.normalized : Literal → Literal
  | .number text =>
    .number (if text.toList.contains '.' then text
      else String.ofList (Integer.significant text.toList))
  | .string value => .string value
  | .null => .null

namespace Expr

mutual

/-- Numbers without leading zeros, and no empty aliases of calls. -/
def normalized : Expr → Expr
  | .column ref => .column ref
  | .literal value => .literal value.normalized
  | .binary left operator right => .binary (normalized left) operator (normalized right)
  | .unary operator operand => .unary operator (normalized operand)
  | .call name arguments distinct aliasName =>
    .call name (normalizedList arguments) distinct (aliasName.filter (· != ""))
  | .membership subject values negated =>
    .membership (normalized subject) (normalizedList values) negated
  | .caseOf operand whens otherwise =>
    .caseOf (normalizedOption operand) (normalizedBranches whens) (normalizedOption otherwise)

def normalizedList : List Expr → List Expr
  | [] => []
  | e :: rest => normalized e :: normalizedList rest

def normalizedOption : Option Expr → Option Expr
  | none => none
  | some e => some (normalized e)

def normalizedBranches : List (Expr × Expr) → List (Expr × Expr)
  | [] => []
  | (condition, result) :: rest =>
    (normalized condition, normalized result) :: normalizedBranches rest

end

def normalizedBranch (b : Expr × Expr) : Expr × Expr :=
  (normalized b.1, normalized b.2)

theorem normalizedList_eq_map (es : List Expr) : normalizedList es = es.map normalized := by
  induction es with
  | nil => rfl
  | cons e rest ih => rw [normalizedList, ih, List.map_cons]

theorem normalizedOption_eq_map (o : Option Expr) : normalizedOption o = o.map normalized := by
  cases o <;> rfl

theorem normalizedBranches_eq_map (bs : List (Expr × Expr)) :
    normalizedBranches bs = bs.map normalizedBranch := by
  induction bs with
  | nil => rfl
  | cons b rest ih => rw [normalizedBranches, ih, List.map_cons, normalizedBranch]

end Expr

/-! ## What normalisation keeps -/

/-- A number without a decimal point is its own whole part. -/
theorem Literal.wholePart_eq {text : String} (h : '.' ∉ text.toList) :
    wholePart text = Nat.ofDigitChars 10 text.toList 0 := by
  have hall : text.toList.takeWhile (· != '.') = text.toList := by
    refine List.takeWhile_eq_self_iff.mpr fun c hc => bne_iff_ne.mpr ?_
    rintro rfl
    exact h hc
  rw [wholePart, hall]

theorem Literal.form_normalized (l : Literal) : l.normalized.form = l.form := by
  cases l with
  | number text =>
    rw [normalized]
    split
    · rfl
    · rename_i hpoint
      rw [List.contains_iff_mem] at hpoint
      have hsubset : '.' ∉ (String.ofList (Integer.significant text.toList)).toList := by
        intro hmem
        rw [String.toList_ofList, Integer.significant] at hmem
        split at hmem
        · simp at hmem
        · rename_i heq
          rw [← heq] at hmem
          exact hpoint ((List.dropWhile_sublist _).subset hmem)
      have hvalue : wholePart (String.ofList (Integer.significant text.toList)) =
          wholePart text := by
        rw [wholePart_eq hsubset, wholePart_eq hpoint, String.toList_ofList,
          Integer.ofDigitChars_significant]
      simp only [form, hvalue, List.contains_iff_mem, hpoint, hsubset, if_false]
  | string | null => rfl

/-- An empty alias of a call is left out. -/
theorem Value.truthy_optional (o : Option String) :
    (if (optional o).truthy then [("alias", optional o)] else []) =
      ((o.filter (· != "")).toList.map fun s => ("alias", Value.str s)) := by
  cases o with
  | none => rfl
  | some s =>
    by_cases hs : s = ""
    · subst hs
      rfl
    · simp [optional, truthy, hs, Option.filter]

namespace Expr

theorem map_form_normalized {es : List Expr} (h : ∀ e ∈ es, e.normalized.form = e.form) :
    (es.map normalized).map form = es.map form := by
  rw [List.map_map]
  exact List.map_congr_left h

theorem elim_form_normalized {o : Option Expr} (h : ∀ e ∈ o, e.normalized.form = e.form) :
    (o.map normalized).elim .null form = o.elim .null form := by
  cases o with
  | none => rfl
  | some e => exact h e rfl

theorem form_normalized (e : Expr) : e.normalized.form = e.form := by
  induction e using Expr.inductionOn with
  | column ref => rfl
  | literal value => exact value.form_normalized
  | binary left operator right hleft hright => rw [normalized, form, form, hleft, hright]
  | unary operator operand hoperand => rw [normalized, form, form, hoperand]
  | call name arguments distinct aliasName harguments =>
    rw [normalized, form, form, forms_eq_map, forms_eq_map, normalizedList_eq_map,
      map_form_normalized harguments, Value.truthy_optional, Value.truthy_optional,
      Option.filter_filter]
    simp
  | membership subject values negated hsubject hvalues =>
    rw [normalized, form, form, forms_eq_map, forms_eq_map, normalizedList_eq_map,
      map_form_normalized hvalues, hsubject]
  | caseOf operand whens otherwise hoperand hwhens hotherwise =>
    have hbranches : (whens.map normalizedBranch).map branchForm = whens.map branchForm := by
      rw [List.map_map]
      refine List.map_congr_left fun b hb => ?_
      obtain ⟨hcondition, hresult⟩ := hwhens b hb
      rw [Function.comp_apply, branchForm, normalizedBranch, hcondition, hresult, branchForm]
    simp only [normalized, form, optionForm_eq_elim, branchForms_eq_map, normalizedOption_eq_map,
      normalizedBranches_eq_map, elim_form_normalized hoperand, elim_form_normalized hotherwise,
      hbranches]

end Expr

/-! ## Statements -/

def Join.normalized (j : Join) : Join :=
  { j with condition := j.condition.map Expr.normalized }

def SortKey.normalized (k : SortKey) : SortKey :=
  { k with expression := k.expression.normalized }

def Assignment.normalized (a : Assignment) : Assignment :=
  { a with value := a.value.normalized }

def Select.normalized (s : Select) : Select :=
  { s with
    columns := s.columns.map Expr.normalized
    condition := s.condition.map Expr.normalized
    joins := s.joins.map Join.normalized
    grouping := s.grouping.map (List.map Expr.normalized)
    having := s.having.map Expr.normalized
    sortKeys := s.sortKeys.map (List.map SortKey.normalized) }

def Insert.normalized (s : Insert) : Insert :=
  { s with rows := s.rows.map (List.map Expr.normalized) }

def Update.normalized (s : Update) : Update :=
  { s with
    assignments := s.assignments.map Assignment.normalized
    condition := s.condition.map Expr.normalized }

def Delete.normalized (s : Delete) : Delete :=
  { s with condition := s.condition.map Expr.normalized }

/-- A statement whose expressions are normal. -/
def Statement.normalized : Statement → Statement
  | .select s => .select s.normalized
  | .insert s => .insert s.normalized
  | .update s => .update s.normalized
  | .delete s => .delete s.normalized

theorem Expr.forms_normalized (es : List Expr) : forms (es.map normalized) = forms es := by
  rw [forms_eq_map, forms_eq_map]
  exact map_form_normalized fun e _ => e.form_normalized

theorem Expr.optionForm_normalized (o : Option Expr) :
    optionForm (o.map normalized) = optionForm o := by
  rw [optionForm_eq_elim, optionForm_eq_elim]
  exact elim_form_normalized fun e _ => e.form_normalized

theorem Join.form_normalized (j : Join) : j.normalized.form = j.form := by
  rw [form, form, parts, parts, normalized, Expr.optionForm_normalized]

theorem SortKey.form_normalized (k : SortKey) : k.normalized.form = k.form := by
  rw [form, form, normalized, Expr.form_normalized]

theorem Assignment.form_normalized (a : Assignment) : a.normalized.form = a.form := by
  rw [form, form, normalized, Expr.form_normalized]

theorem Select.form_normalized (s : Select) : s.normalized.form = s.form := by
  have hjoins : s.normalized.joins.map Join.form = s.joins.map Join.form := by
    rw [normalized, List.map_map]
    exact List.map_congr_left fun j _ => j.form_normalized
  have hgrouping : s.normalized.grouping.elim .null groupingForm =
      s.grouping.elim .null groupingForm := by
    rw [normalized]
    cases s.grouping with
    | none => rfl
    | some es => exact congrArg (fun vs => tagged _ [(_, .arr vs)]) (Expr.forms_normalized es)
  have hkeys : (s.normalized.sortKeys.getD []).map SortKey.form =
      (s.sortKeys.getD []).map SortKey.form := by
    rw [normalized]
    cases s.sortKeys with
    | none => rfl
    | some keys =>
      rw [Option.map_some, Option.getD_some, Option.getD_some, List.map_map]
      exact List.map_congr_left fun k _ => k.form_normalized
  rw [form, form, parts, parts, hjoins, hgrouping, hkeys]
  simp only [normalized, Expr.forms_normalized, Expr.optionForm_normalized]
  rfl

theorem Insert.form_normalized (s : Insert) : s.normalized.form = s.form := by
  have hrows : (s.normalized.rows.map fun row => Value.arr (Expr.forms row)) =
      s.rows.map fun row => Value.arr (Expr.forms row) := by
    rw [normalized, List.map_map]
    refine List.map_congr_left fun row _ => ?_
    rw [Function.comp_apply, Expr.forms_normalized]
  rw [form, form, hrows, normalized]

theorem Update.form_normalized (s : Update) : s.normalized.form = s.form := by
  have hassignments : s.normalized.assignments.map Assignment.form =
      s.assignments.map Assignment.form := by
    rw [normalized, List.map_map]
    exact List.map_congr_left fun a _ => a.form_normalized
  rw [form, form, parts, parts, hassignments, normalized, Expr.optionForm_normalized]

theorem Delete.form_normalized (s : Delete) : s.normalized.form = s.form := by
  rw [form, form, parts, parts, normalized, Expr.optionForm_normalized]

/-- **Normalisation does not change the canonical form.** -/
theorem Statement.form_normalized (s : Statement) : s.normalized.form = s.form := by
  cases s with
  | select s => exact s.form_normalized
  | insert s => exact s.form_normalized
  | update s => exact s.form_normalized
  | delete s => exact s.form_normalized

end QueryPipeline
