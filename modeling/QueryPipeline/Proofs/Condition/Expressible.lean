import QueryPipeline.Proofs.Condition.Grouping
import QueryPipeline.Proofs.Condition.Operands

/-!
# The expressions that make conditions

Which expressions a pipeline can filter by is decided in many places, by the types of the nodes of
the canonical map.  This file says it in one place, on the expression itself:

    filter  := filter AND filter  |  filter OR filter
             | subject [NOT] IN (operand, ..)
             | subject comparison operand  |  operand comparison subject
    operand := literal  |  subject  |  - .. - number

where a subject is a column that has a name and is not the wildcard, and of two columns the left one
is the subject.  Conditions are made of an expression exactly when it is such a filter
(`ofFilter_form_iff`).
-/

namespace QueryPipeline

/-- The operators that compare. -/
def BinaryOperator.isComparison : BinaryOperator → Bool
  | eq | ne | lt | le | gt | ge | like => true
  | _ => false

theorem Condition.valueOf_of_isColumn {node : Value} (h : isColumn node = true) :
    valueOf node = do
      let name ← requiredName .filter node
      return .str name := by
  have htype := isColumn_iff.1 h
  cases node with
  | obj fields =>
    rw [valueOf, htype]
    rfl
  | _ => cases htype

/-- A junction has parts when both operands have. -/
theorem Condition.parts_junction_iff {c d : Connective} {left right : Filter}
    (h : (Filter.junction d left right).complete d = true) :
    (∃ cs, parts c (.junction d left right) = .ok cs) ↔
      (∃ first, parts d left = .ok first) ∧ ∃ second, parts d right = .ok second := by
  constructor
  · rintro ⟨cs, hcs⟩
    obtain ⟨first, second, hfirst, hsecond, _⟩ := parts_junction hcs
    exact ⟨⟨first, hfirst⟩, second, hsecond⟩
  · rintro ⟨⟨first, hfirst⟩, second, hsecond⟩
    rw [parts_boxed h, parts_chain, hfirst, hsecond]
    exact ⟨_, rfl⟩

namespace Expr

/-! ## Filters -/

/-- A column that can be filtered by: it has a name, and is not the wildcard. -/
def IsSubject : Expr → Prop
  | .column ref => ref.name ≠ "*" ∧ ref.name ≠ ""
  | _ => False

/-- What a column can be compared with. -/
inductive IsOperand : Expr → Prop
  | literal (value : Literal) : IsOperand (.literal value)
  | subject {e : Expr} : e.IsSubject → IsOperand e
  | negated (k : Nat) (text : String) : IsOperand (minus (k + 1) (.literal (.number text)))

/-- **The expressions that a pipeline can filter by.** -/
inductive IsFilter : Expr → Prop
  | junction (c : Connective) {left right : Expr} : IsFilter left → IsFilter right →
      IsFilter (.binary left c.operator right)
  | membership {subject : Expr} {values : List Expr} (negated : Bool) : subject.IsSubject →
      (∀ e ∈ values, e.IsOperand) → IsFilter (.membership subject values negated)
  | comparison {subject operand : Expr} {o : BinaryOperator} : o.isComparison = true →
      subject.IsSubject → operand.IsOperand → IsFilter (.binary subject o operand)
  | exchanged {operand subject : Expr} {o : BinaryOperator} : o.isComparison = true →
      operand.IsOperand → operand.isColumn = false → subject.IsSubject →
      IsFilter (.binary operand o subject)

/-! ## Operands -/

theorem subject_iff {e : Expr} :
    e.IsSubject ↔ Condition.isColumn e.form = true ∧
      ∃ name, Condition.requiredName .filter e.form = .ok name := by
  rw [isColumn_form]
  cases e with
  | column ref =>
    rw [IsSubject, isColumn, bne_iff_ne]
    refine and_congr_right fun hstar => ?_
    have hname : (Expr.column ref).form.field "name" = .str ref.name :=
      ref.field_form.2.1.trans (if_neg hstar)
    simp only [Condition.requiredName_ok_iff, hname, Value.str.injEq]
    constructor
    · intro hne
      exact ⟨ref.name, rfl, hne⟩
    · rintro ⟨_, rfl, hne⟩
      exact hne
  | literal | binary | unary | call | membership | caseOf => simp [IsSubject, isColumn]

theorem valueOf_column {ref : ColumnRef} {v : Value} :
    Condition.valueOf (Expr.column ref).form = .ok v ↔
      (Expr.column ref).IsSubject ∧ v = .str ref.name := by
  by_cases hstar : ref.name = "*"
  · obtain ⟨name, table, aliasName⟩ := ref
    subst hstar
    constructor
    · intro h
      cases h
    · rintro ⟨⟨hne, _⟩, _⟩
      exact absurd rfl hne
  · obtain ⟨htype, hname, _⟩ := ref.field_form
    rw [if_neg hstar] at htype hname
    rw [form, Condition.valueOf_of_isColumn (Condition.isColumn_iff.2 htype), bind_eq_ok]
    constructor
    · rintro ⟨name, hrequired, h⟩
      obtain ⟨hfield, hne⟩ := Condition.requiredName_ok_iff.1 hrequired
      cases hname.symm.trans hfield
      cases h
      exact ⟨⟨hstar, hne⟩, rfl⟩
    · rintro ⟨⟨_, hne⟩, rfl⟩
      exact ⟨ref.name, Condition.requiredName_ok_iff.2 ⟨hname, hne⟩, rfl⟩

theorem valueOf_neg {e : Expr} {w : Value} :
    Condition.valueOf (Expr.unary .neg e).form = .ok w ↔
      ∃ v, Condition.valueOf e.form = .ok v ∧ Condition.negative? v = some w := by
  constructor
  · intro h
    obtain ⟨v, hv, h⟩ := bind_eq_ok.1 h
    refine ⟨v, hv, ?_⟩
    cases hnegative : Condition.negative? v with
    | none =>
      rw [hnegative] at h
      cases h
    | some u =>
      rw [hnegative] at h
      cases h
      rfl
  · rintro ⟨v, hv, hnegative⟩
    refine bind_eq_ok.2 ⟨v, hv, ?_⟩
    rw [hnegative]
    rfl

/-- Only a number under minus signs is put down as a number. -/
theorem negative_valueOf_iff {e : Expr} :
    (∃ v w, Condition.valueOf e.form = .ok v ∧ Condition.negative? v = some w) ↔
      ∃ k text, e = minus k (.literal (.number text)) := by
  constructor
  · induction e using Expr.inductionOn with
    | column ref =>
      rintro ⟨v, w, hv, hw⟩
      obtain ⟨_, rfl⟩ := valueOf_column.1 hv
      cases hw
    | literal value =>
      rintro ⟨v, w, hv, hw⟩
      cases value with
      | number text => exact ⟨0, text, rfl⟩
      | string | null =>
        cases hv
        cases hw
    | unary operator operand ih =>
      rintro ⟨v, w, hv, hw⟩
      cases operator with
      | not => cases hv
      | neg =>
        obtain ⟨u, hu, hnegative⟩ := valueOf_neg.1 hv
        obtain ⟨k, text, rfl⟩ := ih ⟨u, v, hu, hnegative⟩
        exact ⟨k + 1, text, rfl⟩
    | binary | call | membership | caseOf =>
      rintro ⟨v, w, hv, hw⟩
      cases hv
  · rintro ⟨k, text, rfl⟩
    induction k with
    | zero => exact ⟨_, _, rfl, rfl⟩
    | succ k ih =>
      obtain ⟨v, w, hv, hw⟩ := ih
      have hvalue := valueOf_neg.2 ⟨v, hv, hw⟩
      obtain ⟨i, _, rfl⟩ | ⟨x, _, rfl⟩ := Condition.negative?_eq_some hw
      · exact ⟨_, _, hvalue, rfl⟩
      · exact ⟨_, _, hvalue, rfl⟩

/-- **What is put down is an operand.** -/
theorem valueOf_form_iff {e : Expr} :
    (∃ v, Condition.valueOf e.form = .ok v) ↔ e.IsOperand := by
  constructor
  · rintro ⟨v, h⟩
    cases e with
    | column ref => exact .subject (valueOf_column.1 h).1
    | literal value => exact .literal value
    | unary operator operand =>
      cases operator with
      | not => cases h
      | neg =>
        obtain ⟨u, hu, hnegative⟩ := valueOf_neg.1 h
        obtain ⟨k, text, rfl⟩ := negative_valueOf_iff.1 ⟨u, v, hu, hnegative⟩
        exact .negated k text
    | binary | call | membership | caseOf => cases h
  · intro h
    cases h with
    | literal value => cases value <;> exact ⟨_, rfl⟩
    | subject hsubject =>
      cases e with
      | column ref => exact ⟨_, valueOf_column.2 ⟨hsubject, rfl⟩⟩
      | literal | binary | unary | call | membership | caseOf => exact hsubject.elim
    | negated k text =>
      obtain ⟨v, w, hv, hw⟩ := negative_valueOf_iff.2 ⟨k, text, rfl⟩
      exact ⟨w, valueOf_neg.2 ⟨v, hv, hw⟩⟩

theorem valuesOf_forms_iff {es : List Expr} :
    (∃ vs, Condition.valuesOf (forms es) = .ok vs) ↔ ∀ e ∈ es, e.IsOperand := by
  induction es with
  | nil => exact ⟨fun _ => List.forall_mem_nil _, fun _ => ⟨[], rfl⟩⟩
  | cons e es ih =>
    rw [List.forall_mem_cons, ← ih, ← valueOf_form_iff]
    constructor
    · rintro ⟨vs, h⟩
      obtain ⟨v, vs, hv, hvs, _⟩ := both_eq_ok.1 h
      exact ⟨⟨v, hv⟩, vs, hvs⟩
    · rintro ⟨⟨v, hv⟩, vs, hvs⟩
      exact ⟨v :: vs, both_eq_ok.2 ⟨v, vs, hv, hvs, rfl⟩⟩

/-! ## Leaves -/

theorem comparator?_iff {o : BinaryOperator} :
    (∃ c, Condition.comparator? (.str o.symbol) = .ok (some c)) ↔ o.isComparison = true := by
  cases o with
  | eq | ne | lt | le | gt | ge | like => exact iff_of_true ⟨_, rfl⟩ rfl
  | or | and | add | sub | mul | div | mod =>
    refine iff_of_false ?_ (by decide)
    rintro ⟨c, h⟩
    cases h

/-- A membership test makes a condition of a subject and operands. -/
theorem ofLeaf_membership_iff {subject : Expr} {values : List Expr} {negated : Bool} :
    (∃ c, Condition.ofLeaf (Expr.membership subject values negated).form = .ok c) ↔
      subject.IsSubject ∧ ∀ e ∈ values, e.IsOperand := by
  rw [subject_iff, ← valuesOf_forms_iff]
  constructor
  · rintro ⟨c, h⟩
    obtain ⟨_, h⟩ | ⟨htype, _⟩ := Condition.ofLeaf_ok_iff.1 h
    · obtain ⟨hcolumn, name, _, items, hlisted, hname, hitems, _⟩ := Condition.member_ok_iff.1 h
      cases hlisted
      exact ⟨⟨hcolumn, name, hname⟩, items, hitems⟩
    · exact absurd (Value.str.inj htype) (by decide)
  · rintro ⟨⟨hcolumn, name, hname⟩, items, hitems⟩
    have hmember : Condition.member subject.form (.arr (forms values)) negated =
        .ok (.membership name items negated) :=
      Condition.member_ok_iff.2 ⟨hcolumn, name, _, items, rfl, hname, hitems, rfl⟩
    exact ⟨.membership name items negated, Condition.ofLeaf_ok_iff.2 (.inl ⟨rfl, hmember⟩)⟩

/-- A comparison makes a condition of a subject and an operand, on either side. -/
theorem ofLeaf_binary_iff {left right : Expr} {o : BinaryOperator} :
    (∃ c, Condition.ofLeaf (Expr.binary left o right).form = .ok c) ↔
      o.isComparison = true ∧ ((left.IsSubject ∧ right.IsOperand) ∨
        (left.isColumn = false ∧ left.IsOperand ∧ right.IsSubject)) := by
  rw [subject_iff, subject_iff, ← valueOf_form_iff, ← valueOf_form_iff, ← comparator?_iff,
    ← isColumn_form]
  constructor
  · rintro ⟨c, h⟩
    obtain ⟨htype, _⟩ | ⟨_, operator, hoperator, h⟩ := Condition.ofLeaf_ok_iff.1 h
    · exact absurd (Value.str.inj htype) (by decide)
    · refine ⟨⟨operator, hoperator⟩, ?_⟩
      obtain ⟨_, _, ⟨hcolumn, name, value, hname, hvalue, _⟩ |
        ⟨hcolumn, hright, name, value, hname, hvalue, _⟩⟩ := Condition.compare_ok_iff.1 h
      · exact .inl ⟨⟨hcolumn, name, hname⟩, value, hvalue⟩
      · exact .inr ⟨hcolumn, ⟨value, hvalue⟩, hright, name, hname⟩
  · rintro ⟨⟨operator, hoperator⟩, hsides⟩
    suffices hcompare : ∃ c, Condition.compare operator left.form right.form = .ok c by
      obtain ⟨c, hc⟩ := hcompare
      exact ⟨c, Condition.ofLeaf_ok_iff.2 (.inr ⟨rfl, operator, hoperator, hc⟩)⟩
    obtain ⟨⟨hcolumn, name, hname⟩, value, hvalue⟩ | ⟨hcolumn, ⟨value, hvalue⟩, hright, name, hname⟩
      := hsides
    · exact ⟨_, Condition.compare_ok_iff.2 ⟨left.form_ne_null, right.form_ne_null,
        .inl ⟨hcolumn, name, value, hname, hvalue, rfl⟩⟩⟩
    · exact ⟨_, Condition.compare_ok_iff.2 ⟨left.form_ne_null, right.form_ne_null,
        .inr ⟨hcolumn, hright, name, value, hname, hvalue, rfl⟩⟩⟩

theorem joins_form (c : Connective) (left right : Expr) :
    Filter.Joins c (Expr.binary left c.operator right).form := by
  refine ⟨rfl, (BinaryOperator.upper_symbol c.operator).trans ?_⟩
  cases c <;> rfl

/-- **A leaf makes a condition exactly when it is a filter.** -/
theorem ofLeaf_form_iff {e : Expr} (h : ∀ c, ¬Filter.Joins c e.form) :
    (∃ c, Condition.ofLeaf e.form = .ok c) ↔ e.IsFilter := by
  cases e with
  | membership subject values negated =>
    rw [ofLeaf_membership_iff]
    constructor
    · rintro ⟨hsubject, hvalues⟩
      exact .membership negated hsubject hvalues
    · intro hfilter
      cases hfilter with
      | membership _ hsubject hvalues => exact ⟨hsubject, hvalues⟩
  | binary left o right =>
    rw [ofLeaf_binary_iff]
    constructor
    · rintro ⟨ho, ⟨hsubject, hoperand⟩ | ⟨hcolumn, hoperand, hsubject⟩⟩
      · exact .comparison ho hsubject hoperand
      · exact .exchanged ho hoperand hcolumn hsubject
    · intro hfilter
      cases hfilter with
      | junction c => exact absurd (joins_form c left right) (h c)
      | comparison ho hsubject hoperand => exact ⟨ho, .inl ⟨hsubject, hoperand⟩⟩
      | exchanged ho hoperand hcolumn hsubject =>
        exact ⟨ho, .inr ⟨hcolumn, hoperand, hsubject⟩⟩
  | column | literal | unary | call | caseOf =>
    constructor
    · rintro ⟨c, hc⟩
      obtain ⟨htype, _⟩ | ⟨htype, _⟩ := Condition.ofLeaf_ok_iff.1 hc
      all_goals
        have hshape := shape_of_type htype
        cases hshape
    · intro hfilter
      cases hfilter

/-! ## Conditions -/

theorem whole_form (e : Expr) : Filter.Whole e.form := by
  induction e using Expr.inductionOn with
  | binary left o right ihleft ihright =>
    by_cases h : ∃ c, Filter.Joins c (Expr.binary left o right).form
    · obtain ⟨c, hjoins⟩ := h
      exact .junction hjoins left.form_ne_null right.form_ne_null ihleft ihright
    · exact .leaf fun c hjoins => h ⟨c, hjoins⟩
  | column | literal | unary | call | membership | caseOf =>
    refine .leaf fun c hjoins => ?_
    have hshape := shape_of_type hjoins.1
    cases hshape

theorem isFilter_junction_iff {c : Connective} {left right : Expr} :
    (Expr.binary left c.operator right).IsFilter ↔ left.IsFilter ∧ right.IsFilter := by
  constructor
  · intro h
    have hcomparison : c.operator.isComparison = false := by
      cases c <;> rfl
    generalize c.operator = o at h hcomparison
    cases h with
    | junction _ hleft hright => exact ⟨hleft, hright⟩
    | comparison ho => cases ho.symm.trans hcomparison
    | exchanged ho => cases ho.symm.trans hcomparison
  · rintro ⟨hleft, hright⟩
    exact .junction c hleft hright

/-- **An expression has parts exactly when it is a filter**, in a chain of either connective. -/
theorem parts_form_iff {e : Expr} {c : Connective} :
    (∃ cs, Condition.parts c (Filter.ofJson e.form) = .ok cs) ↔ e.IsFilter := by
  have hwhole := e.whole_form
  generalize hnode : e.form = node at hwhole
  induction hwhole generalizing e c with
  | @leaf node hnone =>
    subst hnode
    rw [← ofLeaf_form_iff hnone, Filter.ofJson_of_not_joins e.form_ne_null hnone]
    constructor
    · rintro ⟨cs, h⟩
      obtain ⟨d, hd, _⟩ := Condition.parts_leaf h
      exact ⟨d, hd⟩
    · rintro ⟨d, hd⟩
      exact ⟨[d], bind_eq_ok.2 ⟨d, hd, rfl⟩⟩
  | @junction node d hjoins _ _ _ _ ihleft ihright =>
    subst hnode
    obtain ⟨left, right, rfl⟩ := eq_of_joins hjoins
    have hcomplete := (whole_form (.binary left d.operator right)).complete d
    rw [Filter.ofJson_of_joins hjoins] at hcomplete ⊢
    rw [Condition.parts_junction_iff hcomplete, isFilter_junction_iff]
    exact and_congr (ihleft rfl) (ihright rfl)

/-- **Conditions are made of an expression exactly when it is a filter**, and always when there is
none. -/
theorem ofFilter_form_iff {condition : Option Expr} :
    (∃ cs, Condition.ofFilter (Filter.ofJson (optionForm condition)) = .ok cs) ↔
      ∀ e ∈ condition, e.IsFilter := by
  cases condition with
  | none => exact iff_of_true ⟨[], rfl⟩ fun e he => by cases he
  | some e =>
    rw [optionForm, Condition.ofFilter_of_whole e.whole_form e.form_ne_null, parts_form_iff]
    simp

end Expr
end QueryPipeline
