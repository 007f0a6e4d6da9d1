import QueryPipeline.Canonical
import QueryPipeline.Proofs.Expr.Printable
import QueryPipeline.Proofs.Number
import QueryPipeline.Proofs.Statement.Expressions
import QueryPipeline.Proofs.Statement.Sound
import QueryPipeline.Proofs.Tree.Same

/-!
# The canonical forms of statements

What the canonical map of an expression or statement is, said by recursion on the expression itself
and not on its tree (`Expr.form`, `Statement.form`, `Script.form`).

The canonical map of the tree of a statement can only fail by the length of a number.  `Settles`
says both halves of this at once: with short numbers the canonical map is the form, and without that
it is the form if there is one.
-/

namespace QueryPipeline

open Canonical (tagged withoutAbsent)

/-! ## Expressions -/

/-- The number in front of the decimal point. -/
def Literal.wholePart (text : String) : Nat :=
  Nat.ofDigitChars 10 (text.toList.takeWhile (· != '.')) 0

def Literal.form : Literal → Value
  | .number text =>
    tagged "number" (("value", .int (wholePart text)) ::
      if text.toList.contains '.' then [("raw", .str text)] else [])
  | .string value => tagged "string" [("value", .str value)]
  | .null => tagged "null" [("value", .null)]

def ColumnRef.form (c : ColumnRef) : Value :=
  Canonical.column (.str c.name) (.optional c.table) (.optional c.aliasName)

namespace Expr

mutual

def form : Expr → Value
  | .column ref => ref.form
  | .literal value => value.form
  | .binary left operator right =>
    tagged "binary_op"
      [("operator", .str operator.symbol), ("left", form left), ("right", form right)]
  | .unary operator operand =>
    tagged "unary_op" [("operator", .str operator.symbol), ("operand", form operand)]
  | .call name arguments distinct aliasName =>
    tagged "function"
      ([("name", .str name), ("arguments", .arr (forms arguments)), ("distinct", .bool distinct)] ++
        if (Value.optional aliasName).truthy then [("alias", .optional aliasName)] else [])
  | .membership subject values negated =>
    tagged "in_expression"
      [("expression", form subject), ("values", .arr (forms values)), ("negated", .bool negated)]
  | .caseOf operand whens otherwise =>
    withoutAbsent
      [("type", .str "case"), ("operand", optionForm operand), ("whens", .arr (branchForms whens)),
       ("else", optionForm otherwise)]

def forms : List Expr → List Value
  | [] => []
  | e :: rest => form e :: forms rest

def optionForm : Option Expr → Value
  | none => .null
  | some e => form e

def branchForms : List (Expr × Expr) → List Value
  | [] => []
  | (condition, result) :: rest =>
    tagged "when" [("condition", form condition), ("result", form result)] :: branchForms rest

end

def branchForm (b : Expr × Expr) : Value :=
  tagged "when" [("condition", form b.1), ("result", form b.2)]

theorem forms_eq_map (es : List Expr) : forms es = es.map form := by
  induction es with
  | nil => rfl
  | cons e rest ih => rw [forms, ih, List.map_cons]

theorem branchForms_eq_map (bs : List (Expr × Expr)) : branchForms bs = bs.map branchForm := by
  induction bs with
  | nil => rfl
  | cons b rest ih => rw [branchForms, ih, List.map_cons, branchForm]

theorem optionForm_eq_elim (o : Option Expr) : optionForm o = o.elim .null form := by
  cases o <;> rfl

end Expr

/-! ## Statements -/

/-- The fields of the form of a table.  Those that are null are left out. -/
def TableRef.parts (t : TableRef) : List (String × Value) :=
  [("schema", .optional t.schema), ("table", .str t.name), ("alias", .optional t.aliasName)]

def TableRef.form (t : TableRef) : Value :=
  withoutAbsent t.parts

def JoinKind.lowerName : JoinKind → String
  | inner => "inner"
  | left => "left"
  | right => "right"
  | outer => "outer"

def Join.parts (j : Join) : List (String × Value) :=
  [("type", .str "join"), ("kind", .str j.kind.lowerName), ("table", j.table.form),
   ("condition", Expr.optionForm j.condition)]

def Join.form (j : Join) : Value :=
  withoutAbsent j.parts

def SortKey.form (k : SortKey) : Value :=
  tagged "order_by" [("expression", k.expression.form), ("direction", .str k.direction.name)]

def Assignment.form (a : Assignment) : Value :=
  tagged "assignment" [("column", .str a.column), ("value", a.value.form)]

def Select.groupingForm (es : List Expr) : Value :=
  tagged "group_by" [("expressions", .arr (Expr.forms es))]

def Select.parts (s : Select) : List (String × Value) :=
  [("type", .str "select"), ("columns", .arr (Expr.forms s.columns)),
   ("from", s.source.elim .null TableRef.form), ("where", Expr.optionForm s.condition),
   ("joins", .arr (s.joins.map Join.form)), ("group_by", s.grouping.elim .null groupingForm),
   ("having", Expr.optionForm s.having),
   ("order_by", .arr ((s.sortKeys.getD []).map SortKey.form)), ("limit", .optionalInt s.limit),
   ("offset", .optionalInt s.offset)] ++
    if s.distinct then [("distinct", .bool true)] else []

def Select.form (s : Select) : Value :=
  withoutAbsent s.parts

def Insert.form (s : Insert) : Value :=
  tagged "insert"
    [("table", s.table.form), ("columns", .arr (s.columns.map .str)),
     ("values", .arr (s.rows.map fun row => .arr (Expr.forms row)))]

def Update.parts (s : Update) : List (String × Value) :=
  [("type", .str "update"), ("table", s.table.form),
   ("assignments", .arr (s.assignments.map Assignment.form)),
   ("where", Expr.optionForm s.condition)]

def Update.form (s : Update) : Value :=
  withoutAbsent s.parts

def Delete.parts (s : Delete) : List (String × Value) :=
  [("type", .str "delete"), ("table", s.table.form), ("where", Expr.optionForm s.condition)]

def Delete.form (s : Delete) : Value :=
  withoutAbsent s.parts

def Statement.form : Statement → Value
  | .select s => s.form
  | .insert s => s.form
  | .update s => s.form
  | .delete s => s.form

/-- A single statement has its own form; several have the list of theirs. -/
def Script.form (all : List Statement) : Value :=
  collected Statement.form all

/-! ## Results that depend on a condition -/

/-- A computation has the result `a` if `P` holds, and no other result in any case. -/
structure Settles {α : Type} (P : Prop) (x : Except CanonicalError α) (a : α) : Prop where
  ok : P → x = .ok a
  eq_of_ok : ∀ {b : α}, x = .ok b → b = a

namespace Settles

variable {α β : Type} {P Q : Prop}

theorem pure (a : α) : Settles P (.ok a) a where
  ok _ := rfl
  eq_of_ok h := by cases h; rfl

theorem bind {x : Except CanonicalError α} {a : α} {f : α → Except CanonicalError β} {b : β}
    (hx : Settles P x a) (hf : Settles Q (f a) b) : Settles (P ∧ Q) (x >>= f) b where
  ok h := by
    rw [hx.ok h.1]
    exact hf.ok h.2
  eq_of_ok h := by
    cases hresult : x with
    | error e =>
      rw [hresult] at h
      cases h
    | ok c =>
      rw [hresult] at h
      cases hx.eq_of_ok hresult
      exact hf.eq_of_ok h

theorem mono {x : Except CanonicalError α} {a : α} (h : Settles P x a) (hQ : Q → P) :
    Settles Q x a where
  ok hq := h.ok (hQ hq)
  eq_of_ok := h.eq_of_ok

/-! ### Parts of trees -/

open Canonical (Role)

variable {v w : Value} {vs ws : List Value} {roles : List Role}

theorem part (h : Settles P v.canonical w) (hrest : Settles Q (Value.canonicalFields roles vs) ws) :
    Settles (P ∧ Q) (Value.canonicalFields (.part :: roles) (v :: vs)) (w :: ws) := by
  rw [Value.canonicalFields]
  refine (h.bind (hrest.bind (pure (P := True) (w :: ws)))).mono ?_
  exact fun h => ⟨h.1, h.2, trivial⟩

theorem kept (hrest : Settles Q (Value.canonicalFields roles vs) ws) :
    Settles Q (Value.canonicalFields (.kept :: roles) (v :: vs)) (v :: ws) := by
  rw [Value.canonicalFields]
  exact (hrest.bind (pure (P := True) (v :: ws))).mono fun h => ⟨h, trivial⟩

theorem names (hrest : Settles Q (Value.canonicalFields roles vs) ws) (items : List Value) :
    Settles Q (Value.canonicalFields (.names :: roles) (.tuple items :: vs)) (.arr items :: ws) := by
  rw [Value.canonicalFields]
  exact (hrest.bind (pure (P := True) (Value.arr items :: ws))).mono fun h => ⟨h, trivial⟩

theorem columnName (hrest : Settles Q (Value.canonicalFields roles vs) ws) (c : ColumnRef) :
    Settles Q (Value.canonicalFields (.columnName :: roles) (c.toTree :: vs))
      (.str c.name :: ws) := by
  rw [Value.canonicalFields]
  exact (hrest.bind (pure (P := True) (Value.str c.name :: ws))).mono fun h => ⟨h, trivial⟩

theorem nil : Settles True (Value.canonicalFields [] []) [] :=
  pure []

theorem node {shape : Shape} (h : Settles P (Value.canonicalFields (Canonical.roles shape) vs) ws)
    (hnode : Canonical.node shape ws = .ok w) : Settles P (Value.node shape vs).canonical w := by
  rw [Value.canonical]
  refine (h.bind ?_).mono fun hp => ⟨hp, trivial⟩
  rw [hnode]
  exact pure w

theorem tuple (h : Settles P (Value.canonicalItems vs) ws) :
    Settles P (Value.tuple vs).canonical (.arr ws) := by
  rw [Value.canonical]
  exact (h.bind (pure (P := True) (Value.arr ws))).mono fun hp => ⟨hp, trivial⟩

theorem arr (h : Settles P (Value.canonicalItems vs) ws) :
    Settles P (Value.arr vs).canonical (.arr ws) := by
  rw [Value.canonical]
  exact (h.bind (pure (P := True) (Value.arr ws))).mono fun hp => ⟨hp, trivial⟩

theorem items {f g : α → Value} {S : α → Prop} : ∀ {as : List α},
    (∀ a ∈ as, Settles (S a) (f a).canonical (g a)) →
      Settles (∀ a ∈ as, S a) (Value.canonicalItems (as.map f)) (as.map g)
  | [], _ => pure []
  | a :: as, h => by
    rw [List.forall_mem_cons] at h
    rw [List.map_cons, List.map_cons, Value.canonicalItems]
    refine (h.1.bind ((items h.2).bind (pure (P := True) (g a :: as.map g)))).mono ?_
    exact fun hS => ⟨hS a (by simp), fun b hb => hS b (by simp [hb]), trivial⟩

theorem option {f g : α → Value} {S : α → Prop} {o : Option α}
    (h : ∀ a ∈ o, Settles (S a) (f a).canonical (g a)) :
    Settles (∀ a ∈ o, S a) (o.elim .null f).canonical (o.elim .null g) := by
  cases o with
  | none => exact pure Value.null
  | some a => exact (h a rfl).mono fun hS => hS a rfl

/-- A list that is empty when it is not given. -/
theorem partOrEmpty {f g : α → Value} {S : α → Prop} {o : Option (List α)}
    (h : ∀ as ∈ o, ∀ a ∈ as, Settles (S a) (f a).canonical (g a))
    (hrest : Settles Q (Value.canonicalFields roles vs) ws) :
    Settles ((∀ as ∈ o, ∀ a ∈ as, S a) ∧ Q)
      (Value.canonicalFields (.partOrEmpty :: roles)
        (o.elim .null (fun as => .tuple (as.map f)) :: vs))
      (.arr ((o.getD []).map g) :: ws) := by
  have hnone : Settles Q (Value.canonicalFields (.partOrEmpty :: roles) (.null :: vs))
      (.arr [] :: ws) := by
    rw [Value.canonicalFields]
    exact (hrest.bind (pure (P := True) (Value.arr [] :: ws))).mono fun h => ⟨h, trivial⟩
  cases o with
  | none => exact hnone.mono fun h => h.2
  | some as =>
    cases as with
    | nil => exact hnone.mono fun h => h.2
    | cons a as =>
      have hlist := (items (h (a :: as) rfl)).tuple
      refine (hlist.part hrest).mono fun hS => ⟨hS.1 (a :: as) rfl, hS.2⟩

end Settles

/-! ## Numbers -/

/-- A number whose whole part is not too long to be read. -/
def Literal.Short (text : String) : Prop :=
  (text.toList.takeWhile (· != '.')).length ≤ Integer.digitLimit

theorem Canonical.settles_number {text : String} (h : Token.IsNumber text.toList) :
    Settles (Literal.Short text) (Canonical.number text) (Literal.number text).form := by
  have hdigits := Integer.areDigits_wholePart h
  have hread := @Integer.read_digits (String.ofList (text.toList.takeWhile (· != '.')))
    (by rwa [String.toList_ofList])
  rw [String.toList_ofList] at hread
  by_cases hlimit : Integer.digitLimit < (text.toList.takeWhile (· != '.')).length
  · rw [if_pos hlimit] at hread
    refine ⟨fun hshort => absurd hlimit (Nat.not_lt.mpr hshort), fun hok => ?_⟩
    rw [Canonical.number, hread] at hok
    cases hok
  · rw [if_neg hlimit] at hread
    rw [Canonical.number, hread]
    exact Settles.pure _

namespace Expr

/-- The numbers of an expression are numbers. -/
def Legible (e : Expr) : Prop :=
  ∀ text ∈ e.numbers, Token.IsNumber text.toList

/-- No number of an expression is too long to be read. -/
def Short (e : Expr) : Prop :=
  ∀ text ∈ e.numbers, Literal.Short text

theorem settles_forms {es : List Expr} (h : ∀ e ∈ es, Settles e.Short e.toTree.canonical e.form) :
    Settles (∀ e ∈ es, e.Short) (Value.tuple (toTrees es)).canonical (.arr (forms es)) := by
  rw [toTrees_eq_map, forms_eq_map]
  exact (Settles.items h).tuple

theorem settles_option {o : Option Expr}
    (h : ∀ e ∈ o, Settles e.Short e.toTree.canonical e.form) :
    Settles (∀ e ∈ o, e.Short) (optionTree o).canonical (optionForm o) := by
  rw [optionTree_eq_elim, optionForm_eq_elim]
  exact Settles.option h

theorem settles_branches {bs : List (Expr × Expr)}
    (h : ∀ b ∈ bs, Settles b.1.Short b.1.toTree.canonical b.1.form ∧
      Settles b.2.Short b.2.toTree.canonical b.2.form) :
    Settles (∀ b ∈ bs, b.1.Short ∧ b.2.Short) (Value.tuple (branchTrees bs)).canonical
      (.arr (branchForms bs)) := by
  rw [branchTrees_eq_map, branchForms_eq_map]
  refine (Settles.items fun b hb => ?_).tuple
  obtain ⟨hcondition, hresult⟩ := h b hb
  refine ((hcondition.part (hresult.part .nil)).node rfl).mono fun hshort => ?_
  exact ⟨hshort.1, hshort.2, trivial⟩

/-- **The tree of an expression has a canonical form unless a number is too long.** -/
theorem settles_form {e : Expr} (h : e.Legible) : Settles e.Short e.toTree.canonical e.form := by
  induction e using Expr.inductionOn with
  | column ref => exact ((Settles.kept (.kept (.kept .nil))).node rfl).mono fun _ => trivial
  | literal value =>
    cases value with
    | number text =>
      have htree : (toTree (.literal (.number text))).canonical = Canonical.number text := by
        simp [toTree, Literal.toTree, Value.canonical, Value.canonicalFields, Canonical.roles,
          Canonical.node, Canonical.literal, Tree.fieldAt, bind, Except.bind, pure, Except.pure]
      rw [Legible, numbers, List.forall_mem_singleton] at h
      rw [htree, form, Short, numbers, List.forall_mem_singleton]
      exact Canonical.settles_number h
    | string value => exact ((Settles.kept (.kept .nil)).node rfl).mono fun _ => trivial
    | null => exact ((Settles.kept (.kept .nil)).node rfl).mono fun _ => trivial
  | binary left operator right hleft hright =>
    obtain ⟨hl, hr⟩ := List.forall_mem_append.mp h
    refine (((hleft hl).part (.kept ((hright hr).part .nil))).node rfl).mono fun hshort => ?_
    obtain ⟨hsl, hsr⟩ := List.forall_mem_append.mp hshort
    exact ⟨hsl, hsr, trivial⟩
  | unary operator operand hoperand =>
    refine ((Settles.kept ((hoperand h).part .nil)).node rfl).mono fun hshort => ?_
    exact ⟨hshort, trivial⟩
  | call name arguments distinct aliasName harguments =>
    have hall := settles_forms fun e he => harguments e he (forall_numbersIn.mp h e he)
    refine ((Settles.kept (hall.part (.kept (.kept .nil)))).node rfl).mono fun hshort => ?_
    exact ⟨forall_numbersIn.mp hshort, trivial⟩
  | membership subject values negated hsubject hvalues =>
    obtain ⟨hs, hv⟩ := List.forall_mem_append.mp h
    have hall := settles_forms fun e he => hvalues e he (forall_numbersIn.mp hv e he)
    refine (((hsubject hs).part (hall.part (.kept .nil))).node rfl).mono fun hshort => ?_
    obtain ⟨hss, hsv⟩ := List.forall_mem_append.mp hshort
    exact ⟨hss, forall_numbersIn.mp hsv, trivial⟩
  | caseOf operand whens otherwise hoperand hwhens hotherwise =>
    simp only [Legible, numbers, List.forall_mem_append, forall_optionNumbers,
      forall_branchNumbers] at h
    obtain ⟨ho, hw, he⟩ := h
    have hfirst := settles_option fun e he => hoperand e he (ho e he)
    have hall := settles_branches fun b hb =>
      ⟨(hwhens b hb).1 (hw b hb).1, (hwhens b hb).2 (hw b hb).2⟩
    have hlast := settles_option fun e h => hotherwise e h (he e h)
    refine ((hfirst.part (hall.part (hlast.part .nil))).node rfl).mono fun hshort => ?_
    simp only [Short, numbers, List.forall_mem_append, forall_optionNumbers,
      forall_branchNumbers] at hshort
    exact ⟨hshort.1, hshort.2.1, hshort.2.2, trivial⟩

end Expr

/-! ## The trees of statements -/

theorem TableRef.settles_form (t : TableRef) : Settles True t.toTree.canonical t.form :=
  (Settles.kept (.kept (.kept .nil))).node rfl

theorem JoinKind.lower_name (k : JoinKind) : Text.lower (Value.str k.name).plain = k.lowerName := by
  cases k <;> decide +kernel

theorem Join.settles_form {j : Join} (h : ∀ e ∈ j.condition, e.Legible) :
    Settles (∀ e ∈ j.condition, e.Short) j.toTree.canonical j.form := by
  have hcondition := Expr.settles_option fun e he => Expr.settles_form (h e he)
  refine ((Settles.kept (j.table.settles_form.part (hcondition.part .nil))).node ?_).mono
    fun hshort => ⟨trivial, hshort, trivial⟩
  rw [Join.form, Join.parts, ← JoinKind.lower_name]
  rfl

theorem SortKey.settles_form {k : SortKey} (h : k.expression.Legible) :
    Settles k.expression.Short k.toTree.canonical k.form :=
  (((Expr.settles_form h).part (.kept .nil)).node rfl).mono fun hshort => ⟨hshort, trivial⟩

theorem Assignment.settles_form {a : Assignment} (h : a.value.Legible) :
    Settles a.value.Short a.toTree.canonical a.form := by
  have hvalue := (Expr.settles_form h).part .nil
  exact ((hvalue.columnName ⟨a.column, none, none⟩).node rfl).mono fun hshort => ⟨hshort, trivial⟩

theorem Select.settles_grouping {es : List Expr} (h : ∀ e ∈ es, e.Legible) :
    Settles (∀ e ∈ es, e.Short)
      (Value.node .grouping [.tuple (Expr.toTrees es)]).canonical (groupingForm es) := by
  have hall := Expr.settles_forms fun e he => Expr.settles_form (h e he)
  exact ((hall.part .nil).node rfl).mono fun hshort => ⟨hshort, trivial⟩

/-- Whether a property of expressions holds of all those of a select statement. -/
theorem Select.forall_exprs {s : Select} {S : Expr → Prop} :
    (∀ e ∈ s.exprs, S e) ↔ (∀ e ∈ s.columns, S e) ∧ (∀ e ∈ s.condition, S e) ∧
      (∀ j ∈ s.joins, ∀ e ∈ j.condition, S e) ∧ (∀ es ∈ s.grouping, ∀ e ∈ es, S e) ∧
      (∀ e ∈ s.having, S e) ∧ ∀ ks ∈ s.sortKeys, ∀ k ∈ ks, S k.expression := by
  have hgetD : ∀ {α : Type} {o : Option (List α)} {T : α → Prop},
      (∀ a ∈ o.getD [], T a) ↔ ∀ as ∈ o, ∀ a ∈ as, T a := by
    intro α o T
    cases o <;> simp
  simp only [exprs, List.forall_mem_append, Option.mem_toList, List.forall_mem_flatMap,
    Option.mem_def, List.forall_mem_map, hgetD]

theorem Select.settles_form {s : Select} (h : ∀ e ∈ s.exprs, e.Legible) :
    Settles (∀ e ∈ s.exprs, e.Short) s.toTree.canonical s.form := by
  obtain ⟨hcolumns, hcondition, hjoins, hgrouping, hhaving, hkeys⟩ := forall_exprs.mp h
  have hform {e : Expr} : e.Legible → Settles e.Short e.toTree.canonical e.form :=
    Expr.settles_form
  have columns := Expr.settles_forms fun e he => hform (hcolumns e he)
  have source := Settles.option (o := s.source) fun t _ => t.settles_form
  have condition := Expr.settles_option fun e he => hform (hcondition e he)
  have joins := (Settles.items fun j hj => Join.settles_form (hjoins j hj)).tuple
  have grouping := Settles.option fun es hes => settles_grouping (hgrouping es hes)
  have having := Expr.settles_option fun e he => hform (hhaving e he)
  have keys := fun ks hks k hk => SortKey.settles_form (hkeys ks hks k hk)
  refine ((columns.part (source.part (condition.part (joins.part (grouping.part (having.part
    (.partOrEmpty keys (.kept (.kept (.kept .nil)))))))))).node rfl).mono fun hshort => ?_
  obtain ⟨hc, hw, hj, hg, hh, hk⟩ := forall_exprs.mp hshort
  exact ⟨hc, fun _ _ => trivial, hw, hj, hg, hh, hk, trivial⟩

theorem Insert.settles_form {s : Insert} (h : ∀ e ∈ s.exprs, e.Legible) :
    Settles (∀ e ∈ s.exprs, e.Short) s.toTree.canonical s.form := by
  have hrow : ∀ row ∈ s.rows, Settles (∀ e ∈ row, e.Short)
      (Value.tuple (Expr.toTrees row)).canonical (.arr (Expr.forms row)) := by
    intro row hrow
    exact Expr.settles_forms fun e he =>
      Expr.settles_form (h e (List.mem_flatten.mpr ⟨row, hrow, he⟩))
  have hrest := Settles.part (Settles.items hrow).tuple .nil
  refine ((s.table.settles_form.part (hrest.names (s.columns.map .str))).node rfl).mono
    fun hshort => ⟨trivial, fun row hrow e he => ?_, trivial⟩
  exact hshort e (List.mem_flatten.mpr ⟨row, hrow, he⟩)

theorem Update.settles_form {s : Update} (h : ∀ e ∈ s.exprs, e.Legible) :
    Settles (∀ e ∈ s.exprs, e.Short) s.toTree.canonical s.form := by
  simp only [exprs, List.forall_mem_append, List.forall_mem_map, Option.mem_toList] at h ⊢
  have hall := (Settles.items fun a ha => Assignment.settles_form (h.1 a ha)).tuple
  have hcondition := Expr.settles_option fun e he => Expr.settles_form (h.2 e he)
  refine ((s.table.settles_form.part (hall.part (hcondition.part .nil))).node rfl).mono ?_
  exact fun hshort => ⟨trivial, hshort.1, hshort.2, trivial⟩

theorem Delete.settles_form {s : Delete} (h : ∀ e ∈ s.exprs, e.Legible) :
    Settles (∀ e ∈ s.exprs, e.Short) s.toTree.canonical s.form := by
  simp only [exprs, Option.mem_toList] at h ⊢
  have hcondition := Expr.settles_option fun e he => Expr.settles_form (h e he)
  refine ((s.table.settles_form.part (hcondition.part .nil)).node rfl).mono ?_
  exact fun hshort => ⟨trivial, hshort, trivial⟩

theorem Statement.settles_form {s : Statement} (h : ∀ e ∈ s.exprs, e.Legible) :
    Settles (∀ e ∈ s.exprs, e.Short) s.toTree.canonical s.form := by
  cases s with
  | select s => exact Select.settles_form h
  | insert s => exact Insert.settles_form h
  | update s => exact Update.settles_form h
  | delete s => exact Delete.settles_form h

/-- **The tree of a script has a canonical form unless a number is too long.** -/
theorem Script.settles_form {all : List Statement} (h : ∀ s ∈ all, ∀ e ∈ s.exprs, e.Legible) :
    Settles (∀ s ∈ all, ∀ e ∈ s.exprs, e.Short) (toTree all).canonical (form all) := by
  have hlist := (Settles.items fun s hs => Statement.settles_form (h s hs)).arr
  match all with
  | [] => exact hlist
  | [s] => exact (Statement.settles_form (h s (by simp))).mono fun hshort => hshort s (by simp)
  | _ :: _ :: _ => exact hlist

/-! ## Statements of a text -/

/-- How many digits a token has. -/
def Token.digitCount (t : Token) : Nat :=
  t.text.toList.countP Char.isDigit

/-- No number among some tokens has more digits than can be read. -/
def Token.AllShort (tokens : List Token) : Prop :=
  ∀ t ∈ tokens, t.kind? = some .number → t.digitCount ≤ Integer.digitLimit

instance (tokens : List Token) : Decidable (Token.AllShort tokens) :=
  inferInstanceAs (Decidable (∀ t ∈ tokens, t.kind? = some .number →
    t.digitCount ≤ Integer.digitLimit))

theorem Literal.short_of_digitCount {t : Token} (hnumber : Token.IsNumber t.text.toList)
    (h : t.digitCount ≤ Integer.digitLimit) : Short t.text := by
  have hdigits := Integer.areDigits_wholePart hnumber
  calc (t.text.toList.takeWhile (· != '.')).length
      = (t.text.toList.takeWhile (· != '.')).countP Char.isDigit :=
        (List.countP_eq_length.mpr hdigits.2).symm
    _ ≤ t.digitCount := (List.takeWhile_sublist _).countP_le
    _ ≤ Integer.digitLimit := h

namespace Script

variable {text : String} {tokens : List Token} {all : List Statement}

/-- The numbers in the statements of a text are number tokens of it. -/
theorem numbers_of_tokens (htokens : tokenize text = .ok tokens)
    (h : (ofTokens tokens).1 = .ok all) :
    ∀ s ∈ all, ∀ e ∈ s.exprs, ∀ n ∈ e.numbers,
      ∃ t ∈ tokens, t.kind? = some .number ∧ t.text = n ∧ Token.IsNumber n.toList := by
  intro s hs e he n hn
  obtain ⟨legible, stop, rfl, hlegible⟩ := Scanner.scan_legible 0 text.toList htokens
  obtain ⟨us, rest, heq, _, hscript⟩ := ofTokens_sound h
  obtain ⟨t, ht, hkind, rfl⟩ :=
    Grammar.numberIn_script hscript s hs n (List.mem_flatMap.mpr ⟨e, he, hn⟩)
  have hmem : t ∈ legible ++ [Token.endOfText stop] := heq ▸ List.mem_append_left _ ht
  refine ⟨t, hmem, hkind, rfl, ?_⟩
  rcases List.mem_append.mp hmem with hmem | hmem
  · exact (hlegible t hmem).clean.number hkind
  · rw [List.mem_singleton.mp hmem] at hkind
    cases hkind

theorem legible_of_tokens (htokens : tokenize text = .ok tokens)
    (h : (ofTokens tokens).1 = .ok all) : ∀ s ∈ all, ∀ e ∈ s.exprs, e.Legible := by
  intro s hs e he n hn
  obtain ⟨_, _, _, _, hnumber⟩ := numbers_of_tokens htokens h s hs e he n hn
  exact hnumber

theorem short_of_tokens (htokens : tokenize text = .ok tokens) (h : (ofTokens tokens).1 = .ok all)
    (hshort : Token.AllShort tokens) : ∀ s ∈ all, ∀ e ∈ s.exprs, e.Short := by
  intro s hs e he n hn
  obtain ⟨t, ht, hkind, rfl, hnumber⟩ := numbers_of_tokens htokens h s hs e he n hn
  exact Literal.short_of_digitCount hnumber (hshort t ht hkind)

/-- **The statements of a text without long numbers have a canonical form.** -/
theorem canonical_of_tokens (htokens : tokenize text = .ok tokens)
    (h : (ofTokens tokens).1 = .ok all) (hshort : Token.AllShort tokens) :
    (toTree all).canonical = .ok (form all) :=
  (settles_form (legible_of_tokens htokens h)).ok (short_of_tokens htokens h hshort)

end Script
end QueryPipeline
