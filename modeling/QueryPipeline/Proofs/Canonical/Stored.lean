import QueryPipeline.Proofs.Canonical.Faithful
import QueryPipeline.Proofs.Condition.Extract
import QueryPipeline.Proofs.Value.Made

/-!
# Canonical forms can be stored

What a tree has to be like for its canonical form to be JSON is said by the roles of its fields
(`Storable`): a part of the tree is storable itself, a field that is kept is a scalar, and names are
texts.  The trees of statements are like that, if the bounds of the rows are short.
-/

namespace QueryPipeline

namespace Value

/-! ## Objects -/

theorem stored_str (s : String) : (Value.str s).IsStored :=
  .scalar (.str s)

theorem stored_null : Value.null.IsStored :=
  .scalar .null

theorem stored_bool (b : Bool) : (Value.bool b).IsStored :=
  .scalar (.bool b)

theorem stored_tagged {type : String} {fields : List (String × Value)}
    (hnodup : ("type" :: fields.map Prod.fst).Nodup) (h : ∀ f ∈ fields, f.2.IsStored) :
    (Canonical.tagged type fields).IsStored :=
  .obj hnodup (List.forall_mem_cons.2 ⟨stored_str type, h⟩)

theorem stored_withoutAbsent {fields : List (String × Value)}
    (hnodup : (fields.map Prod.fst).Nodup) (h : ∀ f ∈ fields, f.2.IsStored) :
    (Canonical.withoutAbsent fields).IsStored := by
  refine .obj (hnodup.sublist (List.filter_sublist.map _)) fun f hf => ?_
  exact h f (List.mem_of_mem_filter hf)

theorem stored_fieldAt {fields : List Value} (h : ∀ v ∈ fields, v.IsStored) (i : Nat) :
    (Tree.fieldAt fields i).IsStored := by
  rw [Tree.fieldAt, List.getD_eq_getElem?_getD]
  cases hfound : fields[i]? with
  | none => exact stored_null
  | some v => exact h v (List.mem_of_getElem? hfound)

/-! ## Nodes -/

theorem stored_number {text : String} {w : Value} (h : Canonical.number text = .ok w) :
    w.IsStored := by
  rw [Canonical.number] at h
  split at h
  · cases h
  next n hread =>
    cases h
    have hn : (Value.int n).IsStored := .scalar (.int (Integer.length_decimal_of_read hread))
    split
    · exact stored_tagged (by simp) (by simp [hn, stored_str])
    · exact stored_tagged (by simp) (by simp [hn])

theorem stored_literal {value kind w : Value} (hvalue : value.IsStored)
    (h : Canonical.literal value kind = .ok w) : w.IsStored := by
  unfold Canonical.literal at h
  split at h
  · split at h
    · exact stored_number h
    · cases h
  split at h
  · cases h
    exact stored_tagged (by simp) (by simp [hvalue])
  · cases h
    exact stored_tagged (by simp) (by simp [stored_null])

theorem stored_column {name table aliasName : Value} (hname : name.IsStored)
    (htable : table.IsStored) (halias : aliasName.IsStored) :
    (Canonical.column name table aliasName).IsStored := by
  rw [Canonical.column]
  split
  · exact stored_withoutAbsent (by simp) (by simp [stored_str, htable, halias])
  · exact stored_withoutAbsent (by simp) (by simp [stored_str, hname, htable, halias])

/-- The map of a node is made of the forms of its fields. -/
theorem stored_node {shape : Shape} {forms : List Value} {w : Value}
    (h : ∀ v ∈ forms, v.IsStored) (hnode : Canonical.node shape forms = .ok w) : w.IsStored := by
  have hfield := stored_fieldAt h
  cases shape with
  | select =>
    cases hnode
    refine stored_withoutAbsent ?_ ?_
    · split <;> simp
    · split <;> simp [hfield, stored_str, stored_bool]
  | insert =>
    cases hnode
    exact stored_tagged (by simp) (by simp [hfield])
  | update =>
    cases hnode
    exact stored_withoutAbsent (by simp) (by simp [hfield, stored_str])
  | delete =>
    cases hnode
    exact stored_withoutAbsent (by simp) (by simp [hfield, stored_str])
  | column =>
    cases hnode
    exact stored_column (hfield 0) (hfield 1) (hfield 2)
  | literal => exact stored_literal (hfield 0) hnode
  | binary =>
    cases hnode
    exact stored_tagged (by simp) (by simp [hfield])
  | unary =>
    cases hnode
    exact stored_tagged (by simp) (by simp [hfield])
  | call =>
    cases hnode
    refine stored_tagged ?_ ?_
    · split <;> simp
    · split <;> simp [hfield]
  | membership =>
    cases hnode
    exact stored_tagged (by simp) (by simp [hfield])
  | caseOf =>
    cases hnode
    exact stored_withoutAbsent (by simp) (by simp [hfield, stored_str])
  | whenThen =>
    cases hnode
    exact stored_tagged (by simp) (by simp [hfield])
  | table =>
    cases hnode
    exact stored_withoutAbsent (by simp) (by simp [hfield])
  | join =>
    cases hnode
    exact stored_withoutAbsent (by simp) (by simp [hfield, stored_str])
  | ordering =>
    cases hnode
    exact stored_tagged (by simp) (by simp [hfield])
  | grouping =>
    cases hnode
    exact stored_tagged (by simp) (by simp [hfield])
  | assignment =>
    cases hnode
    exact stored_tagged (by simp) (by simp [hfield])
  | bare | bareExpression | bareStatement =>
    cases hnode
    exact stored_tagged (by simp) (by simp [stored_str])

/-! ## Trees -/

mutual

/-- A tree whose canonical form, if it has one, can be stored. -/
def Storable : Value → Prop
  | .arr items => AllStorable items
  | .tuple items => AllStorable items
  | .node shape fields => FieldsStorable (Canonical.roles shape) fields
  | v => v.IsWhole

def AllStorable : List Value → Prop
  | [] => True
  | v :: rest => Storable v ∧ AllStorable rest

/-- The fields of a node by their roles. -/
def FieldsStorable : List Canonical.Role → List Value → Prop
  | role :: roles, v :: rest =>
    (match role with
      | .part => Storable v
      | .partOrEmpty => Storable v
      | .kept => v.IsWhole
      | .names => ∀ w, Canonical.namesIn v = .ok w → w.IsStored
      | .columnName => ∀ w, Canonical.nameOf v = .ok w → w.IsStored) ∧ FieldsStorable roles rest
  | _, _ => True

end

@[simp] theorem storable_node {shape : Shape} {fields : List Value} :
    Storable (.node shape fields) ↔ FieldsStorable (Canonical.roles shape) fields :=
  Iff.rfl

section Fields

variable {roles : List Canonical.Role} {v : Value} {vs : List Value}

@[simp] theorem fieldsStorable_nil : FieldsStorable [] [] :=
  trivial

@[simp] theorem fieldsStorable_part :
    FieldsStorable (.part :: roles) (v :: vs) ↔ Storable v ∧ FieldsStorable roles vs :=
  Iff.rfl

@[simp] theorem fieldsStorable_partOrEmpty :
    FieldsStorable (.partOrEmpty :: roles) (v :: vs) ↔ Storable v ∧ FieldsStorable roles vs :=
  Iff.rfl

@[simp] theorem fieldsStorable_kept :
    FieldsStorable (.kept :: roles) (v :: vs) ↔ v.IsWhole ∧ FieldsStorable roles vs :=
  Iff.rfl

end Fields

theorem allStorable_iff {items : List Value} :
    AllStorable items ↔ ∀ v ∈ items, Storable v := by
  induction items with
  | nil => simp [AllStorable]
  | cons v rest ih => rw [AllStorable, ih, List.forall_mem_cons]

mutual

theorem stored_canonical : ∀ (v : Value) {w : Value}, Storable v → v.canonical = .ok w →
    w.IsStored
  | .null, _, h, hw | .bool _, _, h, hw | .int _, _, h, hw | .real _, _, h, hw
  | .obj _, _, h, hw => by
    cases hw
    exact .scalar h
  | .str s, _, h, hw => by
    cases hw
    split
    · exact stored_tagged (by simp) (by simp)
    · exact .scalar h
  | .token t, _, h, _ => by cases h
  | .arr items, w, h, hw => by
    obtain ⟨forms, hforms, hw⟩ := bind_eq_ok.1 hw
    cases hw
    exact .arr (stored_canonicalItems items h hforms)
  | .tuple items, w, h, hw => by
    obtain ⟨forms, hforms, hw⟩ := bind_eq_ok.1 hw
    cases hw
    exact .arr (stored_canonicalItems items h hforms)
  | .node shape fields, w, h, hw => by
    obtain ⟨forms, hforms, hw⟩ := bind_eq_ok.1 hw
    exact stored_node (stored_canonicalFields _ fields h hforms) hw

theorem stored_canonicalItems : ∀ (items : List Value) {forms : List Value}, AllStorable items →
    canonicalItems items = .ok forms → ∀ w ∈ forms, w.IsStored
  | [], forms, _, hforms => by
    cases hforms
    exact List.forall_mem_nil _
  | v :: rest, forms, h, hforms => by
    obtain ⟨form, hform, hforms⟩ := bind_eq_ok.1 hforms
    obtain ⟨others, hothers, hforms⟩ := bind_eq_ok.1 hforms
    cases hforms
    exact List.forall_mem_cons.2
      ⟨stored_canonical v h.1 hform, stored_canonicalItems rest h.2 hothers⟩

theorem stored_canonicalFields : ∀ (roles : List Canonical.Role) (fields : List Value)
    {forms : List Value}, FieldsStorable roles fields →
    canonicalFields roles fields = .ok forms → ∀ w ∈ forms, w.IsStored
  | role :: roles, v :: rest, forms, h, hforms => by
    have hjoin : ∀ {form : Value}, form.IsStored →
        (do let others ← canonicalFields roles rest; pure (form :: others)) = .ok forms →
        ∀ w ∈ forms, w.IsStored := by
      intro form hform hforms
      obtain ⟨others, hothers, hforms⟩ := bind_eq_ok.1 hforms
      cases hforms
      exact List.forall_mem_cons.2 ⟨hform, stored_canonicalFields roles rest h.2 hothers⟩
    cases role with
    | part =>
      obtain ⟨form, hform, hforms⟩ := bind_eq_ok.1 hforms
      exact hjoin (stored_canonical v h.1 hform) hforms
    | partOrEmpty =>
      rw [canonicalFields] at hforms
      split at hforms
      · obtain ⟨form, hform, hforms⟩ := bind_eq_ok.1 hforms
        exact hjoin (stored_canonical v h.1 hform) hforms
      · exact hjoin (.arr (List.forall_mem_nil _)) hforms
    | kept => exact hjoin (.scalar h.1) hforms
    | names =>
      obtain ⟨form, hform, hforms⟩ := bind_eq_ok.1 hforms
      exact hjoin (h.1 form hform) hforms
    | columnName =>
      obtain ⟨form, hform, hforms⟩ := bind_eq_ok.1 hforms
      exact hjoin (h.1 form hform) hforms
  | [], [], _, _, hforms | [], _ :: _, _, _, hforms | _ :: _, [], _, _, hforms => by
    cases hforms
    exact List.forall_mem_nil _

end

@[simp] theorem isWhole_str (s : String) : (Value.str s).IsWhole :=
  .str s

@[simp] theorem isWhole_bool (b : Bool) : (Value.bool b).IsWhole :=
  .bool b

@[simp] theorem isWhole_null : Value.null.IsWhole :=
  .null

@[simp] theorem isWhole_optional (o : Option String) : (Value.optional o).IsWhole := by
  cases o with
  | none => exact .null
  | some s => exact .str s

theorem isWhole_optionalInt {o : Option Int} (h : ∀ i ∈ o, IsShort i) :
    (Value.optionalInt o).IsWhole := by
  cases o with
  | none => exact .null
  | some i => exact .int (h i rfl)

theorem storable_elim {α : Type} {o : Option α} {f : α → Value} (h : ∀ a ∈ o, Storable (f a)) :
    Storable (o.elim .null f) := by
  cases o with
  | none => exact IsWhole.null
  | some a => exact h a rfl

theorem storable_map {α : Type} {xs : List α} {f : α → Value} (h : ∀ x ∈ xs, Storable (f x)) :
    Storable (.tuple (xs.map f)) :=
  allStorable_iff.2 (List.forall_mem_map.2 h)

end Value

/-! ## Trees of statements -/

open Value

theorem ColumnRef.storable_toTree (c : ColumnRef) : Storable c.toTree := by
  simp [toTree, Canonical.roles]

theorem Expr.storable_toTree (e : Expr) : Storable e.toTree := by
  induction e using Expr.inductionOn with
  | column ref => exact ref.storable_toTree
  | literal value => cases value <;> simp [toTree, Literal.toTree, Canonical.roles]
  | binary left operator right hleft hright => simp [toTree, Canonical.roles, hleft, hright]
  | unary operator operand hoperand => simp [toTree, Canonical.roles, hoperand]
  | call name arguments distinct aliasName harguments =>
    simp [toTree, Canonical.roles, toTrees_eq_map, storable_map harguments]
  | membership subject values negated hsubject hvalues =>
    simp [toTree, Canonical.roles, toTrees_eq_map, hsubject, storable_map hvalues]
  | caseOf operand whens otherwise hoperand hwhens hotherwise =>
    have hall : Storable (.tuple (branchTrees whens)) := by
      rw [branchTrees_eq_map]
      refine storable_map fun b hb => ?_
      simpa [branchTree, Canonical.roles] using hwhens b hb
    simp [toTree, Canonical.roles, optionTree_eq_elim, hall, storable_elim hoperand,
      storable_elim hotherwise]

theorem Expr.storable_toTrees (es : List Expr) : Storable (.tuple (toTrees es)) := by
  rw [toTrees_eq_map]
  exact storable_map fun e _ => e.storable_toTree

theorem Expr.storable_optionTree (o : Option Expr) : Storable (optionTree o) := by
  rw [optionTree_eq_elim]
  exact storable_elim fun e _ => e.storable_toTree

theorem TableRef.storable_toTree (t : TableRef) : Storable t.toTree := by
  simp [toTree, Canonical.roles]

theorem Join.storable_toTree (j : Join) : Storable j.toTree := by
  simp [toTree, Canonical.roles, TableRef.storable_toTree, Expr.storable_optionTree]

theorem SortKey.storable_toTree (k : SortKey) : Storable k.toTree := by
  simp [toTree, Canonical.roles, Expr.storable_toTree]

theorem Assignment.storable_toTree (a : Assignment) : Storable a.toTree := by
  refine ⟨fun w hw => ?_, a.value.storable_toTree, trivial⟩
  cases hw
  exact stored_str a.column

theorem Select.storable_toTree {s : Select} (hlimit : ∀ n ∈ s.limit, IsShort n)
    (hoffset : ∀ n ∈ s.offset, IsShort n) : Storable s.toTree := by
  have hsource : Storable (s.source.elim .null TableRef.toTree) :=
    storable_elim fun t _ => t.storable_toTree
  have hjoins : Storable (.tuple (s.joins.map Join.toTree)) :=
    storable_map fun j _ => j.storable_toTree
  have hgrouping : Storable (s.grouping.elim .null fun es =>
      .node .grouping [.tuple (Expr.toTrees es)]) :=
    storable_elim fun es _ => by simp [Canonical.roles, Expr.storable_toTrees]
  have hkeys : Storable (s.sortKeys.elim .null fun keys => .tuple (keys.map SortKey.toTree)) :=
    storable_elim fun keys _ => storable_map fun k _ => k.storable_toTree
  simp [toTree, Canonical.roles, Expr.storable_toTrees, Expr.storable_optionTree, hsource, hjoins,
    hgrouping, hkeys, isWhole_optionalInt hlimit, isWhole_optionalInt hoffset]

theorem Insert.storable_toTree (s : Insert) : Storable s.toTree := by
  have hrows : Storable (.tuple (s.rows.map fun row => .tuple (Expr.toTrees row))) :=
    storable_map fun row _ => Expr.storable_toTrees row
  refine ⟨s.table.storable_toTree, fun w hw => ?_, hrows, trivial⟩
  cases hw
  exact .arr (List.forall_mem_map.2 fun name _ => stored_str name)

theorem Update.storable_toTree (s : Update) : Storable s.toTree := by
  have hassignments : Storable (.tuple (s.assignments.map Assignment.toTree)) :=
    storable_map fun a _ => a.storable_toTree
  simp [toTree, Canonical.roles, TableRef.storable_toTree, Expr.storable_optionTree, hassignments]

theorem Delete.storable_toTree (s : Delete) : Storable s.toTree := by
  simp [toTree, Canonical.roles, TableRef.storable_toTree, Expr.storable_optionTree]

/-! ## Statements of a text -/

theorem PrintableCount.isShort {n : Int} (h : PrintableCount n) : IsShort n :=
  Integer.length_decimal_of_read h.read

theorem Statement.Printable.storable_toTree {s : Statement} (h : s.Printable) :
    Storable s.toTree := by
  cases s with
  | select s =>
    exact Select.storable_toTree (fun n hn => (h.limit n hn).isShort)
      fun n hn => (h.offset n hn).isShort
  | insert s => exact s.storable_toTree
  | update s => exact s.storable_toTree
  | delete s => exact s.storable_toTree

namespace Script

variable {text : String} {all : List Statement} {c : Value}

theorem storable_toTree (h : ∀ s ∈ all, s.Printable) : Storable (toTree all) := by
  have hlist : Storable (.arr (all.map Statement.toTree)) :=
    allStorable_iff.2 (List.forall_mem_map.2 fun s hs => (h s hs).storable_toTree)
  match all with
  | [] => exact hlist
  | [s] => exact (h s (List.mem_singleton.2 rfl)).storable_toTree
  | _ :: _ :: _ => exact hlist

/-- The canonical form of the statements of a text can be stored. -/
theorem stored_of_parse (hparse : (parse text).1 = .ok all)
    (hc : (toTree all).canonical = .ok c) : c.IsStored :=
  stored_canonical _ (storable_toTree (printable_of_parse hparse).2) hc

theorem eq_form_of_parse (hparse : (parse text).1 = .ok all)
    (hc : (toTree all).canonical = .ok c) : c = form all := by
  obtain ⟨tokens, htokens, hall⟩ := tokens_of_parse hparse
  exact (settles_form (legible_of_tokens htokens hall)).eq_of_ok hc

/-- A canonical form stays as it is. -/
theorem canonical_form (all : List Statement) : (form all).canonical = .ok (form all) := by
  have hone : ∀ s : Statement, s.form.canonical = .ok s.form := by
    intro s
    cases s <;> rfl
  have hitems : ∀ all : List Statement,
      canonicalItems (all.map Statement.form) = .ok (all.map Statement.form) := by
    intro all
    induction all with
    | nil => rfl
    | cons s rest ih =>
      rw [List.map_cons, canonicalItems, hone, ih]
      rfl
  have hlist : (Value.arr (all.map Statement.form)).canonical =
      .ok (.arr (all.map Statement.form)) := by
    rw [canonical, hitems]
    rfl
  rcases all with _ | ⟨s, _ | ⟨t, rest⟩⟩
  · exact hlist
  · exact hone s
  · exact hlist

end Script
end QueryPipeline
