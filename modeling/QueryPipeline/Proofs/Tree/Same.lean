import QueryPipeline.Proofs.Expr.Induction
import QueryPipeline.Proofs.Value.Same
import QueryPipeline.Tree.OfStatement

/-!
# Trees tell statements apart

Two scripts have equal trees only if they are equal (`Script.same_toTree_iff`).  So equality of
statements may be read as equality of their trees.
-/

namespace QueryPipeline

open Value

/-! ## Names -/

theorem BinaryOperator.symbol_injective {a b : BinaryOperator} (h : a.symbol = b.symbol) :
    a = b := by
  revert h
  cases a <;> cases b <;> simp [symbol]

theorem UnaryOperator.symbol_injective {a b : UnaryOperator} (h : a.symbol = b.symbol) :
    a = b := by
  revert h
  cases a <;> cases b <;> simp [symbol]

theorem JoinKind.name_injective {a b : JoinKind} (h : a.name = b.name) : a = b := by
  revert h
  cases a <;> cases b <;> simp [name]

theorem Direction.name_injective {a b : Direction} (h : a.name = b.name) : a = b := by
  revert h
  cases a <;> cases b <;> simp [name]

/-! ## Expressions -/

namespace Expr

def branchTree (b : Expr × Expr) : Value :=
  .node .whenThen [toTree b.1, toTree b.2]

theorem toTrees_eq_map (es : List Expr) : toTrees es = es.map toTree := by
  induction es with
  | nil => rfl
  | cons e rest ih => rw [toTrees, ih, List.map_cons]

theorem branchTrees_eq_map (bs : List (Expr × Expr)) : branchTrees bs = bs.map branchTree := by
  induction bs with
  | nil => rfl
  | cons b rest ih => rw [branchTrees, ih, List.map_cons, branchTree]

theorem optionTree_eq_elim (o : Option Expr) : optionTree o = o.elim .null toTree := by
  cases o <;> rfl

theorem toTree_ne_null (e : Expr) : e.toTree ≠ .null := by
  cases e with
  | column ref => exact Value.noConfusion
  | literal value => cases value <;> exact Value.noConfusion
  | binary | unary | call | membership | caseOf => exact Value.noConfusion

end Expr

theorem Value.same_node {s t : Shape} {as bs : List Value}
    (h : (Value.node s as).same (.node t bs) = true) : s = t ∧ sameItems as bs = true := by
  rwa [same, Bool.and_eq_true, beq_iff_eq] at h

theorem Value.sameItems_cons {a b : Value} {as bs : List Value}
    (h : sameItems (a :: as) (b :: bs) = true) : a.same b = true ∧ sameItems as bs = true := by
  rwa [sameItems, Bool.and_eq_true] at h

theorem ColumnRef.eq_of_same_toTree {a b : ColumnRef} (h : a.toTree.same b.toTree = true) :
    a = b := by
  obtain ⟨_, h⟩ := same_node h
  obtain ⟨hname, h⟩ := sameItems_cons h
  obtain ⟨htable, h⟩ := sameItems_cons h
  obtain ⟨halias, _⟩ := sameItems_cons h
  obtain ⟨name, table, aliasName⟩ := a
  obtain ⟨name', table', aliasName'⟩ := b
  cases eq_of_same_str hname
  cases eq_of_same_optional htable
  cases eq_of_same_optional halias
  rfl

theorem Literal.eq_of_same_toTree {a b : Literal} (h : a.toTree.same b.toTree = true) : a = b := by
  cases a with
  | number x =>
    cases b with
    | number y =>
      obtain ⟨hvalue, _⟩ := sameItems_cons (same_node h).2
      rw [eq_of_same_str hvalue]
    | string | null => simp [toTree, same, sameItems, sameScalar] at h
  | string x =>
    cases b with
    | string y =>
      obtain ⟨hvalue, _⟩ := sameItems_cons (same_node h).2
      rw [eq_of_same_str hvalue]
    | number | null => simp [toTree, same, sameItems, sameScalar] at h
  | null =>
    cases b with
    | null => rfl
    | number | string => simp [toTree, same, sameItems, sameScalar] at h

namespace Expr

theorem eq_of_same_toTrees {as bs : List Expr}
    (h : ∀ a ∈ as, ∀ b ∈ bs, a.toTree.same b.toTree = true → a = b)
    (hsame : (Value.tuple (toTrees as)).same (.tuple (toTrees bs)) = true) : as = bs := by
  rw [toTrees_eq_map, toTrees_eq_map] at hsame
  exact eq_of_sameItems h hsame

theorem eq_of_same_optionTree {o p : Option Expr}
    (h : ∀ a ∈ o, ∀ b ∈ p, a.toTree.same b.toTree = true → a = b)
    (hsame : (optionTree o).same (optionTree p) = true) : o = p := by
  rw [optionTree_eq_elim, optionTree_eq_elim] at hsame
  exact eq_of_same_elim toTree_ne_null h hsame

theorem eq_of_same_branchTrees {as bs : List (Expr × Expr)}
    (h : ∀ a ∈ as, ∀ b ∈ bs, (a.1.toTree.same b.1.toTree = true → a.1 = b.1) ∧
      (a.2.toTree.same b.2.toTree = true → a.2 = b.2))
    (hsame : (Value.tuple (branchTrees as)).same (.tuple (branchTrees bs)) = true) : as = bs := by
  rw [branchTrees_eq_map, branchTrees_eq_map] at hsame
  refine eq_of_sameItems (fun a ha b hb hbranch => ?_) hsame
  obtain ⟨hcondition, hresult⟩ := h a ha b hb
  obtain ⟨hsameCondition, hbranch⟩ := sameItems_cons (same_node hbranch).2
  obtain ⟨hsameResult, _⟩ := sameItems_cons hbranch
  exact Prod.ext (hcondition hsameCondition) (hresult hsameResult)

/-- **Expressions with equal trees are equal.** -/
theorem eq_of_same_toTree {a : Expr} : ∀ {b : Expr}, a.toTree.same b.toTree = true → a = b := by
  induction a using Expr.inductionOn with
  | column ref =>
    intro b h
    cases b with
    | column ref' => rw [ColumnRef.eq_of_same_toTree h]
    | literal value => cases value <;> cases h
    | binary | unary | call | membership | caseOf => cases h
  | literal value =>
    intro b h
    cases b with
    | literal value' => rw [Literal.eq_of_same_toTree h]
    | column | binary | unary | call | membership | caseOf => cases value <;> cases h
  | binary left operator right hleft hright =>
    intro b h
    cases b with
    | binary left' operator' right' =>
      obtain ⟨hl, h⟩ := sameItems_cons (same_node h).2
      obtain ⟨ho, h⟩ := sameItems_cons h
      obtain ⟨hr, _⟩ := sameItems_cons h
      rw [hleft hl, BinaryOperator.symbol_injective (eq_of_same_str ho), hright hr]
    | literal value => cases value <;> cases h
    | column | unary | call | membership | caseOf => cases h
  | unary operator operand hoperand =>
    intro b h
    cases b with
    | unary operator' operand' =>
      obtain ⟨ho, h⟩ := sameItems_cons (same_node h).2
      obtain ⟨he, _⟩ := sameItems_cons h
      rw [hoperand he, UnaryOperator.symbol_injective (eq_of_same_str ho)]
    | literal value => cases value <;> cases h
    | column | binary | call | membership | caseOf => cases h
  | call name arguments distinct aliasName harguments =>
    intro b h
    cases b with
    | call name' arguments' distinct' aliasName' =>
      obtain ⟨hname, h⟩ := sameItems_cons (same_node h).2
      obtain ⟨hall, h⟩ := sameItems_cons h
      obtain ⟨hdistinct, h⟩ := sameItems_cons h
      obtain ⟨halias, _⟩ := sameItems_cons h
      rw [eq_of_same_str hname, eq_of_same_toTrees (fun a ha _ _ => harguments a ha) hall,
        eq_of_same_bool hdistinct, eq_of_same_optional halias]
    | literal value => cases value <;> cases h
    | column | binary | unary | membership | caseOf => cases h
  | membership subject values negated hsubject hvalues =>
    intro b h
    cases b with
    | membership subject' values' negated' =>
      obtain ⟨hs, h⟩ := sameItems_cons (same_node h).2
      obtain ⟨hall, h⟩ := sameItems_cons h
      obtain ⟨hnegated, _⟩ := sameItems_cons h
      rw [hsubject hs, eq_of_same_toTrees (fun a ha _ _ => hvalues a ha) hall,
        eq_of_same_bool hnegated]
    | literal value => cases value <;> cases h
    | column | binary | unary | call | caseOf => cases h
  | caseOf operand whens otherwise hoperand hwhens hotherwise =>
    intro b h
    cases b with
    | caseOf operand' whens' otherwise' =>
      obtain ⟨hfirst, h⟩ := sameItems_cons (same_node h).2
      obtain ⟨hall, h⟩ := sameItems_cons h
      obtain ⟨hlast, _⟩ := sameItems_cons h
      rw [eq_of_same_optionTree (fun a ha _ _ => hoperand a ha) hfirst,
        eq_of_same_branchTrees (fun a ha _ _ => ⟨(hwhens a ha).1, (hwhens a ha).2⟩) hall,
        eq_of_same_optionTree (fun a ha _ _ => hotherwise a ha) hlast]
    | literal value => cases value <;> cases h
    | column | binary | unary | call | membership => cases h

end Expr

/-! ## Statements -/

theorem Expr.eq_of_same_list {as bs : List Expr}
    (h : (Value.tuple (toTrees as)).same (.tuple (toTrees bs)) = true) : as = bs :=
  eq_of_same_toTrees (fun _ _ _ _ => eq_of_same_toTree) h

theorem Expr.eq_of_same_option {o p : Option Expr}
    (h : (optionTree o).same (optionTree p) = true) : o = p :=
  eq_of_same_optionTree (fun _ _ _ _ => eq_of_same_toTree) h

theorem TableRef.eq_of_same_toTree {a b : TableRef} (h : a.toTree.same b.toTree = true) :
    a = b := by
  obtain ⟨hname, h⟩ := sameItems_cons (same_node h).2
  obtain ⟨hschema, h⟩ := sameItems_cons h
  obtain ⟨halias, _⟩ := sameItems_cons h
  obtain ⟨name, schema, aliasName⟩ := a
  obtain ⟨name', schema', aliasName'⟩ := b
  cases eq_of_same_str hname
  cases eq_of_same_optional hschema
  cases eq_of_same_optional halias
  rfl

theorem Join.eq_of_same_toTree {a b : Join} (h : a.toTree.same b.toTree = true) : a = b := by
  obtain ⟨hkind, h⟩ := sameItems_cons (same_node h).2
  obtain ⟨htable, h⟩ := sameItems_cons h
  obtain ⟨hcondition, _⟩ := sameItems_cons h
  obtain ⟨kind, table, condition⟩ := a
  obtain ⟨kind', table', condition'⟩ := b
  cases JoinKind.name_injective (eq_of_same_str hkind)
  cases TableRef.eq_of_same_toTree htable
  cases Expr.eq_of_same_option hcondition
  rfl

theorem SortKey.eq_of_same_toTree {a b : SortKey} (h : a.toTree.same b.toTree = true) :
    a = b := by
  obtain ⟨hexpression, h⟩ := sameItems_cons (same_node h).2
  obtain ⟨hdirection, _⟩ := sameItems_cons h
  obtain ⟨expression, direction⟩ := a
  obtain ⟨expression', direction'⟩ := b
  cases Expr.eq_of_same_toTree hexpression
  cases Direction.name_injective (eq_of_same_str hdirection)
  rfl

theorem SortKey.eq_of_same_list {as bs : List SortKey}
    (h : (Value.tuple (as.map toTree)).same (.tuple (bs.map toTree)) = true) : as = bs :=
  eq_of_sameItems (fun _ _ _ _ => eq_of_same_toTree) h

theorem Assignment.eq_of_same_toTree {a b : Assignment} (h : a.toTree.same b.toTree = true) :
    a = b := by
  obtain ⟨hcolumn, h⟩ := sameItems_cons (same_node h).2
  obtain ⟨hvalue, _⟩ := sameItems_cons h
  obtain ⟨column, value⟩ := a
  obtain ⟨column', value'⟩ := b
  cases ColumnRef.eq_of_same_toTree hcolumn
  cases Expr.eq_of_same_toTree hvalue
  rfl

theorem Value.eq_of_same_optionalInt {o p : Option Int}
    (h : (optionalInt o).same (optionalInt p) = true) : o = p := by
  cases o with
  | none =>
    cases p with
    | none => rfl
    | some j => cases h
  | some i =>
    cases p with
    | none => cases h
    | some j => rw [eq_of_same_int h]

theorem Select.eq_of_same_toTree {a b : Select} (h : a.toTree.same b.toTree = true) : a = b := by
  obtain ⟨hcolumns, h⟩ := sameItems_cons (same_node h).2
  obtain ⟨hsource, h⟩ := sameItems_cons h
  obtain ⟨hcondition, h⟩ := sameItems_cons h
  obtain ⟨hjoins, h⟩ := sameItems_cons h
  obtain ⟨hgrouping, h⟩ := sameItems_cons h
  obtain ⟨hhaving, h⟩ := sameItems_cons h
  obtain ⟨hsortKeys, h⟩ := sameItems_cons h
  obtain ⟨hlimit, h⟩ := sameItems_cons h
  obtain ⟨hoffset, h⟩ := sameItems_cons h
  obtain ⟨hdistinct, _⟩ := sameItems_cons h
  obtain ⟨columns, source, condition, joins, grouping, having, sortKeys, limit, offset,
    distinct⟩ := a
  obtain ⟨columns', source', condition', joins', grouping', having', sortKeys', limit', offset',
    distinct'⟩ := b
  cases Expr.eq_of_same_list hcolumns
  cases eq_of_same_elim (fun _ => Value.noConfusion) (fun _ _ _ _ => TableRef.eq_of_same_toTree)
    hsource
  cases Expr.eq_of_same_option hcondition
  cases eq_of_sameItems (fun _ _ _ _ => Join.eq_of_same_toTree) hjoins
  cases eq_of_same_elim (f := fun es => .node .grouping [.tuple (Expr.toTrees es)])
    (fun _ => Value.noConfusion)
    (fun _ _ _ _ h => Expr.eq_of_same_list (sameItems_cons (same_node h).2).1) hgrouping
  cases Expr.eq_of_same_option hhaving
  cases eq_of_same_elim (f := fun keys : List SortKey => .tuple (keys.map SortKey.toTree))
    (fun _ => Value.noConfusion) (fun _ _ _ _ => SortKey.eq_of_same_list) hsortKeys
  cases eq_of_same_optionalInt hlimit
  cases eq_of_same_optionalInt hoffset
  cases eq_of_same_bool hdistinct
  rfl

theorem Insert.eq_of_same_toTree {a b : Insert} (h : a.toTree.same b.toTree = true) : a = b := by
  obtain ⟨htable, h⟩ := sameItems_cons (same_node h).2
  obtain ⟨hcolumns, h⟩ := sameItems_cons h
  obtain ⟨hrows, _⟩ := sameItems_cons h
  obtain ⟨table, columns, rows⟩ := a
  obtain ⟨table', columns', rows'⟩ := b
  cases TableRef.eq_of_same_toTree htable
  cases eq_of_sameItems (fun _ _ _ _ => eq_of_same_str) hcolumns
  cases eq_of_sameItems (fun _ _ _ _ => Expr.eq_of_same_list) hrows
  rfl

theorem Update.eq_of_same_toTree {a b : Update} (h : a.toTree.same b.toTree = true) : a = b := by
  obtain ⟨htable, h⟩ := sameItems_cons (same_node h).2
  obtain ⟨hassignments, h⟩ := sameItems_cons h
  obtain ⟨hcondition, _⟩ := sameItems_cons h
  obtain ⟨table, assignments, condition⟩ := a
  obtain ⟨table', assignments', condition'⟩ := b
  cases TableRef.eq_of_same_toTree htable
  cases eq_of_sameItems (fun _ _ _ _ => Assignment.eq_of_same_toTree) hassignments
  cases Expr.eq_of_same_option hcondition
  rfl

theorem Delete.eq_of_same_toTree {a b : Delete} (h : a.toTree.same b.toTree = true) : a = b := by
  obtain ⟨htable, h⟩ := sameItems_cons (same_node h).2
  obtain ⟨hcondition, _⟩ := sameItems_cons h
  obtain ⟨table, condition⟩ := a
  obtain ⟨table', condition'⟩ := b
  cases TableRef.eq_of_same_toTree htable
  cases Expr.eq_of_same_option hcondition
  rfl

theorem Statement.eq_of_same_toTree {a b : Statement} (h : a.toTree.same b.toTree = true) :
    a = b := by
  cases a with
  | select a =>
    cases b with
    | select b => rw [Select.eq_of_same_toTree h]
    | insert | update | delete => cases h
  | insert a =>
    cases b with
    | insert b => rw [Insert.eq_of_same_toTree h]
    | select | update | delete => cases h
  | update a =>
    cases b with
    | update b => rw [Update.eq_of_same_toTree h]
    | select | insert | delete => cases h
  | delete a =>
    cases b with
    | delete b => rw [Delete.eq_of_same_toTree h]
    | select | insert | update => cases h

/-! ## A tree is equal to itself -/

theorem ColumnRef.plain_toTree (c : ColumnRef) : c.toTree.Plain :=
  .node (by simp [Plain.str, plain_optional])

theorem Expr.plain_toTree (e : Expr) : e.toTree.Plain := by
  induction e using Expr.inductionOn with
  | column ref => exact ref.plain_toTree
  | literal value => cases value <;> exact .node (by simp [Plain.str, Plain.null])
  | binary left operator right hleft hright => exact .node (by simp [Plain.str, hleft, hright])
  | unary operator operand hoperand => exact .node (by simp [Plain.str, hoperand])
  | call name arguments distinct aliasName harguments =>
    have hall : (Value.tuple (toTrees arguments)).Plain := by
      rw [toTrees_eq_map]
      exact .tuple (List.forall_mem_map.mpr harguments)
    exact .node (by simp [Plain.str, Plain.bool, plain_optional, hall])
  | membership subject values negated hsubject hvalues =>
    have hall : (Value.tuple (toTrees values)).Plain := by
      rw [toTrees_eq_map]
      exact .tuple (List.forall_mem_map.mpr hvalues)
    exact .node (by simp [Plain.bool, hsubject, hall])
  | caseOf operand whens otherwise hoperand hwhens hotherwise =>
    have hall : (Value.tuple (branchTrees whens)).Plain := by
      rw [branchTrees_eq_map]
      refine .tuple (List.forall_mem_map.mpr fun b hb => ?_)
      exact .node (by simp [hwhens b hb])
    rw [toTree, optionTree_eq_elim, optionTree_eq_elim]
    exact .node (by simp [hall, Plain.elim hoperand, Plain.elim hotherwise])

theorem Expr.plain_toTrees (es : List Expr) : (Value.tuple (toTrees es)).Plain := by
  rw [toTrees_eq_map]
  exact .tuple (List.forall_mem_map.mpr fun e _ => e.plain_toTree)

theorem Expr.plain_optionTree (o : Option Expr) : (optionTree o).Plain := by
  rw [optionTree_eq_elim]
  exact .elim fun e _ => e.plain_toTree

theorem TableRef.plain_toTree (t : TableRef) : t.toTree.Plain :=
  .node (by simp [Plain.str, plain_optional])

theorem Join.plain_toTree (j : Join) : j.toTree.Plain :=
  .node (by simp [Plain.str, TableRef.plain_toTree, Expr.plain_optionTree])

theorem SortKey.plain_toTree (k : SortKey) : k.toTree.Plain :=
  .node (by simp [Plain.str, Expr.plain_toTree])

theorem Assignment.plain_toTree (a : Assignment) : a.toTree.Plain :=
  .node (by simp [ColumnRef.plain_toTree, Expr.plain_toTree])

theorem Value.plain_optionalInt (o : Option Int) : (optionalInt o).Plain := by
  cases o with
  | none => exact .null
  | some i => exact .int

theorem Select.plain_toTree (s : Select) : s.toTree.Plain := by
  have hsource : (s.source.elim .null TableRef.toTree).Plain := .elim fun t _ => t.plain_toTree
  have hjoins : (Value.tuple (s.joins.map Join.toTree)).Plain :=
    .tuple (List.forall_mem_map.mpr fun j _ => j.plain_toTree)
  have hgrouping : Plain (s.grouping.elim .null fun es =>
      .node .grouping [.tuple (Expr.toTrees es)]) :=
    .elim fun es _ => .node (by simp [Expr.plain_toTrees])
  have hkeys : Plain (s.sortKeys.elim .null fun keys => .tuple (keys.map SortKey.toTree)) :=
    .elim fun keys _ => .tuple (List.forall_mem_map.mpr fun k _ => k.plain_toTree)
  exact .node (by simp [Plain.bool, Expr.plain_toTrees, Expr.plain_optionTree, plain_optionalInt,
    hsource, hjoins, hgrouping, hkeys])

theorem Insert.plain_toTree (s : Insert) : s.toTree.Plain := by
  have hcolumns : (Value.tuple (s.columns.map .str)).Plain :=
    .tuple (List.forall_mem_map.mpr fun _ _ => .str)
  have hrows : (Value.tuple (s.rows.map fun row => .tuple (Expr.toTrees row))).Plain :=
    .tuple (List.forall_mem_map.mpr fun row _ => Expr.plain_toTrees row)
  exact .node (by simp [TableRef.plain_toTree, hcolumns, hrows])

theorem Update.plain_toTree (s : Update) : s.toTree.Plain := by
  have hassignments : (Value.tuple (s.assignments.map Assignment.toTree)).Plain :=
    .tuple (List.forall_mem_map.mpr fun a _ => a.plain_toTree)
  exact .node (by simp [TableRef.plain_toTree, Expr.plain_optionTree, hassignments])

theorem Delete.plain_toTree (s : Delete) : s.toTree.Plain :=
  .node (by simp [TableRef.plain_toTree, Expr.plain_optionTree])

theorem Statement.plain_toTree (s : Statement) : s.toTree.Plain := by
  cases s with
  | select s => exact s.plain_toTree
  | insert s => exact s.plain_toTree
  | update s => exact s.plain_toTree
  | delete s => exact s.plain_toTree

/-! ## Scripts -/

namespace Script

/-- A single statement stands for itself, and several for a list. -/
def collected (f : Statement → Value) : List Statement → Value
  | [s] => f s
  | all => .arr (all.map f)

theorem toTree_eq_collected (all : List Statement) :
    toTree all = collected Statement.toTree all := by
  match all with
  | [] => rfl
  | [_] => rfl
  | _ :: _ :: _ => rfl

theorem plain_collected {f : Statement → Value} (h : ∀ s, (f s).Plain) (all : List Statement) :
    (collected f all).Plain := by
  have hlist : (Value.arr (all.map f)).Plain := .map fun s _ => h s
  match all with
  | [] => exact hlist
  | [s] => exact h s
  | _ :: _ :: _ => exact hlist

/-- What can be told from single statements can be told from scripts, if no single statement looks
like a list. -/
theorem map_eq_of_same_collected {β : Type} {f : Statement → Value} {g : Statement → β}
    (hlist : ∀ s items, (f s).same (.arr items) = false ∧ (Value.arr items).same (f s) = false)
    {as bs : List Statement} (h : ∀ a ∈ as, ∀ b ∈ bs, (f a).same (f b) = true → g a = g b)
    (hsame : (collected f as).same (collected f bs) = true) : as.map g = bs.map g := by
  match as, bs with
  | [a], [b] => rw [List.map_singleton, List.map_singleton, h a (by simp) b (by simp) hsame]
  | [a], [] => exact absurd hsame (by simp [collected, hlist])
  | [a], _ :: _ :: _ => exact absurd hsame (by simp [collected, hlist])
  | [], [b] => exact absurd hsame (by simp [collected, hlist])
  | _ :: _ :: _, [b] => exact absurd hsame (by simp [collected, hlist])
  | [], [] => rfl
  | [], _ :: _ :: _ => exact map_eq_of_sameItems h hsame
  | _ :: _ :: _, [] => exact map_eq_of_sameItems h hsame
  | _ :: _ :: _, _ :: _ :: _ => exact map_eq_of_sameItems h hsame

/-- **Scripts have equal trees only if they are equal.** -/
theorem same_toTree_iff {as bs : List Statement} :
    (toTree as).same (toTree bs) = true ↔ as = bs := by
  rw [toTree_eq_collected, toTree_eq_collected]
  constructor
  · intro h
    have hmap := map_eq_of_same_collected (g := id) (fun s _ => by cases s <;> exact ⟨rfl, rfl⟩)
      (fun _ _ _ _ => Statement.eq_of_same_toTree) h
    simpa using hmap
  · rintro rfl
    exact (plain_collected Statement.plain_toTree as).same_self

end Script
end QueryPipeline
