import QueryPipeline.Proofs.Descriptor.Contained
import QueryPipeline.Proofs.Value.Made

/-!
# Queries that are no canonical maps

A query may be given as any JSON value, and whatever is wrong with it is a problem that is reported,
with one exception.  The operator of a comparison is looked up among the comparators, and a list or
an object cannot be looked up.  A leaf with such an operator (`Unlookable`) has an error of its own,
which is no problem; and a query with such a leaf never has a descriptor.
-/

namespace QueryPipeline

/-! ## Operators that cannot be looked up -/

namespace Filter

/-- An operation whose operator is a list or an object. -/
def Unlookable (node : Value) : Prop :=
  node.field "type" = .str "binary_op" ∧
    ((∃ items, node.field "operator" = .arr items) ∨ ∃ fields, node.field "operator" = .obj fields)

/-- The leaves of the filter of a JSON value are JSON values. -/
theorem json_leaves {filter : Filter} : ∀ {v : Value}, v.IsJson → ofJson v = filter →
    ∀ node ∈ filter.leaves, node.IsJson := by
  induction filter with
  | missing =>
    intro v _ _ node hnode
    cases hnode
  | leaf node =>
    intro v hv hfilter
    obtain ⟨rfl, _⟩ := ofJson_eq_leaf hfilter
    exact List.forall_mem_singleton.2 hv
  | junction c left right ihleft ihright =>
    intro v hv hfilter
    obtain ⟨_, hleft, hright⟩ := ofJson_eq_junction hfilter
    exact List.forall_mem_append.2
      ⟨ihleft (hv.field "left") hleft, ihright (hv.field "right") hright⟩

end Filter

/-- Among JSON values, only lists and objects cannot be looked up. -/
theorem Value.IsJson.of_unhashable {v : Value} (h : v.IsJson) {name : String}
    (hname : v.unhashable? = some name) :
    ((∃ items, v = .arr items) ∨ ∃ fields, v = .obj fields) ∧ name = v.typeName := by
  cases h with
  | scalar h => rcases h with ⟨⟨⟩⟩ | _ <;> cases hname
  | arr _ =>
    cases hname
    exact ⟨.inl ⟨_, rfl⟩, rfl⟩
  | obj _ _ =>
    cases hname
    exact ⟨.inr ⟨_, rfl⟩, rfl⟩

/-- A problem, or the operator of one of some leaves, which cannot be looked up. -/
def PipelineError.AmongLeaves (leaves : List Value) (e : PipelineError) : Prop :=
  (∃ p, e = .problem p) ∨
    ∃ node ∈ leaves, Filter.Unlookable node ∧ e = .unhashable (node.field "operator").typeName

namespace Condition

theorem operatorThrows_amongLeaves {leaves : List Value} {node : Value} (hnode : node ∈ leaves)
    (hjson : node.IsJson) : OperatorThrows (PipelineError.AmongLeaves leaves) node := by
  intro htype
  unfold comparator?
  split
  next name hname =>
    obtain ⟨hkind, rfl⟩ := (hjson.field "operator").of_unhashable hname
    exact .error (.inr ⟨node, hnode, ⟨htype, hkind⟩, rfl⟩)
  · exact .ok _
  · exact .ok _

/-- The parts of a filter are made from all its leaves. -/
theorem ofLeaf_of_parts {filter : Filter} : ∀ {c : Connective} {cs : List Condition},
    parts c filter = .ok cs → ∀ node ∈ filter.leaves, ∃ d, ofLeaf node = .ok d := by
  induction filter with
  | missing =>
    intro c cs h
    cases h
  | leaf node =>
    intro c cs h
    obtain ⟨d, hd, _⟩ := parts_leaf h
    exact List.forall_mem_singleton.2 ⟨d, hd⟩
  | junction d left right ihleft ihright =>
    intro c cs h
    obtain ⟨first, second, hfirst, hsecond, _⟩ := parts_junction h
    exact List.forall_mem_append.2 ⟨ihleft hfirst, ihright hsecond⟩

theorem not_ofLeaf_of_unlookable {node : Value} (h : Filter.Unlookable node) (d : Condition) :
    ofLeaf node ≠ .ok d := by
  intro hleaf
  obtain ⟨htype, hkind⟩ := h
  obtain ⟨hother, _⟩ | ⟨_, operator, hfound, _⟩ := ofLeaf_eq_ok hleaf
  · rw [htype] at hother
    exact absurd (Value.str.inj hother) (by decide)
  · obtain ⟨items, hitems⟩ | ⟨fields, hfields⟩ := hkind
    · rw [hitems] at hfound
      cases hfound
    · rw [hfields] at hfound
      cases hfound

theorem not_unlookable_of_ofFilter {filter : Filter} {cs : List Condition}
    (h : ofFilter filter = .ok cs) {node : Value} (hnode : node ∈ filter.leaves) :
    ¬ Filter.Unlookable node := by
  intro hunlookable
  obtain ⟨rfl, _⟩ | hparts := ofFilter_eq_ok h
  · cases hnode
  · obtain ⟨d, hd⟩ := ofLeaf_of_parts hparts node hnode
    exact not_ofLeaf_of_unlookable hunlookable d hd

end Condition

/-! ## Building -/

namespace Descriptor

/-- The map of a JSON value is the value itself or the single item of a list. -/
theorem mapOf_json {query : Value} (h : query.IsJson) :
    (∃ map, mapOf query = .ok map ∧ ∀ f ∈ map, f.2.IsJson) ∨
      ∃ p, mapOf query = .error (.problem p) := by
  cases h with
  | scalar h => rcases h with ⟨⟨⟩⟩ | _ <;> exact .inr ⟨_, rfl⟩
  | obj _ hfields => exact .inl ⟨_, rfl, hfields⟩
  | @arr items hitems =>
    match items with
    | [] => exact .inr ⟨_, rfl⟩
    | _ :: _ :: _ => exact .inr ⟨_, rfl⟩
    | [single] =>
      cases hitems single (List.mem_singleton.2 rfl) with
      | scalar h => rcases h with ⟨⟨⟩⟩ | _ <;> exact .inr ⟨_, rfl⟩
      | obj _ hfields => exact .inl ⟨_, rfl, hfields⟩
      | arr _ => exact .inr ⟨_, rfl⟩

/-- The leaves of the filter of a query. -/
def leavesOf (map : List (String × Value)) : List Value :=
  (Filter.ofJson (Value.fieldOf "where" map)).leaves

theorem rejects_derive_json {map : List (String × Value)} (h : ∀ f ∈ map, f.2.IsJson)
    (config : List (String × Value)) :
    Rejects (PipelineError.AmongLeaves (leavesOf map)) (derive map config) := by
  have hproblem : ∀ p, PipelineError.AmongLeaves (leavesOf map) (.problem p) :=
    fun p => .inl ⟨p, rfl⟩
  have htable := (throws_tableOf_source map).problem fun p _ => hproblem p
  refine rejects_derive config (fun p _ => hproblem p) htable ?_
  intro found _ node hnode
  have hwhere : (Value.fieldOf "where" map).IsJson := .fieldOf (.whole .null) h "where"
  exact Condition.operatorThrows_amongLeaves hnode (Filter.json_leaves hwhere rfl node hnode)

theorem rejects_build_json {query : Value} (hquery : query.IsJson) (config : Value) :
    Rejects (fun e => (∃ p, e = .problem p) ∨
      ∃ map, mapOf query = .ok map ∧ ∃ node ∈ leavesOf map, Filter.Unlookable node ∧
        e = .unhashable (node.field "operator").typeName) (build query config) := by
  obtain ⟨map, hmap, hfields⟩ | ⟨p, herror⟩ := mapOf_json hquery
  · refine (rejects_attempt (hmap ▸ .ok map)).bind fun found _ _ hfound => ?_
    cases hmap.symm.trans (attempt_eq_ok hfound)
    refine (rejects_attemptPart (fun p _ => .inl ⟨p, rfl⟩) (throws_configOf config)).bind
      fun settings _ _ _ => ?_
    intro s e u herror
    obtain hproblem | hleaf := rejects_derive_json hfields settings s e u herror
    · exact .inl hproblem
    · exact .inr ⟨map, hmap, hleaf⟩
  · refine (rejects_attempt (herror ▸ .error (.inl ⟨p, rfl⟩))).bind fun found _ _ hfound => ?_
    cases herror.symm.trans (attempt_eq_ok hfound)

/-- **Malformed queries.**  A JSON value and a configuration have a descriptor or a problem, unless
the operator of a leaf cannot be looked up.  Then there is no descriptor, and the error may be about
the type of the operator. -/
theorem build_json_reported {query : Value} (hquery : query.IsJson) (config : Value)
    (notes : List Note) :
    ((∃ d taken, build query config notes = .ok d taken) ∨
      (∃ p taken, build query config notes = .error (.problem p) taken) ∨
      ∃ map, mapOf query = .ok map ∧ ∃ node ∈ leavesOf map, Filter.Unlookable node ∧
        ∃ taken, build query config notes =
          .error (.unhashable (node.field "operator").typeName) taken) ∧
    ∀ map, mapOf query = .ok map → ∀ node ∈ leavesOf map, Filter.Unlookable node →
      ∀ d taken, build query config notes ≠ .ok d taken := by
  constructor
  · cases hbuild : build query config notes with
    | ok d taken => exact .inl ⟨d, taken, rfl⟩
    | error e taken =>
      right
      obtain ⟨p, rfl⟩ | ⟨map, hmap, node, hnode, hunlookable, rfl⟩ :=
        rejects_build_json hquery config notes e taken hbuild
      · exact .inl ⟨p, taken, rfl⟩
      · exact .inr ⟨map, hmap, node, hnode, hunlookable, taken, rfl⟩
  · intro map hmap node hnode hunlookable d taken hbuild
    obtain ⟨map', settings, hmap', _, hderived⟩ := build_eq_ok hbuild
    cases hmap.symm.trans hmap'
    exact Condition.not_unlookable_of_ofFilter hderived.conditions hnode hunlookable

/-! ## A list in the place of an operator -/

/-- The rows of a table in which a column compares to one, with the operator to be given. -/
def comparing (operator : Value) : Value :=
  .obj [("type", .str "select"), ("columns", .arr [.obj [("type", .str "all")]]),
    ("from", .obj [("table", .str "t")]),
    ("where", .obj [("type", .str "binary_op"), ("operator", operator),
      ("left", .obj [("type", .str "column"), ("name", .str "a")]),
      ("right", .obj [("type", .str "number"), ("value", .int 1)])])]

theorem json_comparing {operator : Value} (h : operator.IsJson) : (comparing operator).IsJson := by
  have hstr : ∀ s, (Value.str s).IsJson := fun s => .scalar (.whole (.str s))
  have hint : (Value.int 1).IsJson := .scalar (.whole (.int (by decide)))
  have htable : (Value.obj [("table", .str "t")]).IsJson := .obj (by simp) (by simp [hstr])
  have hall : (Value.obj [("type", .str "all")]).IsJson := .obj (by simp) (by simp [hstr])
  have hcolumn : (Value.obj [("type", .str "column"), ("name", .str "a")]).IsJson :=
    .obj (by simp) (by simp [hstr])
  have hnumber : (Value.obj [("type", .str "number"), ("value", .int 1)]).IsJson :=
    .obj (by simp) (by simp [hstr, hint])
  have hwhere : (Value.obj [("type", .str "binary_op"), ("operator", operator),
      ("left", .obj [("type", .str "column"), ("name", .str "a")]),
      ("right", .obj [("type", .str "number"), ("value", .int 1)])]).IsJson :=
    .obj (by simp) (by simp [hstr, h, hcolumn, hnumber])
  exact .obj (by simp) (by simp [hstr, htable, hwhere, Value.MadeOf.arr, hall])

theorem json_equals : (Value.arr [.str "="]).IsJson :=
  .arr (List.forall_mem_singleton.2 (.scalar (.whole (.str "="))))

/-- A list in the place of an operator keeps a query from having a descriptor. -/
theorem build_json_reported_list :
    (comparing (.arr [.str "="])).IsJson ∧
      ∀ d taken, build (comparing (.arr [.str "="])) .null [] ≠ .ok d taken := by
  have hjson := json_comparing json_equals
  refine ⟨hjson, (build_json_reported hjson .null []).2 _ rfl _ (List.mem_singleton.2 rfl) ?_⟩
  exact ⟨rfl, .inl ⟨[.str "="], rfl⟩⟩

/-- The error is about the type of the operator and no problem of the query. -/
theorem build_list_unreported :
    (comparing (.arr [.str "="])).IsJson ∧
      ∃ taken, build (comparing (.arr [.str "="])) .null [] = .error (.unhashable "list") taken :=
  ⟨json_comparing json_equals, _, rfl⟩

end Descriptor
end QueryPipeline
