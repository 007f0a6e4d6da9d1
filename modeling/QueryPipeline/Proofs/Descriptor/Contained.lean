import QueryPipeline.Proofs.Condition.Operands
import QueryPipeline.Proofs.Rule.Contained

/-!
# How a build fails

A text and a configuration do not always make a pipeline.  When they do not, the error is one that
the library reports: the text cannot be cut into tokens, a token is not expected, or there is a
problem with the query or the configuration.  And its message is one line.

The rules of the grammar are treated in `Proofs/Rule/Contained`.  Behind them come the steps that
make a descriptor of the canonical map.  Their own errors are problems (`Throws`), which show values
by `inspect`.  Two errors are no problems, and a text brings about neither: a tree without a
canonical map, since the numbers are short, and an operator that cannot be looked up, since the
operator in the form of an expression is a text (`Symbolic`).
-/

namespace QueryPipeline

open Text

/-- The errors of a step all have a property. -/
def Throws {ε α : Type} (P : ε → Prop) (x : Except ε α) : Prop :=
  ∀ e, x = .error e → P e

namespace Throws

variable {ε α β : Type} {P : ε → Prop}

theorem ok (a : α) : Throws P (.ok a : Except ε α) := by
  intro e h
  cases h

theorem error {e : ε} (h : P e) : Throws P (.error e : Except ε α) := by
  rintro _ ⟨⟩
  exact h

theorem bind {x : Except ε α} {f : α → Except ε β} (hx : Throws P x) (hf : ∀ a, Throws P (f a)) :
    Throws P (x >>= f) := by
  cases x with
  | ok a => exact hf a
  | error e => exact error (hx e rfl)

end Throws

theorem Statement.shown_typeName (s : Statement) : Shown s.typeName := by
  have hwords : ∀ name ∈ ["select", "insert", "update", "delete"],
      name.toList.all isAscii = true := by
    decide +kernel
  refine shown_of_isAscii (hwords s.typeName ?_)
  cases s <;> simp [typeName]

/-! ## Problems of conditions and columns -/

/-- A problem of one part, which shows values by `inspect`. -/
structure Problem.Within (part : Part) (p : Problem) : Prop where
  inspects : p.inspects = true
  part_eq : p.part = part

namespace Condition

theorem throws_requiredName (part : Part) (node : Value) :
    Throws (Problem.Within part) (requiredName part node) := by
  rw [requiredName]
  split
  · split
    · exact .error ⟨rfl, rfl⟩
    · exact .ok _
  · exact .error ⟨rfl, rfl⟩

mutual

theorem throws_valueOf : ∀ node : Value, Throws (Problem.Within .filter) (valueOf node)
  | .null | .bool _ | .int _ | .real _ | .str _ => .ok _
  | .obj fields => by
    rw [valueOf]
    split
    · split
      · exact .ok _
      · exact .error ⟨rfl, rfl⟩
    · split
      · exact .ok _
      · exact .error ⟨rfl, rfl⟩
    · exact .ok _
    · exact (throws_requiredName _ _).bind fun name => .ok _
    · split
      · refine (throws_operandValue fields).bind fun v => ?_
        split
        · exact .ok _
        · exact .error ⟨rfl, rfl⟩
      · exact .error ⟨rfl, rfl⟩
    · exact .error ⟨rfl, rfl⟩
  | .arr _ | .tuple _ | .token _ | .node _ _ => .error ⟨rfl, rfl⟩

theorem throws_operandValue : ∀ fields : List (String × Value),
    Throws (Problem.Within .filter) (operandValue fields)
  | [] => .ok _
  | (k, v) :: rest => by
    rw [operandValue]
    split
    · exact throws_valueOf v
    · exact throws_operandValue rest

end

theorem throws_valuesOf (vs : List Value) : Throws (Problem.Within .filter) (valuesOf vs) := by
  induction vs with
  | nil => exact .ok _
  | cons v rest ih => exact (throws_valueOf v).bind fun first => ih.bind fun others => .ok _

theorem throws_compare (operator : Comparator) (left right : Value) :
    Throws (Problem.Within .filter) (compare operator left right) := by
  rw [compare]
  split
  · exact .error ⟨rfl, rfl⟩
  dsimp only
  split
  · exact (throws_requiredName _ _).bind fun column => (throws_valueOf right).bind fun v => .ok _
  · split
    · exact (throws_requiredName _ _).bind fun column => (throws_valueOf left).bind fun v => .ok _
    · exact .error ⟨rfl, rfl⟩

theorem throws_member (subject values : Value) (negated : Bool) :
    Throws (Problem.Within .filter) (member subject values negated) := by
  unfold member
  by_cases hsubject : (!isColumn subject) = true
  · rw [if_pos hsubject]
    exact .error ⟨rfl, rfl⟩
  · rw [if_neg hsubject]
    dsimp only
    split
    · exact (throws_requiredName _ _).bind fun column =>
        (throws_valuesOf _).bind fun items => .ok _
    · exact .error ⟨rfl, rfl⟩

end Condition

namespace Descriptor

theorem throws_tableOf_source (query : List (String × Value)) :
    Throws (·.part = .source) (tableOf query) := by
  rw [tableOf]
  split
  · exact .error rfl
  · split
    · exact .ok _
    · exact .error rfl

theorem throws_columnName (item : Value) : Throws (Problem.Within .columns) (columnName item) := by
  rw [columnName]
  split
  · exact .ok _
  split
  · exact .ok _
  · exact Condition.throws_requiredName _ _
  · dsimp only
    split
    · split
      · exact .ok _
      · exact .error ⟨rfl, rfl⟩
    · exact Condition.throws_requiredName _ _
  · exact .error ⟨rfl, rfl⟩

theorem throws_namesFrom (items : List Value) :
    ∀ seen, Throws (Problem.Within .columns) (namesFrom seen items) := by
  induction items with
  | nil => exact fun seen => .ok _
  | cons item rest ih =>
    intro seen
    refine (throws_columnName item).bind fun name => ?_
    split
    · exact ih seen
    · exact ih _

theorem throws_columnsOf (query : List (String × Value)) :
    Throws (Problem.Within .columns) (columnsOf query) := by
  rw [columnsOf]
  dsimp only
  have hnames : ∀ items, Throws (Problem.Within .columns) (do
      let names ← namesFrom [] items
      return if names.isEmpty then ["*"] else names) :=
    fun items => (throws_namesFrom items []).bind fun names => .ok _
  split
  · exact hnames _
  · split
    · exact .error ⟨rfl, rfl⟩
    · exact hnames []

theorem throws_configOf (config : Value) : Throws (·.inspects = true) (configOf config) := by
  have hchecked : ∀ given, Throws (·.inspects = true) (configOf (.obj given)) := by
    intro given
    rw [configOf]
    dsimp only
    split
    · exact .error rfl
    · split
      · exact .error rfl
      · exact .ok _
  cases config with
  | null => exact hchecked []
  | obj given => exact hchecked given
  | _ => exact .error rfl

end Descriptor

/-! ## Errors that are problems -/

/-- The error is a problem, and the message is one line. -/
def PipelineError.Contained (e : PipelineError) : Prop :=
  ∃ p, e = .problem p ∧ Shown p.message

theorem PipelineError.Contained.of_inspects {p : Problem} (h : p.inspects = true) :
    PipelineError.Contained (.problem p) :=
  ⟨p, rfl, Problem.shown_message (Problem.shown_text h)⟩

/-! ## Operators that can be looked up -/

namespace Filter

/-- The operator of an operation is a text. -/
def Symbolic (node : Value) : Prop :=
  node.field "type" = .str "binary_op" → ∃ symbol, node.field "operator" = .str symbol

theorem symbolic_form (e : Expr) : Symbolic e.form := by
  intro htype
  have hshape := Expr.shape_of_type htype
  cases e with
  | binary left operator right => exact ⟨operator.symbol, rfl⟩
  | _ => cases hshape

/-- The leaves of the filter of an expression are forms of expressions. -/
theorem symbolic_leaves {filter : Filter} : ∀ {e : Expr}, ofJson e.form = filter →
    ∀ node ∈ filter.leaves, Symbolic node := by
  induction filter with
  | missing =>
    intro e _ node hnode
    cases hnode
  | leaf node =>
    intro e hfilter
    obtain ⟨rfl, _⟩ := ofJson_eq_leaf hfilter
    exact List.forall_mem_singleton.2 (symbolic_form e)
  | junction c left right ihleft ihright =>
    intro e hfilter
    obtain ⟨hjoins, hleft, hright⟩ := ofJson_eq_junction hfilter
    obtain ⟨l, r, rfl⟩ := Expr.eq_of_joins hjoins
    exact List.forall_mem_append.2 ⟨ihleft hleft, ihright hright⟩

end Filter

/-! ## Conditions and timestamps

Problems are errors of any kind that is looked for here.  What else is an error depends on how the
operators of the leaves are looked up. -/

/-- The errors of looking up the operator of an operation. -/
def Condition.OperatorThrows (P : PipelineError → Prop) (node : Value) : Prop :=
  node.field "type" = .str "binary_op" → Throws P (comparator? (node.field "operator"))

theorem Filter.Symbolic.operatorThrows {P : PipelineError → Prop} {node : Value}
    (h : Filter.Symbolic node) : Condition.OperatorThrows P node := by
  intro htype
  obtain ⟨symbol, hsymbol⟩ := h htype
  rw [hsymbol]
  exact .ok _

section Steps

variable {P : PipelineError → Prop}

theorem Throws.problem {α : Type} {Q : Problem → Prop} {x : Except Problem α} (h : Throws Q x)
    (hproblem : ∀ p, Q p → P (.problem p)) : Throws P (Condition.problem x) := by
  cases x with
  | ok a => exact .ok a
  | error p => exact .error (hproblem p (h p rfl))

namespace Condition

section Filters

variable (hproblem : ∀ p : Problem, p.Within .filter → P (.problem p))
include hproblem

theorem throws_ofLeaf {node : Value} (h : OperatorThrows P node) : Throws P (ofLeaf node) := by
  rw [ofLeaf]
  split
  · exact (throws_member _ _ _).problem hproblem
  next htype =>
    refine (h htype).bind fun found => ?_
    split
    · exact (throws_compare _ _ _).problem hproblem
    · exact .error (hproblem _ ⟨rfl, rfl⟩)
  · exact .error (hproblem _ ⟨rfl, rfl⟩)

theorem throws_parts {filter : Filter} (h : ∀ node ∈ filter.leaves, OperatorThrows P node) :
    ∀ c, Throws P (parts c filter) := by
  induction filter with
  | missing => exact fun c => .error (hproblem _ ⟨rfl, rfl⟩)
  | leaf node =>
    intro c
    have hnode : OperatorThrows P node := h node (List.mem_singleton.2 rfl)
    exact (throws_ofLeaf hproblem hnode).bind fun d => .ok _
  | junction d left right ihleft ihright =>
    intro c
    obtain ⟨hleft, hright⟩ := List.forall_mem_append.1 h
    rw [parts]
    split
    · exact (ihleft hleft c).bind fun first => (ihright hright c).bind fun second => .ok _
    · split
      · exact (ihleft hleft d).bind fun first => (ihright hright d).bind fun second => .ok _
      · exact .error (hproblem _ ⟨rfl, rfl⟩)

theorem throws_ofFilter {filter : Filter} (h : ∀ node ∈ filter.leaves, OperatorThrows P node) :
    Throws P (ofFilter filter) := by
  unfold ofFilter
  split
  · exact .ok _
  · split
    · exact throws_parts hproblem h .and
    · exact .error (hproblem _ ⟨rfl, rfl⟩)

end Filters

theorem throws_leafColumn? {node : Value} (h : OperatorThrows P node) :
    Throws P (leafColumn? node) := by
  rw [leafColumn?]
  dsimp only
  split
  · exact .ok _
  next htype =>
    refine (h htype).bind fun found => ?_
    split
    · exact .ok _
    · exact .ok _
  · exact .ok _

theorem throws_firstColumn (words : List String) {nodes : List Value}
    (h : ∀ node ∈ nodes, OperatorThrows P node) : Throws P (firstColumn words nodes) := by
  induction nodes with
  | nil => exact .ok _
  | cons node rest ih =>
    obtain ⟨hnode, hrest⟩ := List.forall_mem_cons.1 h
    refine (throws_leafColumn? hnode).bind fun found => ?_
    split
    · split
      · exact .ok _
      · exact ih hrest
    · exact ih hrest

end Condition

/-! ## Steps that take notes -/

namespace Descriptor

/-- The errors of some work all have a property. -/
def Rejects (P : PipelineError → Prop) {α : Type} (x : Builder α) : Prop :=
  ∀ s e u, x s = .error e u → P e

theorem Rejects.bind {α β : Type} {x : Builder α} {f : α → Builder β} (hx : Rejects P x)
    (hf : ∀ a s u, x s = .ok a u → Rejects P (f a)) : Rejects P (x >>= f) := by
  intro s e u h
  obtain herror | ⟨a, t, hok, h⟩ := step_eq_error.1 h
  · exact hx s e u herror
  · exact hf a s t hok t e u h

theorem rejects_pure {α : Type} (a : α) : Rejects P (pure a) := by
  intro s e u h
  cases h

theorem rejects_take (notes : List Note) : Rejects P (take notes) := by
  intro s e u h
  cases h

theorem rejects_attempt {α : Type} {r : Except PipelineError α} (h : Throws P r) :
    Rejects P (attempt r) := by
  intro s e u herror
  cases r with
  | ok a => cases herror
  | error e' =>
    cases herror
    exact h e rfl

theorem rejects_attemptPart {α : Type} {Q : Problem → Prop} {r : Except Problem α}
    (hproblem : ∀ p, Q p → P (.problem p)) (h : Throws Q r) : Rejects P (attemptPart r) :=
  rejects_attempt (h.problem hproblem)

theorem rejects_timestampOf (config : List (String × Value)) {filter : Filter}
    (h : ∀ node ∈ filter.leaves, Condition.OperatorThrows P node) :
    Rejects P (timestampOf config filter) := by
  rw [timestampOf]
  split
  · exact (rejects_take _).bind fun _ _ _ _ => rejects_pure _
  · refine (rejects_attempt (Condition.throws_firstColumn _ h)).bind fun found _ _ _ => ?_
    split
    · exact (rejects_take _).bind fun _ _ _ _ => rejects_pure _
    · exact (rejects_take _).bind fun _ _ _ _ => rejects_pure _

/-- The errors of a query with a source are those of its leaves, and problems. -/
theorem rejects_derive {query : List (String × Value)} (config : List (String × Value))
    (hproblem : ∀ p : Problem, p.inspects = true → P (.problem p))
    (htable : Throws P (Condition.problem (tableOf query)))
    (hleaves : ∀ found, tableOf query = .ok found →
      ∀ node ∈ (Filter.ofJson (Value.fieldOf "where" query)).leaves,
        Condition.OperatorThrows P node) :
    Rejects P (derive query config) := by
  refine (rejects_attempt htable).bind fun found _ _ hfound => ?_
  have hwhere := hleaves found (attemptPart_eq_ok hfound)
  refine (rejects_take _).bind fun _ _ _ _ => (rejects_take _).bind fun _ _ _ _ => ?_
  refine (rejects_attemptPart (fun p hp => hproblem p hp.inspects) (throws_columnsOf _)).bind
    fun columns _ _ _ => ?_
  have hfilter := Condition.throws_ofFilter (fun p hp => hproblem p hp.inspects) hwhere
  refine (rejects_attempt hfilter).bind fun _ _ _ _ => ?_
  refine (rejects_timestampOf config hwhere).bind fun _ _ _ _ => ?_
  exact (rejects_take _).bind fun _ _ _ _ => rejects_pure _

end Descriptor

end Steps

/-! ## The whole -/

namespace Descriptor

/-- The missing source of a statement is reported by the type of the statement. -/
theorem throws_tableOf {s : Statement} {map : List (String × Value)} (hform : s.form = .obj map) :
    Throws PipelineError.Contained (Condition.problem (tableOf map)) := by
  rw [tableOf]
  split
  · refine .error ⟨_, rfl, Problem.shown_message ?_⟩
    have htype : Value.fieldOf "type" map = .str s.typeName := by
      have := s.field_type
      rwa [hform] at this
    have hlookup : map.lookup "type" = some (.str s.typeName) := by
      rw [Value.fieldOf] at htype
      cases hfound : map.lookup "type" with
      | none =>
        rw [hfound] at htype
        cases htype
      | some v =>
        rw [hfound] at htype
        exact congrArg some htype
    rw [hlookup]
    exact (Shown.append (shown_words (by rfl)) s.shown_typeName).append (shown_words (by rfl))
  · split
    · exact .ok _
    · exact .error (.of_inspects rfl)

theorem symbolic_where (q : Select) :
    ∀ node ∈ (Filter.ofJson (Value.fieldOf "where" (Value.compact q.parts))).leaves,
      Filter.Symbolic node := by
  rw [fieldOf_where]
  cases q.condition with
  | none =>
    intro node hnode
    cases hnode
  | some e => exact Filter.symbolic_leaves rfl

theorem contained_derive {s : Statement} {map : List (String × Value)} (hform : s.form = .obj map)
    (config : List (String × Value)) : Rejects PipelineError.Contained (derive map config) := by
  refine rejects_derive config (fun _ => .of_inspects) (throws_tableOf hform) fun found hfound => ?_
  -- only a select statement comes this far
  obtain ⟨q, rfl, rfl⟩ := select_of_tableOf hform hfound
  intro node hnode
  exact (symbolic_where q node hnode).operatorThrows

/-- With a canonical map for each statement, a query is a single statement with its map, or it is
counted. -/
theorem mapOf_of_canonical {all : List Statement}
    (h : (Script.toTree all).canonical = .ok (Script.form all)) :
    (∃ (s : Statement) (map : _), s.form = .obj map ∧ mapOf (Script.toTree all) = .ok map) ∨
      ∃ n, mapOf (Script.toTree all) = .error (.problem (.statementCount n)) := by
  match all with
  | [] => exact .inr ⟨0, rfl⟩
  | s :: t :: rest => exact .inr ⟨_, rfl⟩
  | [s] =>
    obtain ⟨map, hmap⟩ := s.form_eq_obj
    have hcanonical : s.toTree.canonical = .ok (.obj map) := by
      rw [← hmap]
      exact h
    exact .inl ⟨s, map, hmap, mapOf_single.2 hcanonical⟩

theorem contained_build {all : List Statement}
    (h : (Script.toTree all).canonical = .ok (Script.form all)) (config : Value) :
    Rejects PipelineError.Contained (build (Script.toTree all) config) := by
  have hmap : Throws PipelineError.Contained (mapOf (Script.toTree all)) := by
    obtain ⟨_, map, _, hok⟩ | ⟨n, herror⟩ := mapOf_of_canonical h
    · rw [hok]
      exact .ok map
    · rw [herror]
      exact .error (.of_inspects rfl)
  refine (rejects_attempt hmap).bind fun map _ _ hfound => ?_
  refine (rejects_attemptPart (fun _ => .of_inspects) (throws_configOf config)).bind
    fun settings _ _ _ => ?_
  obtain ⟨s, map', hform, hok⟩ | ⟨n, herror⟩ := mapOf_of_canonical h
  · cases hok.symm.trans (attempt_eq_ok hfound)
    exact contained_derive hform settings
  · cases herror.symm.trans (attempt_eq_ok hfound)

end Descriptor

/-- The errors that the library reports: about characters, about tokens, and about the query or the
configuration. -/
def QueryError.IsReported : QueryError → Prop
  | .unreadable (.lex _) => True
  | .unreadable (.parse e) => e.IsReported
  | .unbuildable (.problem _) => True
  | .unbuildable _ => False

theorem Script.contained_parse {text : String} {e : SyntaxError}
    (hshort : ∀ tokens, tokenize text = .ok tokens → Token.AllShort tokens)
    (h : (Script.parse text).1 = .error e) :
    (QueryError.unreadable e).IsReported ∧ Shown e.message := by
  rw [Script.parse] at h
  split at h
  next e' _ =>
    cases h
    exact ⟨trivial, e'.shown_message⟩
  next tokens htokens =>
    split at h
    · cases h
    next e' notes herror =>
      cases h
      have hcontained : e'.Contained :=
        contained_ofTokens htokens (hshort tokens htokens) (congrArg Prod.fst herror)
      exact ⟨hcontained.reported, hcontained.shown⟩

theorem Descriptor.contained_ofText {text : String} {config : Value} {e : QueryError}
    (hshort : ∀ tokens, tokenize text = .ok tokens → Token.AllShort tokens)
    (h : (ofText text config).1 = .error e) : e.IsReported ∧ Shown e.message := by
  rw [ofText] at h
  split at h
  next e' notes herror =>
    cases h
    exact Script.contained_parse hshort (congrArg Prod.fst herror)
  next all notes hparse =>
    split at h
    · cases h
    next e' notes' herror =>
      cases h
      obtain ⟨tokens, htokens, hall⟩ := Script.tokens_of_parse (congrArg Prod.fst hparse)
      have hcanonical := Script.canonical_of_tokens htokens hall (hshort tokens htokens)
      obtain ⟨p, rfl, hshown⟩ := contained_build hcanonical config notes e' notes' herror
      exact ⟨trivial, hshown⟩

/-- **Errors are contained.**  A text without long numbers and a configuration have a descriptor, or
an error that is reported in one line. -/
theorem Descriptor.ofText_reported {text : String} (config : Value)
    (hshort : ∀ tokens, tokenize text = .ok tokens → Token.AllShort tokens) :
    (∃ d, (Descriptor.ofText text config).1 = .ok d) ∨
      ∃ e, (Descriptor.ofText text config).1 = .error e ∧ e.IsReported ∧
        ∀ c ∈ e.message.toList, c ∉ lineBreaks := by
  cases hresult : (Descriptor.ofText text config).1 with
  | ok d => exact .inl ⟨d, rfl⟩
  | error e =>
    obtain ⟨hreported, hshown⟩ := contained_ofText hshort hresult
    refine .inr ⟨e, rfl, hreported, fun c hc => ?_⟩
    exact not_lineBreak_of_isPrintable (hshown c hc)

/-- A problem with a text that has line breaks in it. -/
theorem Descriptor.ofText_reported_lines :
    ∃ e, (Descriptor.ofText "SELECT a\nFROM t\nWHERE 'x\ny'" .null).1 = .error e ∧
      e.IsReported ∧ ∀ c ∈ e.message.toList, c ∉ lineBreaks := by
  have hshort : ∀ tokens, tokenize "SELECT a\nFROM t\nWHERE 'x\ny'" = .ok tokens →
      Token.AllShort tokens := by
    intro tokens htokens
    have hall : (tokenize "SELECT a\nFROM t\nWHERE 'x\ny'").toOption.all
        (fun ts => decide (Token.AllShort ts)) = true := by
      decide +kernel
    rw [htokens] at hall
    exact of_decide_eq_true hall
  have herror : (Descriptor.ofText "SELECT a\nFROM t\nWHERE 'x\ny'" .null).1.isOk = false := by
    decide +kernel
  obtain ⟨d, hd⟩ | he := Descriptor.ofText_reported .null hshort
  · rw [hd] at herror
    cases herror
  · exact he

end QueryPipeline
