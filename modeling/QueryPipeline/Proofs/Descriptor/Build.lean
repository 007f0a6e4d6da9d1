import QueryPipeline.Pipeline
import QueryPipeline.Proofs.Canonical.Normal
import QueryPipeline.Proofs.Condition.Extract
import QueryPipeline.Proofs.Statement.Render

/-!
# What a successful build has done

A descriptor is built in steps that take notes and may fail.  This file takes a build that succeeded
apart.  `Derived` says of each part of a descriptor what it was made from, and `ofText_eq_ok` goes
back to the text: it holds one statement, which selects from a table, and the descriptor is derived
from the canonical map of this statement.
-/

namespace QueryPipeline

theorem Statement.form_eq_obj (s : Statement) : ∃ map, s.form = .obj map := by
  cases s <;> exact ⟨_, rfl⟩

namespace Descriptor

/-! ## Steps that take notes -/

section Steps

variable {α β : Type} {s u : List Note}

theorem step_eq_ok {x : Builder α} {f : α → Builder β} {b : β} :
    (x >>= f) s = .ok b u ↔ ∃ a t, x s = .ok a t ∧ f a t = .ok b u := by
  show EStateM.bind x f s = _ ↔ _
  rw [EStateM.bind]
  cases x s with
  | ok a t =>
    constructor
    · intro h
      exact ⟨a, t, rfl, h⟩
    · rintro ⟨a', t', heq, h⟩
      cases heq
      exact h
  | error e t =>
    constructor
    · intro h
      cases h
    · rintro ⟨_, _, heq, _⟩
      cases heq

theorem step_eq_error {x : Builder α} {f : α → Builder β} {e : PipelineError} :
    (x >>= f) s = .error e u ↔ x s = .error e u ∨ ∃ a t, x s = .ok a t ∧ f a t = .error e u := by
  show EStateM.bind x f s = _ ↔ _
  rw [EStateM.bind]
  cases x s <;> simp

/-- A run is known by something of its result. -/
theorem eq_ok_of_run' {x : Builder α} {f : α → β} {b : β} (h : (x.run' s).map f = some b) :
    ∃ a u, x s = .ok a u ∧ f a = b := by
  unfold EStateM.run' EStateM.run at h
  cases hx : x s with
  | ok a u =>
    rw [hx] at h
    exact ⟨a, u, rfl, Option.some.inj h⟩
  | error e u =>
    rw [hx] at h
    cases h

theorem attempt_eq_ok {r : Except PipelineError α} {a : α} (h : attempt r s = .ok a u) :
    r = .ok a := by
  cases r with
  | ok b =>
    cases h
    rfl
  | error e => cases h

theorem attemptPart_eq_ok {r : Except Problem α} {a : α} (h : attemptPart r s = .ok a u) :
    r = .ok a :=
  Condition.problem_eq_ok.1 (attempt_eq_ok h)

end Steps

/-! ## The parts of a descriptor -/

/-- A configuration that is accepted is put over the defaults. -/
theorem configOf_eq_ok {given settings : List (String × Value)}
    (h : configOf (.obj given) = .ok settings) : settings = Value.override defaultConfig given := by
  rw [configOf] at h
  dsimp only at h
  split at h
  · cases h
  split at h
  · cases h
  · exact (Except.ok.inj h).symm

/-- What the parts of a descriptor are made from. -/
structure Derived (query config : List (String × Value)) (d : Descriptor) : Prop where
  source : ∃ table schema, tableOf query = .ok (table, schema) ∧
    d.source = Source.classify (sourceType config) table schema
  sink : d.sink = sinkOf config d.source.table
  columns : columnsOf query = .ok d.columns
  conditions : Condition.ofFilter (Filter.ofJson (Value.fieldOf "where" query)) = .ok d.conditions
  timestamp : d.timestampColumn = Value.fieldOf "timestamp_column" config ∨
    ∃ name, d.timestampColumn = .str name
  id : d.idColumn = (Value.fieldOf "id_column" config).orElse (.str defaultIdColumn)
  config : d.config = config

/-- A timestamp column is the one of the configuration, or else a name. -/
theorem timestampOf_eq_ok {config : List (String × Value)} {filter : Filter} {v : Value}
    {s u : List Note} (h : timestampOf config filter s = .ok v u) :
    v = Value.fieldOf "timestamp_column" config ∨ ∃ name, v = .str name := by
  rw [timestampOf] at h
  split at h
  · obtain ⟨_, _, _, h⟩ := step_eq_ok.1 h
    injection h with h
    exact .inl h.symm
  · obtain ⟨found, _, _, h⟩ := step_eq_ok.1 h
    cases found with
    | some name =>
      obtain ⟨_, _, _, h⟩ := step_eq_ok.1 h
      injection h with h
      exact .inr ⟨name, h.symm⟩
    | none =>
      obtain ⟨_, _, _, h⟩ := step_eq_ok.1 h
      injection h with h
      exact .inr ⟨defaultTimestampColumn, h.symm⟩

theorem derive_eq_ok {query config : List (String × Value)} {d : Descriptor} {s u : List Note}
    (h : derive query config s = .ok d u) : Derived query config d := by
  obtain ⟨⟨table, schema⟩, _, htable, h⟩ := step_eq_ok.1 h
  obtain ⟨_, _, _, h⟩ := step_eq_ok.1 h
  obtain ⟨_, _, _, h⟩ := step_eq_ok.1 h
  obtain ⟨columns, _, hcolumns, h⟩ := step_eq_ok.1 h
  obtain ⟨conditions, _, hconditions, h⟩ := step_eq_ok.1 h
  obtain ⟨timestamp, _, htimestamp, h⟩ := step_eq_ok.1 h
  obtain ⟨_, _, _, h⟩ := step_eq_ok.1 h
  injection h with h
  subst h
  exact {
    source := ⟨table, schema, attemptPart_eq_ok htable, rfl⟩
    sink := rfl
    columns := attemptPart_eq_ok hcolumns
    conditions := attempt_eq_ok hconditions
    timestamp := timestampOf_eq_ok htimestamp
    id := rfl
    config := rfl }

theorem build_eq_ok {query config : Value} {d : Descriptor} {s u : List Note}
    (h : build query config s = .ok d u) :
    ∃ map settings, mapOf query = .ok map ∧ configOf config = .ok settings ∧
      Derived map settings d := by
  obtain ⟨map, _, hmap, h⟩ := step_eq_ok.1 h
  obtain ⟨settings, _, hsettings, h⟩ := step_eq_ok.1 h
  exact ⟨map, settings, attempt_eq_ok hmap, attemptPart_eq_ok hsettings, derive_eq_ok h⟩

/-! ## The statement of a query -/

/-- The map of a tree is what its canonical form holds. -/
theorem mapOf_node {shape : Shape} {fields : List Value} {map : List (String × Value)} :
    mapOf (.node shape fields) = .ok map ↔
      (Value.node shape fields).canonical = .ok (.obj map) := by
  unfold mapOf
  simp only [pure_bind]
  cases hcanonical : (Value.node shape fields).canonical with
  | error e => simp [throw, throwThe, MonadExceptOf.throw]
  | ok v => cases v <;> simp [throw, throwThe, MonadExceptOf.throw, pure, Except.pure]

theorem mapOf_single {s : Statement} {map : List (String × Value)} :
    mapOf (Script.toTree [s]) = .ok map ↔ s.toTree.canonical = .ok (.obj map) := by
  cases s <;> exact mapOf_node

/-- A query with a map is one statement. -/
theorem mapOf_toTree {all : List Statement} {map : List (String × Value)}
    (h : mapOf (Script.toTree all) = .ok map) :
    ∃ s, all = [s] ∧ s.toTree.canonical = .ok (.obj map) := by
  match all with
  | [] => cases h
  | _ :: _ :: _ => cases h
  | [s] => exact ⟨s, rfl, mapOf_single.1 h⟩

theorem tableOf_eq_ok {query : List (String × Value)} {table schema : Value}
    (h : tableOf query = .ok (table, schema)) : Value.fieldOf "from" query ≠ .null := by
  intro hnull
  rw [tableOf, hnull] at h
  cases h

theorem fieldOf_where (q : Select) :
    Value.fieldOf "where" (Value.compact q.parts) = Expr.optionForm q.condition :=
  Value.fieldOf_compact q.nodup_parts "where"

/-- Only a select statement reads from a table. -/
theorem select_of_tableOf {s : Statement} {map : List (String × Value)} {table schema : Value}
    (hform : s.form = .obj map) (h : tableOf map = .ok (table, schema)) :
    ∃ q : Select, s = .select q ∧ map = Value.compact q.parts := by
  have hfrom := tableOf_eq_ok h
  cases s with
  | select q =>
    cases hform
    exact ⟨q, rfl, rfl⟩
  | insert q =>
    cases hform
    exact absurd rfl hfrom
  | update q =>
    cases hform
    exact absurd (Value.fieldOf_compact q.nodup_parts "from") hfrom
  | delete q =>
    cases hform
    exact absurd (Value.fieldOf_compact q.nodup_parts "from") hfrom

/-- A descriptor of a text is known by something of it. -/
theorem ofText_of_map {β : Type} {text : String} {config : Value} {f : Descriptor → β} {b : β}
    (h : (ofText text config).1.map f = .ok b) :
    ∃ d notes, ofText text config = (.ok d, notes) ∧ f d = b := by
  obtain ⟨d, hd, hf⟩ := map_eq_ok h
  exact ⟨d, _, Prod.ext hd rfl, hf⟩

/-- A text with a descriptor has statements, from which it is built. -/
theorem build_of_ofText {text : String} {config : Value} {d : Descriptor} {notes : List Note}
    (h : ofText text config = (.ok d, notes)) :
    ∃ all s u, (Script.parse text).1 = .ok all ∧ build (Script.toTree all) config s = .ok d u := by
  rw [ofText] at h
  split at h
  · cases h
  next all earlier hparse =>
    split at h
    next d' later hbuild =>
      cases h
      exact ⟨all, earlier, _, by rw [hparse], hbuild⟩
    · cases h

/-- **A text with a descriptor is one select statement**, from whose map the descriptor is
derived. -/
theorem ofText_eq_ok {text : String} {config : Value} {d : Descriptor} {notes : List Note}
    (h : ofText text config = (.ok d, notes)) :
    ∃ q settings, (Script.parse text).1 = .ok [.select q] ∧ configOf config = .ok settings ∧
      Derived (Value.compact q.parts) settings d := by
  obtain ⟨all, _, _, hall, hbuild⟩ := build_of_ofText h
  obtain ⟨map, settings, hmap, hsettings, hderived⟩ := build_eq_ok hbuild
  obtain ⟨s, rfl, hcanonical⟩ := mapOf_toTree hmap
  obtain ⟨tokens, htokens, hread⟩ := Script.tokens_of_parse hall
  have hlegible := Script.legible_of_tokens htokens hread s (List.mem_singleton.mpr rfl)
  have hform := ((Statement.settles_form hlegible).eq_of_ok hcanonical).symm
  obtain ⟨table, schema, htable, _⟩ := hderived.source
  obtain ⟨q, rfl, rfl⟩ := select_of_tableOf hform htable
  exact ⟨q, settings, hall, hsettings, hderived⟩

end Descriptor
end QueryPipeline
