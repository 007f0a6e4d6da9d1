import QueryPipeline.Proofs.Descriptor.Build
import QueryPipeline.Proofs.Text.Case

/-!
# Sources depend on the normal form of their type

Each question about a type brings it into normal form first, and the type in a record is a normal
form already.  So the answers in the record are those that the record's own type gives again,
provided that

    normalForm (normalForm t) = normalForm t

This needs two things of small letters, which `Proofs/Text/Case` shows: to write them twice changes
nothing, and white space is cut before or after.
-/

namespace QueryPipeline

namespace SourceType

/-! ## Normal forms -/

/-- **A normal form is its own.** -/
@[simp]
theorem normalForm_normalForm (type : String) :
    normalForm (normalForm type) = normalForm type := by
  rw [normalForm, normalForm, Text.trim_lower, Text.lower_lower, Text.trim_trim]

/-! ## Questions about a type -/

section Questions

variable (type : String) (table : Value)

@[simp]
theorem category_normalForm : category (normalForm type) = category type := by
  rw [category, normalForm_normalForm, category]

@[simp]
theorem host_normalForm : host (normalForm type) = host type := by
  rw [host, normalForm_normalForm, host]

@[simp]
theorem port_normalForm : port (normalForm type) = port type := by
  rw [port, normalForm_normalForm, port]

@[simp]
theorem url_normalForm : url (normalForm type) = url type := by
  rw [url, normalForm_normalForm, url]

theorem connection_category : (connection type table).category = category type := by
  unfold connection
  dsimp only
  rw [category_normalForm]
  cases category type <;> rfl

variable {type}

theorem connection_database (h : category type = .database) :
    (connection type table).defaults =
      [("host", .str (host type)), ("port", .int (port type)), ("keyspace", .null),
       ("database", .null)] := by
  unfold connection
  dsimp only
  rw [category_normalForm, h, host_normalForm, port_normalForm]

theorem connection_api (h : category type = .api) :
    (connection type table).defaults = [("url", .str (url type))] := by
  unfold connection
  dsimp only
  rw [category_normalForm, h, url_normalForm]

end Questions
end SourceType

/-! ## Records -/

section Fields

variable (s : Source) (c : Connection)

theorem Source.field_category : s.toJson.field "category" = .str s.category.name := rfl

theorem Source.field_connection : s.toJson.field "connection" = s.connection.toJson := rfl

theorem Source.field_watermark : s.toJson.field "watermark" = s.watermark.toJson := rfl

theorem Connection.field_template : c.toJson.field "template_kind" = .str c.category.name := rfl

theorem Connection.field_defaults : c.toJson.field "defaults" = .obj c.defaults := rfl

end Fields

theorem Descriptor.category_sinkOf (config : List (String × Value)) (table : Value) :
    SourceType.category (sinkOf config table).type = (sinkOf config table).category := by
  unfold sinkOf
  dsimp only

namespace Source

/-- The parts of a record agree with each other, and with what its type gives when it is asked
again. -/
structure Coherent (s : Source) : Prop where
  type : SourceType.normalForm s.type = s.type
  category : SourceType.category s.type = s.category
  template : (s.toJson.field "connection").field "template_kind" = s.toJson.field "category"
  byRow : s.category = .file → s.toJson.field "watermark" =
    .obj [("strategy", .str "row_number"), ("uses_composite", .bool false),
      ("timestamp_based", .bool false)]
  byTime : s.category ≠ .file → s.toJson.field "watermark" =
    .obj [("strategy", .str "composite"), ("uses_composite", .bool true),
      ("timestamp_based", .bool true)]
  database : s.category = .database →
    let defaults := (s.toJson.field "connection").field "defaults"
    defaults.field "host" = .str (SourceType.host s.type) ∧
      defaults.field "port" = .int (SourceType.port s.type)
  api : s.category = .api →
    ((s.toJson.field "connection").field "defaults").field "url" = .str (SourceType.url s.type)

/-- A source is coherent if its parts were asked of its type, and its type is a normal form. -/
theorem coherent_of {s : Source} (htype : SourceType.normalForm s.type = s.type)
    (hcategory : SourceType.category s.type = s.category)
    (hconnection : s.connection = SourceType.connection s.type s.table)
    (hwatermark : s.watermark = s.category.watermark) : Coherent s where
  type := htype
  category := hcategory
  template := by
    rw [field_connection, field_category, Connection.field_template, hconnection,
      SourceType.connection_category, hcategory]
  byRow h := by
    rw [field_watermark, hwatermark, h]
    rfl
  byTime h := by
    rw [field_watermark, hwatermark]
    cases hc : s.category with
    | file => exact absurd hc h
    | database | api => rfl
  database h := by
    rw [field_connection, Connection.field_defaults, hconnection,
      SourceType.connection_database s.table (hcategory.trans h)]
    exact ⟨rfl, rfl⟩
  api h := by
    rw [field_connection, Connection.field_defaults, hconnection,
      SourceType.connection_api s.table (hcategory.trans h)]
    rfl

theorem coherent_classify (type table schema : Value) : Coherent (classify type table schema) := by
  refine coherent_of (SourceType.normalForm_normalForm type.plain) ?_ ?_ ?_
  all_goals
    unfold classify
    dsimp only

theorem classify_normalize (type table schema : Value) :
    classify (.str (SourceType.normalize type)) table schema = classify type table schema := by
  have htype : SourceType.normalize (.str (SourceType.normalize type)) =
      SourceType.normalize type := SourceType.normalForm_normalForm type.plain
  rw [classify, htype, classify]

/-- **A source depends on the normal form of its type, and on nothing else of it.**  Its record is
coherent, and so is what a descriptor says of its source and of its sink. -/
theorem classify_coherent (type table schema : Value) :
    classify (.str (SourceType.normalize type)) table schema = classify type table schema ∧
      (∀ other, classify other table schema = classify type table schema ↔
        SourceType.normalize other = SourceType.normalize type) ∧
      Coherent (classify type table schema) ∧
      ∀ query config d s u, Descriptor.build query config s = .ok d u →
        Coherent d.source ∧ SourceType.category d.sink.type = d.sink.category := by
  refine ⟨classify_normalize type table schema, fun other => ⟨congrArg Source.type, fun h => ?_⟩,
    coherent_classify type table schema, fun query config d s u h => ?_⟩
  · rw [classify, h, classify]
  · obtain ⟨_, _, _, _, hderived⟩ := Descriptor.build_eq_ok h
    obtain ⟨_, _, _, hsource⟩ := hderived.source
    rw [hsource, hderived.sink]
    exact ⟨coherent_classify _ _ _, Descriptor.category_sinkOf _ _⟩

/-- Types with white space and capitals, not only Latin ones: a file, a service and a database of
which nothing is known, and a pipeline from the file to another service. -/
theorem classify_coherent_padded :
    let query : Value :=
      .obj [("type", .str "select"), ("columns", .arr [.str "*"]),
        ("from", .obj [("table", .str "t")])]
    let config : Value :=
      .obj [("source_type", .str "\t CSV\n"), ("sink", .obj [("type", .str "ElasticSearch ")])]
    let source (type : String) : Source := classify (.str type) (.str "t") .null
    (source "\t CSV\n" = source "csv" ∧ (source "\t CSV\n").category = .file ∧
        (source "\t CSV\n").toJson.field "watermark" =
          .obj [("strategy", .str "row_number"), ("uses_composite", .bool false),
            ("timestamp_based", .bool false)]) ∧
      (source " DRUID " = source "druid" ∧ (source " DRUID ").category = .api ∧
        (((source " DRUID ").toJson.field "connection").field "defaults").field "url" =
          .str "http://localhost:8888") ∧
      (source " ДБ" = source "дб" ∧ (source " ДБ").category = .database ∧
        (((source " ДБ").toJson.field "connection").field "defaults").field "port" = .int 8080) ∧
      ∃ d notes, Descriptor.build query config [] = .ok d notes ∧ Coherent d.source ∧
        d.sink.type = "elasticsearch" ∧ SourceType.category d.sink.type = d.sink.category := by
  intro query config source
  have hcsv : SourceType.normalize (.str "\t CSV\n") = "csv" := by decide +kernel
  have hdruid : SourceType.normalize (.str " DRUID ") = "druid" := by decide +kernel
  have hdb : SourceType.normalize (.str " ДБ") = "дб" := by decide +kernel
  have hfile : (source "\t CSV\n").category = .file := by decide +kernel
  have hapi : (source " DRUID ").category = .api := by decide +kernel
  have hdatabase : (source " ДБ").category = .database := by decide +kernel
  have hurl : Value.str (SourceType.url (source " DRUID ").type) = .str "http://localhost:8888" := by
    decide +kernel
  have hport : Value.int (SourceType.port (source " ДБ").type) = .int 8080 := by decide +kernel
  obtain ⟨hcsvSame, _, hcsvRecord, hdescriptor⟩ :=
    classify_coherent (.str "\t CSV\n") (.str "t") .null
  obtain ⟨hdruidSame, _, hdruidRecord, _⟩ := classify_coherent (.str " DRUID ") (.str "t") .null
  obtain ⟨hdbSame, _, hdbRecord, _⟩ := classify_coherent (.str " ДБ") (.str "t") .null
  rw [hcsv] at hcsvSame
  rw [hdruid] at hdruidSame
  rw [hdb] at hdbSame
  refine ⟨⟨hcsvSame.symm, hfile, hcsvRecord.byRow hfile⟩,
    ⟨hdruidSame.symm, hapi, (hdruidRecord.api hapi).trans hurl⟩,
    ⟨hdbSame.symm, hdatabase, (hdbRecord.database hdatabase).2.trans hport⟩, ?_⟩
  have hrun : ((Descriptor.build query config).run' []).map (fun d => d.sink.type) =
      some "elasticsearch" := by
    decide +kernel
  obtain ⟨d, notes, hbuild, hsink⟩ := Descriptor.eq_ok_of_run' hrun
  obtain ⟨hsource, hcategory⟩ := hdescriptor query config d [] notes hbuild
  exact ⟨d, notes, hbuild, hsource, hsink, hcategory⟩

end Source
end QueryPipeline
