import QueryPipeline.Proofs.Canonical.Stored
import QueryPipeline.Proofs.Condition.Operands
import QueryPipeline.Proofs.Value.Override

/-!
# Descriptors as JSON

What is shown of a descriptor is said field by field (`Descriptor.IsShownAs`): which names there
are, and what stands under each of them.

The values in a descriptor come from the map of a query and from a configuration.  If these are
JSON, then so is what is shown (`Descriptor.isJson_of_derived`), and it can be read back from its
text.  A number is put down with the opposite sign for a minus in front of it, and stays as short as
it was.
-/

namespace QueryPipeline

/-! ## The fields that are shown -/

/-- The names of the fields of an object. -/
def Value.names : Value → List String
  | .obj fields => fields.map Prod.fst
  | _ => []

mutual

/-- What is shown of a condition. -/
inductive Condition.IsShownAs : Condition → Value → Prop
  | comparison {column : String} {operator : Comparator} {value v : Value} :
      v.names = ["type", "column", "operator", "value"] → v.field "type" = .str "comparison" →
      v.field "column" = .str column → v.field "operator" = .str operator.symbol →
      v.field "value" = value → IsShownAs (.comparison column operator value) v
  | membership {column : String} {values : List Value} {negated : Bool} {v : Value} :
      v.names = ["type", "column", "values", "negated"] → v.field "type" = .str "in_expression" →
      v.field "column" = .str column → v.field "values" = .arr values →
      v.field "negated" = .bool negated → IsShownAs (.membership column values negated) v
  | junction {connective : Connective} {parts : List Condition} {v : Value} {items : List Value} :
      v.names = ["type", "conditions"] → v.field "type" = .str connective.tag →
      v.field "conditions" = .arr items → AreShownAs parts items →
      IsShownAs (.junction connective parts) v

/-- What is shown of conditions, one after the other. -/
inductive Condition.AreShownAs : List Condition → List Value → Prop
  | nil : AreShownAs [] []
  | cons {c : Condition} {rest : List Condition} {v : Value} {items : List Value} :
      IsShownAs c v → AreShownAs rest items → AreShownAs (c :: rest) (v :: items)

end

structure Connection.IsShownAs (c : Connection) (v : Value) : Prop where
  names : v.names = ["env_vars", "defaults", "template_kind"]
  environmentNames : (v.field "env_vars").names = c.environment.map Prod.fst
  environment : ∀ key, (v.field "env_vars").field key = (c.environment.lookup key).elim .null .str
  defaults : v.field "defaults" = .obj c.defaults
  kind : v.field "template_kind" = .str c.category.name

structure Watermark.IsShownAs (w : Watermark) (v : Value) : Prop where
  names : v.names = ["strategy", "uses_composite", "timestamp_based"]
  strategy : v.field "strategy" = .str w.strategy
  composite : v.field "uses_composite" = .bool w.isComposite
  timestamp : v.field "timestamp_based" = .bool w.isComposite

structure Source.IsShownAs (s : Source) (v : Value) : Prop where
  names : v.names =
    ["type", "table", "schema", "category", "connection", "watermark", "reserved_columns"]
  type : v.field "type" = .str s.type
  table : v.field "table" = s.table
  schema : v.field "schema" = s.schema
  category : v.field "category" = .str s.category.name
  connection : s.connection.IsShownAs (v.field "connection")
  watermark : s.watermark.IsShownAs (v.field "watermark")
  reserved : v.field "reserved_columns" = .arr [.str "__row_number"]

structure Sink.IsShownAs (s : Sink) (v : Value) : Prop where
  names : v.names = ["type", "table", "default_url", "category"]
  type : v.field "type" = .str s.type
  table : v.field "table" = s.table
  url : v.field "default_url" = s.url
  category : v.field "category" = .str s.category.name

/-- What is shown of a descriptor. -/
structure Descriptor.IsShownAs (d : Descriptor) (v : Value) : Prop where
  names : v.names =
    ["source", "sink", "columns", "conditions", "timestamp_column", "id_column", "config"]
  source : d.source.IsShownAs (v.field "source")
  sink : d.sink.IsShownAs (v.field "sink")
  columns : v.field "columns" = .arr (d.columns.map .str)
  conditions : ∃ items, v.field "conditions" = .arr items ∧
    Condition.AreShownAs d.conditions items
  timestamp : v.field "timestamp_column" = d.timestampColumn
  id : v.field "id_column" = d.idColumn
  config : v.field "config" = .obj d.config

mutual

theorem Condition.isShownAs_toJson : ∀ c : Condition, c.IsShownAs c.toJson
  | .comparison _ _ _ => .comparison rfl rfl rfl rfl rfl
  | .membership _ _ _ => .membership rfl rfl rfl rfl rfl
  | .junction _ parts => .junction rfl rfl rfl (areShownAs_toJsons parts)

theorem Condition.areShownAs_toJsons : ∀ cs : List Condition, AreShownAs cs (toJsons cs)
  | [] => .nil
  | c :: rest => .cons (isShownAs_toJson c) (areShownAs_toJsons rest)

end

theorem Connection.isShownAs_toJson (c : Connection) : c.IsShownAs c.toJson where
  names := rfl
  environmentNames := by
    change (c.environment.map fun v => (v.1, Value.str v.2)).map Prod.fst = _
    rw [List.map_map]
    rfl
  environment := by
    intro key
    change ((c.environment.map fun v => (v.1, Value.str v.2)).lookup key).getD .null = _
    induction c.environment with
    | nil => rfl
    | cons v rest ih =>
      rw [List.map_cons, List.lookup_cons, List.lookup_cons]
      cases key == v.1 with
      | true => rfl
      | false => exact ih
  defaults := rfl
  kind := rfl

theorem Watermark.isShownAs_toJson (w : Watermark) : w.IsShownAs w.toJson :=
  ⟨rfl, rfl, rfl, rfl⟩

theorem Source.isShownAs_toJson (s : Source) : s.IsShownAs s.toJson :=
  ⟨rfl, rfl, rfl, rfl, rfl, s.connection.isShownAs_toJson, s.watermark.isShownAs_toJson, rfl⟩

theorem Sink.isShownAs_toJson (s : Sink) : s.IsShownAs s.toJson :=
  ⟨rfl, rfl, rfl, rfl, rfl⟩

theorem Descriptor.isShownAs_toJson (d : Descriptor) : d.IsShownAs d.toJson where
  names := rfl
  source := d.source.isShownAs_toJson
  sink := d.sink.isShownAs_toJson
  columns := rfl
  conditions := ⟨_, rfl, Condition.areShownAs_toJsons d.conditions⟩
  timestamp := rfl
  id := rfl
  config := rfl

/-! ## Conditions -/

namespace Value

theorem json_null : Value.null.IsJson :=
  stored_null.isJson

theorem json_bool (b : Bool) : (Value.bool b).IsJson :=
  (stored_bool b).isJson

theorem json_str (s : String) : (Value.str s).IsJson :=
  (stored_str s).isJson

theorem json_strs (names : List String) : (Value.arr (names.map .str)).IsJson :=
  .arr (List.forall_mem_map.2 fun name _ => json_str name)

/-- An object with different names, field by field. -/
theorem json_obj {fields : List (String × Value)} (hnames : (fields.map Prod.fst).Nodup)
    (h : fields.Forall fun f => f.2.IsJson) : (Value.obj fields).IsJson :=
  .obj hnames (List.forall_iff_forall_mem.1 h)

end Value

theorem Binary64.IsRounded.neg {x : Binary64} (h : x.IsRounded) : x.neg.IsRounded := by
  cases h with
  | zero negative => exact .zero !negative
  | legal negative h => exact .legal (!negative) h

namespace Condition

open Value (json_null json_bool json_str json_obj isJson_int isJson_real)

theorem isJson_of_negative? {v w : Value} (h : negative? v = some w) (hv : v.IsJson) :
    w.IsJson := by
  obtain ⟨i, rfl, rfl⟩ | ⟨x, rfl, rfl⟩ := negative?_eq_some h
  · have hshort := isJson_int.1 hv
    rw [Value.IsShort, ← Int.natAbs_neg] at hshort
    exact isJson_int.2 hshort
  · exact isJson_real.2 (isJson_real.1 hv).neg

theorem PutDown.isJson {node v : Value} (h : PutDown node v) (hnode : node.IsJson) : v.IsJson := by
  induction h with
  | constant _ _ => exact hnode
  | quoted => exact json_str _
  | text _ _ => exact json_str _
  | number _ _ => exact hnode.field "value"
  | null _ => exact json_null
  | column _ _ => exact json_str _
  | negated _ _ _ hnegative ih => exact isJson_of_negative? hnegative (ih (hnode.field "operand"))

theorem isJson_of_valueOf {node v : Value} (h : valueOf node = .ok v) (hnode : node.IsJson) :
    v.IsJson :=
  (valueOf_eq_ok h).isJson hnode

theorem isJson_of_valuesOf {nodes items : List Value} (h : valuesOf nodes = .ok items)
    (hnodes : ∀ v ∈ nodes, v.IsJson) : ∀ v ∈ items, v.IsJson := by
  induction nodes generalizing items with
  | nil =>
    cases h
    exact List.forall_mem_nil _
  | cons node rest ih =>
    obtain ⟨hnode, hrest⟩ := List.forall_mem_cons.1 hnodes
    rw [valuesOf] at h
    obtain ⟨first, hfirst, h⟩ := bind_eq_ok.1 h
    obtain ⟨others, hothers, h⟩ := bind_eq_ok.1 h
    cases h
    exact List.forall_mem_cons.2 ⟨isJson_of_valueOf hfirst hnode, ih hothers hrest⟩

theorem isJson_of_ofLeaf {node : Value} {c : Condition} (h : ofLeaf node = .ok c)
    (hnode : node.IsJson) : ∀ v ∈ c.values, v.IsJson := by
  rcases ofLeaf_eq_ok h with ⟨_, hmember⟩ | ⟨_, operator, _, hcompare⟩
  · obtain ⟨name, listed, items, hlisted, hitems, rfl⟩ := member_eq_ok hmember
    exact isJson_of_valuesOf hitems (hlisted ▸ hnode.field "values").of_arr
  · rcases compare_eq_ok hcompare with ⟨_, name, value, _, hvalue, rfl⟩ |
      ⟨_, _, name, value, _, hvalue, rfl⟩
    · exact List.forall_mem_singleton.2 (isJson_of_valueOf hvalue (hnode.field "right"))
    · exact List.forall_mem_singleton.2 (isJson_of_valueOf hvalue (hnode.field "left"))

/-- The values of the parts of a filter are JSON, if the filter is. -/
theorem isJson_of_parts {filter : Filter} : ∀ {node : Value}, node.IsJson →
    Filter.ofJson node = filter → ∀ {c : Connective} {cs : List Condition},
    parts c filter = .ok cs → ∀ v ∈ cs.flatMap values, v.IsJson := by
  induction filter with
  | missing =>
    intro node _ _ c cs h
    cases h
  | leaf node =>
    intro node hnode hfilter c cs h
    obtain ⟨rfl, _⟩ := Filter.ofJson_eq_leaf hfilter
    obtain ⟨d, hd, rfl⟩ := parts_leaf h
    rw [List.flatMap_singleton]
    exact isJson_of_ofLeaf hd hnode
  | junction d left right ihleft ihright =>
    intro node hnode hfilter c cs h
    obtain ⟨_, hleft, hright⟩ := Filter.ofJson_eq_junction hfilter
    obtain ⟨first, second, hfirst, hsecond, rfl⟩ := parts_junction h
    rw [flatMap_values_joined]
    exact List.forall_mem_append.2 ⟨ihleft (hnode.field "left") hleft hfirst,
      ihright (hnode.field "right") hright hsecond⟩

theorem isJson_of_ofFilter {node : Value} (hnode : node.IsJson) {cs : List Condition}
    (h : ofFilter (Filter.ofJson node) = .ok cs) : ∀ v ∈ cs.flatMap values, v.IsJson := by
  rcases ofFilter_eq_ok h with ⟨_, rfl⟩ | hparts
  · exact List.forall_mem_nil _
  · exact isJson_of_parts hnode rfl hparts

mutual

theorem isJson_toJson : ∀ {c : Condition}, (∀ v ∈ c.values, v.IsJson) → c.toJson.IsJson
  | .comparison column operator value, h => by
    have hnames : ["type", "column", "operator", "value"].Nodup := by decide
    exact json_obj hnames ⟨json_str _, json_str _, json_str _, h value List.mem_cons_self⟩
  | .membership column values negated, h => by
    have hnames : ["type", "column", "values", "negated"].Nodup := by decide
    exact json_obj hnames ⟨json_str _, json_str _, .arr h, json_bool _⟩
  | .junction connective parts, h => by
    have hnames : ["type", "conditions"].Nodup := by decide
    exact json_obj hnames ⟨json_str _, .arr (isJson_toJsons h)⟩

theorem isJson_toJsons : ∀ {cs : List Condition}, (∀ v ∈ valuesIn cs, v.IsJson) →
    ∀ v ∈ toJsons cs, v.IsJson
  | [], _ => List.forall_mem_nil _
  | c :: rest, h => by
    obtain ⟨hc, hrest⟩ := List.forall_mem_append.1 h
    exact List.forall_mem_cons.2 ⟨isJson_toJson hc, isJson_toJsons hrest⟩

end

end Condition

/-! ## Sources and sinks -/

open Value (json_null json_bool json_str json_strs json_obj)

theorem SourceType.isShort_port (type : String) : Value.IsShort (port type) := by
  have hknown : known.all (fun k => decide (Value.IsShort (k.port.getD 8080))) = true := by
    decide +kernel
  rw [port]
  cases hfind : find? (normalForm type) with
  | none => decide
  | some k =>
    exact of_decide_eq_true (List.all_eq_true.1 hknown k (List.mem_of_find?_eq_some hfind))

theorem Connection.isJson_toJson {c : Connection} (henvironment : (c.environment.map Prod.fst).Nodup)
    (hdefaults : (Value.obj c.defaults).IsJson) : c.toJson.IsJson := by
  have hnames : ["env_vars", "defaults", "template_kind"].Nodup := by decide
  have hvariables : (Value.obj (c.environment.map fun v => (v.1, .str v.2))).IsJson := by
    refine .obj ?_ (List.forall_mem_map.2 fun v _ => json_str v.2)
    rw [List.map_map]
    exact henvironment
  exact json_obj hnames ⟨hvariables, hdefaults, json_str _⟩

theorem SourceType.isJson_connection (type : String) (table : Value) :
    (connection type table).toJson.IsJson := by
  unfold connection
  dsimp only
  cases category (normalForm type) with
  | file =>
    have hnames : ["file_path", "delimiter"].Nodup := by decide
    exact Connection.isJson_toJson hnames (json_obj hnames ⟨json_str _, json_str _⟩)
  | api =>
    have hnames : ["url", "username", "password"].Nodup := by decide
    have hdefaults : ["url"].Nodup := by decide
    exact Connection.isJson_toJson hnames (json_obj hdefaults (json_str _))
  | database =>
    have hnames : ["host", "port", "username", "password", "keyspace", "database"].Nodup := by decide
    have hdefaults : ["host", "port", "keyspace", "database"].Nodup := by decide
    exact Connection.isJson_toJson hnames (json_obj hdefaults
      ⟨json_str _, Value.isJson_int.2 (isShort_port _), json_null, json_null⟩)

theorem Watermark.isJson_toJson (w : Watermark) : w.toJson.IsJson := by
  have hnames : ["strategy", "uses_composite", "timestamp_based"].Nodup := by decide
  exact json_obj hnames ⟨json_str _, json_bool _, json_bool _⟩

theorem Source.connection_classify (type table schema : Value) :
    (classify type table schema).connection =
      SourceType.connection (SourceType.normalize type) table := by
  unfold classify
  dsimp only

theorem Source.isJson_toJson {s : Source} (htable : s.table.IsJson) (hschema : s.schema.IsJson)
    (hconnection : s.connection.toJson.IsJson) : s.toJson.IsJson := by
  have hnames : ["type", "table", "schema", "category", "connection", "watermark",
      "reserved_columns"].Nodup := by decide
  exact json_obj hnames ⟨json_str _, htable, hschema, json_str _, hconnection,
    Watermark.isJson_toJson _, json_strs _⟩

namespace Descriptor

theorem isJson_sinkOf {config : List (String × Value)} (hconfig : (Value.obj config).IsJson)
    {table : Value} (htable : table.IsJson) : (sinkOf config table).toJson.IsJson := by
  have hsink : (Value.fieldOf "sink" config).IsJson := hconfig.field "sink"
  have hnames : ["type", "table", "default_url", "category"].Nodup := by decide
  exact json_obj hnames ⟨json_str _, (hsink.field "table").orElse htable,
    (hsink.field "default_url").orElse (json_str _), json_str _⟩

/-! ## Descriptors -/

theorem isJson_of_tableOf {query : List (String × Value)} (hquery : (Value.obj query).IsJson)
    {table schema : Value} (h : tableOf query = .ok (table, schema)) :
    table.IsJson ∧ schema.IsJson := by
  have hfrom : (Value.fieldOf "from" query).IsJson := hquery.field "from"
  rw [tableOf] at h
  split at h
  · cases h
  · split at h
    · cases h
      exact ⟨hfrom.field "table", hfrom.field "schema"⟩
    · cases h

/-- **What is shown of a descriptor is JSON**, if the query and the configuration are. -/
theorem isJson_of_derived {query config : List (String × Value)} {d : Descriptor}
    (hquery : (Value.obj query).IsJson) (hconfig : (Value.obj config).IsJson)
    (h : Derived query config d) : d.toJson.IsJson := by
  obtain ⟨table, schema, htable, hsource⟩ := h.source
  obtain ⟨htable, hschema⟩ := isJson_of_tableOf hquery htable
  have hconditions := Condition.isJson_of_ofFilter (hquery.field "where") h.conditions
  rw [← Condition.valuesIn_eq_flatMap] at hconditions
  have hsource : d.source.table = table ∧ d.source.toJson.IsJson := by
    rw [hsource]
    refine ⟨rfl, Source.isJson_toJson htable hschema ?_⟩
    rw [Source.connection_classify]
    exact SourceType.isJson_connection _ table
  have hsink : d.sink.toJson.IsJson := by
    rw [h.sink, hsource.1]
    exact isJson_sinkOf hconfig htable
  have htimestamp : d.timestampColumn.IsJson := by
    rcases h.timestamp with htimestamp | ⟨name, htimestamp⟩
    · rw [htimestamp]
      exact hconfig.field "timestamp_column"
    · rw [htimestamp]
      exact json_str name
  have hid : d.idColumn.IsJson := by
    rw [h.id]
    exact (hconfig.field "id_column").orElse (json_str _)
  have hnames : ["source", "sink", "columns", "conditions", "timestamp_column", "id_column",
      "config"].Nodup := by decide
  exact json_obj hnames ⟨hsource.2, hsink, json_strs _,
    .arr (Condition.isJson_toJsons hconditions), htimestamp, hid, h.config ▸ hconfig⟩

theorem isJson_of_configOf {given settings : List (String × Value)}
    (hgiven : (Value.obj given).IsJson) (h : configOf (.obj given) = .ok settings) :
    (Value.obj settings).IsJson := by
  have hnames : (defaultConfig.map Prod.fst).Nodup := by decide
  have hdefaults : (Value.obj defaultConfig).IsJson :=
    json_obj hnames
      ⟨json_str _, json_str _, Value.isJson_int.2 (by decide), json_bool _, json_bool _⟩
  rw [configOf_eq_ok h]
  exact .override hnames hdefaults.of_obj.2 hgiven.of_obj.2

/-- The map of a query that is JSON itself. -/
theorem isJson_of_mapOf {query : Value} (hquery : query.IsJson) {map : List (String × Value)}
    (h : mapOf query = .ok map) : (Value.obj map).IsJson := by
  cases query with
  | obj fields =>
    cases h
    exact hquery
  | node shape fields => exact absurd hquery Value.not_isJson_node
  | arr items =>
    rcases items with _ | ⟨t, _ | ⟨u, rest⟩⟩
    · cases h
    · have ht := hquery.of_arr t List.mem_cons_self
      cases t with
      | obj fields =>
        cases h
        exact ht
      | node shape fields => exact absurd ht Value.not_isJson_node
      | _ => cases h
    · cases h
  | _ => cases h

theorem isJson_of_mapOf_toTree {text : String} {all : List Statement}
    (hparse : (Script.parse text).1 = .ok all) {map : List (String × Value)}
    (h : mapOf (Script.toTree all) = .ok map) : (Value.obj map).IsJson := by
  obtain ⟨s, rfl, hcanonical⟩ := mapOf_toTree h
  exact (Script.stored_of_parse hparse hcanonical).isJson

end Descriptor
end QueryPipeline
