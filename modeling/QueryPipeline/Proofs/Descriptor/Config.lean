import QueryPipeline.Proofs.Descriptor.Expressible
import QueryPipeline.Proofs.Value.Override

/-!
# The configuration of a descriptor

A configuration is checked as it is given, and then put over the defaults.  So each name is looked
up among the given fields first and among the defaults after that:

    d.config.lookup key = (given.lookup key).or (defaultConfig.lookup key)

`Effective` says what follows for a descriptor.  A null passes the check of the batch size, as if
there were none, but it stands in the way of the default.  Only such a configuration leaves a
descriptor without a batch size.
-/

namespace QueryPipeline.Descriptor

/-- The fields that a configuration gives. -/
def givenBy : Value → List (String × Value)
  | .obj given => given
  | _ => []

/-- No field is given twice, as in all JSON. -/
def GivenOnce (config : Value) : Prop :=
  ((givenBy config).map Prod.fst).Nodup

/-! ## Accepted configurations -/

theorem isObj_iff {v : Value} : v.isObj = true ↔ ∃ fields, v = .obj fields := by
  cases v <;> simp [Value.isObj]

theorem isBatchSize_iff {v : Value} :
    isBatchSize v = true ↔ v = .null ∨ ∃ size : Int, v = .int size ∧ 0 < size := by
  cases v <;> simp [isBatchSize]

/-- **A configuration that is accepted passes its checks**, and is put over the defaults. -/
theorem isConfig_of_configOf {config : Value} {settings : List (String × Value)}
    (h : configOf config = .ok settings) :
    IsConfig config ∧ settings = Value.override defaultConfig (givenBy config) := by
  cases config with
  | null =>
    cases h
    exact ⟨trivial, rfl⟩
  | obj given =>
    refine ⟨?_, configOf_eq_ok h⟩
    rw [configOf] at h
    dsimp only at h
    split at h
    · cases h
    next hsink =>
      split at h
      · cases h
      next hsize =>
        refine ⟨?_, isBatchSize_iff.1 (by simpa using hsize)⟩
        by_cases hnull : Value.fieldOf "sink" given = .null
        · exact .inl hnull
        · refine .inr (isObj_iff.1 ?_)
          simpa [hnull] using hsink
  | _ => cases h

/-! ## Effective configurations -/

/-- What a configuration comes to: each field that is given is kept, and each default stands in for
a field that is not.  The sink is a map, if there is one, and the batch size is a positive number
unless it is given as null. -/
structure Effective (given settings : List (String × Value)) : Prop where
  names : ∀ key, (settings.lookup key).isSome ↔
    (given.lookup key).isSome ∨ (defaultConfig.lookup key).isSome
  kept : ∀ key value, given.lookup key = some value → settings.lookup key = some value
  filled : ∀ key, given.lookup key = none → settings.lookup key = defaultConfig.lookup key
  sink : Value.fieldOf "sink" settings = .null ∨
    ∃ sink, Value.fieldOf "sink" settings = .obj sink
  batchSize : (∃ size : Int, settings.lookup "batch_size" = some (.int size) ∧ 0 < size) ↔
    given.lookup "batch_size" ≠ some .null

/-- The batch size that is found where a valid one, or none, is given. -/
theorem batchSize_or_default {found : Option Value}
    (h : found.getD .null = .null ∨ ∃ size : Int, found.getD .null = .int size ∧ 0 < size) :
    (∃ size : Int, found.or (some (.int 5000)) = some (.int size) ∧ 0 < size) ↔
      found ≠ some .null := by
  cases found with
  | none => exact ⟨fun _ => by simp, fun _ => ⟨5000, rfl, by decide⟩⟩
  | some v =>
    rcases h with hnull | ⟨size, hsize, hpos⟩
    · change v = .null at hnull
      subst hnull
      simp
    · change v = .int size at hsize
      subst hsize
      simp [hpos]

theorem effective_override {config : Value} (hgiven : GivenOnce config)
    (hconfig : IsConfig config) :
    Effective (givenBy config) (Value.override defaultConfig (givenBy config)) := by
  have hlookup : ∀ key, (Value.override defaultConfig (givenBy config)).lookup key =
      ((givenBy config).lookup key).or (defaultConfig.lookup key) := Value.lookup_override hgiven
  have hchecks :
      (Value.fieldOf "sink" (givenBy config) = .null ∨
        ∃ sink, Value.fieldOf "sink" (givenBy config) = .obj sink) ∧
      (Value.fieldOf "batch_size" (givenBy config) = .null ∨
        ∃ size : Int, Value.fieldOf "batch_size" (givenBy config) = .int size ∧ 0 < size) := by
    cases config with
    | null => exact ⟨.inl rfl, .inl rfl⟩
    | obj given => exact hconfig
    | _ => exact hconfig.elim
  refine ⟨fun key => ?_, fun key value hvalue => ?_, fun key hnone => ?_, ?_, ?_⟩
  · rw [hlookup, Option.isSome_or, Bool.or_eq_true]
  · rw [hlookup, hvalue, Option.some_or]
  · rw [hlookup, hnone, Option.none_or]
  · have hsink : Value.fieldOf "sink" (Value.override defaultConfig (givenBy config)) =
        Value.fieldOf "sink" (givenBy config) := by
      have hdefault : defaultConfig.lookup "sink" = none := rfl
      rw [Value.fieldOf, hlookup, hdefault, Option.or_none, Value.fieldOf]
    rw [hsink]
    exact hchecks.1
  · rw [hlookup]
    exact batchSize_or_default hchecks.2

/-- **Every descriptor carries an effective configuration**, be it built from a tree, a map or a
text. -/
theorem config_effective {config : Value} (hgiven : GivenOnce config) {d : Descriptor}
    (hbuilt : (∃ query s u, build query config s = .ok d u) ∨
      ∃ text notes, ofText text config = (.ok d, notes)) :
    Effective (givenBy config) d.config := by
  have hsettings : configOf config = .ok d.config := by
    obtain ⟨query, s, u, h⟩ | ⟨text, notes, h⟩ := hbuilt
    · obtain ⟨_, settings, _, hsettings, hderived⟩ := build_eq_ok h
      rw [hderived.config, hsettings]
    · obtain ⟨_, settings, _, hsettings, hderived⟩ := ofText_eq_ok h
      rw [hderived.config, hsettings]
  obtain ⟨hconfig, heq⟩ := isConfig_of_configOf hsettings
  rw [heq]
  exact effective_override hgiven hconfig

/-- A batch size, a name that is not known and a sink of null are kept, and the other defaults are
filled in. -/
theorem config_effective_given :
    let config : Value := .obj [("batch_size", .int 7), ("owner", .str "me"), ("sink", .null)]
    GivenOnce config ∧ ∃ d notes, ofText "SELECT id FROM t" config = (.ok d, notes) ∧
      d.config =
        [("project_name", .str "generated-pipeline"), ("namespace", .str "pipeline"),
         ("batch_size", .int 7), ("watermark_enabled", .bool true), ("incremental", .bool true),
         ("owner", .str "me"), ("sink", .null)] ∧
      Effective (givenBy config) d.config := by
  intro config
  have hgiven : GivenOnce config := by
    show ["batch_size", "owner", "sink"].Nodup
    decide
  have hrun : (ofText "SELECT id FROM t" config).1.map Descriptor.config =
      .ok [("project_name", .str "generated-pipeline"), ("namespace", .str "pipeline"),
         ("batch_size", .int 7), ("watermark_enabled", .bool true), ("incremental", .bool true),
         ("owner", .str "me"), ("sink", .null)] := by
    decide +kernel
  obtain ⟨d, notes, htext, hconfig⟩ := ofText_of_map hrun
  exact ⟨hgiven, d, notes, htext, hconfig, config_effective hgiven (.inr ⟨_, notes, htext⟩)⟩

/-- A null in the place of the batch size stays there, and is no number. -/
theorem config_null_batchSize :
    ∃ d notes, ofText "SELECT id FROM t" (.obj [("batch_size", .null)]) = (.ok d, notes) ∧
      ¬∃ size : Int, d.config.lookup "batch_size" = some (.int size) := by
  have hrun : (ofText "SELECT id FROM t" (.obj [("batch_size", .null)])).1.map
      (fun d => d.config.lookup "batch_size") = .ok (some .null) := by
    decide +kernel
  obtain ⟨d, notes, htext, hsize⟩ := ofText_of_map hrun
  refine ⟨d, notes, htext, ?_⟩
  rintro ⟨size, h⟩
  rw [hsize] at h
  cases h

end QueryPipeline.Descriptor
