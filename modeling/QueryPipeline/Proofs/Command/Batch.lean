import QueryPipeline.Proofs.Command.Stored
import QueryPipeline.Proofs.Descriptor.Shown
import QueryPipeline.Proofs.Json.Sound

/-!
# Batches

The entries of a batch are described one after the other, and all that one passes on to the next are
its notes.  So a batch comes out as its entries do on their own (`descriptorOf`), taken together:
all descriptors, or the error of the first entry that has none (`outcome_describeAll`).

The settings of a pipeline come in layers.  `settingOf` looks a setting up from the top layer down,
in what an entry and the common configuration give; below them are the defaults.

What is printed for a batch is read back as a list in which each descriptor is shown with all of its
fields (`read_batchText`).  For this the descriptors have to be JSON, which they are because all
that goes into them was read from a file or from SQL.
-/

namespace QueryPipeline

/-! ## Outcomes of steps -/

section Outcome

variable {ε σ α β : Type}

theorem outcome_bind {x : EStateM ε σ α} {f : α → EStateM ε σ β} {r : Except ε α}
    {g : α → Except ε β} {s : σ} (hx : outcome (x s) = r) (hf : ∀ a t, outcome (f a t) = g a) :
    outcome ((x >>= f) s) = r >>= g := by
  subst hx
  change outcome (EStateM.bind x f s) = _
  rw [EStateM.bind]
  cases x s with
  | ok a t => exact hf a t
  | error e t => rfl

/-- All that comes out of some work, if anything does, has a property. -/
def Yields (P : α → Prop) (x : EStateM ε σ α) : Prop :=
  ∀ s a t, x s = .ok a t → P a

theorem Yields.bind {P : α → Prop} {Q : β → Prop} {x : EStateM ε σ α} {f : α → EStateM ε σ β}
    (hx : Yields P x) (hf : ∀ a, P a → Yields Q (f a)) : Yields Q (x >>= f) := by
  intro s b u h
  change EStateM.bind x f s = _ at h
  rw [EStateM.bind] at h
  cases hrun : x s with
  | ok a t =>
    rw [hrun] at h
    exact hf a (hx s a t hrun) t b u h
  | error e t =>
    rw [hrun] at h
    cases h

theorem yields_pure {P : α → Prop} {a : α} (h : P a) : Yields P (pure a : EStateM ε σ α) := by
  intro s b t hrun
  cases hrun
  exact h

theorem yields_throw {P : α → Prop} (e : ε) : Yields P (throw e : EStateM ε σ α) := by
  intro s b t hrun
  cases hrun

end Outcome

namespace Command.Describe

/-! ## An entry on its own -/

/-- The SQL of an entry, empty if it has none. -/
def textOf (entry : List (String × Value)) : String :=
  match Value.fieldOf "sql" entry with
  | .str text => text
  | _ => ""

/-- The configuration that an entry has of its own. -/
def ownConfig (entry : List (String × Value)) : List (String × Value) :=
  match Value.fieldOf "config" entry with
  | .obj own => own
  | _ => []

/-- If an entry has SQL, it is a text or null, and if it has a configuration, it is an object or
null. -/
structure IsEntry (entry : List (String × Value)) : Prop where
  sql : Value.fieldOf "sql" entry = .null ∨ ∃ text, Value.fieldOf "sql" entry = .str text
  config : Value.fieldOf "config" entry = .null ∨ ∃ own, Value.fieldOf "config" entry = .obj own

/-- A setting of an entry: the one of its own configuration, or else, for the name of the project,
the name of the entry, or else the one of the common configuration. -/
def settingOf (base entry : List (String × Value)) (key : String) : Option Value :=
  let name := Value.fieldOf "name" entry
  ((ownConfig entry).lookup key).or
    ((if key = "project_name" ∧ name.truthy = true then some name else none).or (base.lookup key))

/-- The descriptor of an entry: of its canonical form if there is one, or else of its SQL. -/
def descriptorOf (base entry : List (String × Value)) : Except QueryError Descriptor :=
  let config := Value.obj (entryConfig base entry (ownConfig entry))
  match entry.lookup "ast" with
  | some ast => (outcome (Descriptor.build ast config [])).mapError .unbuildable
  | none => (Descriptor.ofText (textOf entry) config).1

/-- The errors that are reported, with the line that reports them. -/
inductive Reported : QueryError → String → Prop
  | query {e : SyntaxError} : unreported? e = none → Reported (.unreadable e) (invalidQuery e)
  | pipeline (p : Problem) : Reported (.unbuildable (.problem p)) (invalidPipeline p)

/-- How an error stops the command. -/
def stopOf : QueryError → Stop
  | .unreadable e =>
    match unreported? e with
    | some error => .crashed (.parse error)
    | none => .invalid (invalidQuery e)
  | .unbuildable (.problem p) => .invalid (invalidPipeline p)
  | .unbuildable e => .crashed (.pipeline e)

theorem Reported.stopOf_eq {e : QueryError} {report : String} (h : Reported e report) :
    stopOf e = .invalid report := by
  cases h with
  | query he => rw [stopOf, he]
  | pipeline p => rfl

/-- The query of an entry. -/
def IsQueryOf (entry : List (String × Value)) (query : Value) : Prop :=
  entry.lookup "ast" = some query ∨
    ∃ all, (Script.parse (textOf entry)).1 = .ok all ∧ query = Script.toTree all

/-- The descriptor of an entry is built from its query. -/
theorem build_of_descriptorOf {base entry : List (String × Value)} {d : Descriptor}
    (h : descriptorOf base entry = .ok d) :
    ∃ query s u, IsQueryOf entry query ∧
      Descriptor.build query (.obj (entryConfig base entry (ownConfig entry))) s = .ok d u := by
  rw [descriptorOf] at h
  split at h
  next ast hast =>
    cases hbuild : Descriptor.build ast (.obj (entryConfig base entry (ownConfig entry))) [] with
    | ok d' u =>
      rw [hbuild] at h
      cases h
      exact ⟨ast, [], u, .inl hast, hbuild⟩
    | error e u =>
      rw [hbuild] at h
      cases h
  · obtain ⟨all, s, u, hparse, hbuild⟩ := Descriptor.build_of_ofText (Prod.ext h rfl)
    exact ⟨Script.toTree all, s, u, .inr ⟨all, hparse, rfl⟩, hbuild⟩

/-! ## Settings -/

/-- The fields have different names. -/
abbrev DistinctNames (fields : List (String × Value)) : Prop :=
  (fields.map Prod.fst).Nodup

section Settings

variable {base entry : List (String × Value)}

theorem distinct_entryConfig (hbase : DistinctNames base) (own : List (String × Value)) :
    DistinctNames (entryConfig base entry own) := by
  rw [entryConfig]
  refine Value.nodup_override ?_ _
  split
  · exact Value.nodup_put _ _ hbase
  · exact hbase

variable (hown : DistinctNames (ownConfig entry))
include hown

/-- **The configuration of an entry has its layers.** -/
theorem lookup_entryConfig (key : String) :
    (entryConfig base entry (ownConfig entry)).lookup key = settingOf base entry key := by
  rw [entryConfig, settingOf, Value.lookup_override hown]
  by_cases hname : (Value.fieldOf "name" entry).truthy = true
  · rw [if_pos hname, Value.lookup_put]
    by_cases hkey : key = "project_name"
    · rw [if_pos hkey, if_pos ⟨hkey, hname⟩]
      rfl
    · rw [if_neg hkey, if_neg fun h => hkey h.1]
      rfl
  · rw [if_neg hname, if_neg fun h => hname h.2]
    rfl

/-- **The configuration of a descriptor has these layers, and the defaults below them.** -/
theorem lookup_config (hbase : DistinctNames base) {d : Descriptor}
    (h : descriptorOf base entry = .ok d) (key : String) :
    d.config.lookup key =
      (settingOf base entry key).or (Descriptor.defaultConfig.lookup key) := by
  obtain ⟨query, _, _, _, hbuild⟩ := build_of_descriptorOf h
  obtain ⟨_, settings, _, hsettings, hderived⟩ := Descriptor.build_eq_ok hbuild
  rw [hderived.config, Descriptor.configOf_eq_ok hsettings,
    Value.lookup_override (distinct_entryConfig hbase _), lookup_entryConfig hown]

end Settings

/-! ## Entries that are JSON -/

/-- The fields make up an object that is JSON. -/
abbrev AreJson (fields : List (String × Value)) : Prop :=
  (Value.obj fields).IsJson

theorem AreJson.put {fields : List (String × Value)} (h : AreJson fields) (key : String) {v : Value}
    (hv : v.IsJson) : AreJson (Value.put key v fields) :=
  Value.MadeOf.put h.of_obj.1 h.of_obj.2 key hv

theorem areJson_nil : AreJson [] :=
  .obj List.nodup_nil (List.forall_mem_nil _)

section Json

variable {base entry : List (String × Value)} (hentry : AreJson entry)
include hentry

theorem areJson_ownConfig : AreJson (ownConfig entry) := by
  have hconfig : (Value.fieldOf "config" entry).IsJson := hentry.field "config"
  rw [ownConfig]
  split
  next own hown =>
    rw [hown] at hconfig
    exact hconfig
  · exact areJson_nil

variable (hbase : AreJson base)
include hbase

theorem areJson_entryConfig : AreJson (entryConfig base entry (ownConfig entry)) := by
  have hnamed : AreJson (if (Value.fieldOf "name" entry).truthy then
      Value.put "project_name" (Value.fieldOf "name" entry) base else base) := by
    split
    · exact hbase.put "project_name" (hentry.field "name")
    · exact hbase
  exact .override hnamed.of_obj.1 hnamed.of_obj.2 (areJson_ownConfig hentry).of_obj.2

/-- **What is shown of the descriptor of an entry is JSON**, if all that was given is. -/
theorem isJson_of_descriptorOf {d : Descriptor} (h : descriptorOf base entry = .ok d) :
    d.toJson.IsJson := by
  obtain ⟨query, _, _, hquery, hbuild⟩ := build_of_descriptorOf h
  obtain ⟨map, settings, hmap, hsettings, hderived⟩ := Descriptor.build_eq_ok hbuild
  have hjson : AreJson map := by
    rcases hquery with hast | ⟨all, hparse, rfl⟩
    · have hjson : (Value.fieldOf "ast" entry).IsJson := hentry.field "ast"
      rw [Value.fieldOf, hast] at hjson
      exact Descriptor.isJson_of_mapOf hjson hmap
    · exact Descriptor.isJson_of_mapOf_toTree hparse hmap
  have hconfig := Descriptor.isJson_of_configOf (areJson_entryConfig hentry hbase) hsettings
  exact Descriptor.isJson_of_derived hjson hconfig hderived

end Json

/-! ## Describing entries -/

theorem outcome_buildFrom (query : Value) (config : List (String × Value)) (s t : List Note) :
    outcome (buildFrom query config s) =
      ((outcome (Descriptor.build query (.obj config) t)).mapError .unbuildable).mapError stopOf := by
  rw [buildFrom]
  rcases (Descriptor.agree_build rfl (.obj config)).cases s t with
    ⟨d, u, v, hx, hy⟩ | ⟨e, u, v, hx, hy⟩
  · rw [hx, hy]
    rfl
  · rw [hx, hy]
    cases e <;> rfl

theorem outcome_ofText (text : String) (config : List (String × Value)) (s : List Note) :
    outcome ((queryOfText text >>= fun query => buildFrom query config) s) =
      (Descriptor.ofText text (.obj config)).1.mapError stopOf := by
  rw [queryOfText, Descriptor.ofText]
  rcases Script.parse text with ⟨result, notes⟩
  cases result with
  | error e =>
    change _ = Except.error (stopOf (.unreadable e))
    dsimp only
    rw [stopOf]
    cases unreported? e <;> rfl
  | ok all =>
    change outcome (buildFrom (Script.toTree all) config (s ++ notes)) = _
    rw [outcome_buildFrom _ _ _ notes]
    dsimp only
    cases Descriptor.build (Script.toTree all) (.obj config) notes <;> rfl

theorem queryOf_sql {entry : List (String × Value)} (h : IsEntry entry)
    (hast : entry.lookup "ast" = none) : queryOf entry = queryOfText (textOf entry) := by
  rw [queryOf, hast, textOf]
  rcases h.sql with hsql | ⟨text, hsql⟩
  · rw [hsql]
    rfl
  · rw [hsql]
    change queryOfSql (.str text) = queryOfText text
    rw [queryOfSql, Value.orElse]
    by_cases htext : text = ""
    · rw [htext]
      rfl
    · rw [if_pos (by simpa [Value.truthy] using htext)]

/-- **An entry comes out in a batch as it does on its own.** -/
theorem outcome_describeEntry {entry : List (String × Value)} (h : IsEntry entry)
    (base : List (String × Value)) (index total : Nat) (s : List Note) :
    outcome (describeEntry base index total entry s) =
      (descriptorOf base entry).mapError stopOf := by
  have hsteps : describeEntry base index total entry =
      (modify (· ++ [.describing index total]) >>= fun _ => queryOf entry >>= fun query =>
        buildFrom query (entryConfig base entry (ownConfig entry))) := by
    rw [describeEntry, ownConfig]
    rcases h.config with hconfig | ⟨own, hconfig⟩
    · rw [hconfig]
      rfl
    · rw [hconfig]
      rfl
  rw [hsteps, descriptorOf]
  change outcome ((queryOf entry >>= fun query =>
    buildFrom query (entryConfig base entry (ownConfig entry))) (s ++ [.describing index total])) = _
  cases hast : entry.lookup "ast" with
  | some ast =>
    rw [queryOf, hast]
    exact outcome_buildFrom _ _ _ []
  | none =>
    rw [queryOf_sql h hast]
    exact outcome_ofText _ _ _

/-- **A batch comes out as its entries do**, one after the other. -/
theorem outcome_describeAll {entries : List (List (String × Value))}
    (h : ∀ entry ∈ entries, IsEntry entry) (base : List (String × Value)) (total : Nat) :
    ∀ index s, outcome (describeAll base total index entries s) =
      (entries.mapM (descriptorOf base)).mapError stopOf := by
  induction entries with
  | nil =>
    intro index s
    rfl
  | cons entry rest ih =>
    intro index s
    obtain ⟨hentry, hrest⟩ := List.forall_mem_cons.1 h
    rw [List.mapM_cons, mapError_bind]
    refine outcome_bind (outcome_describeEntry hentry base index total s) fun d t => ?_
    rw [mapError_bind]
    exact outcome_bind (ih hrest (index + 1) t) fun ds u => rfl

/-! ## Files and options -/

theorem yields_load (files : Files) (name : String) : Yields Value.IsJson (load files name) := by
  unfold load
  dsimp only
  split
  · exact yields_throw _
  · split
    next hread => exact yields_pure (Json.read_isJson hread)
    · exact yields_throw _
    · exact yields_throw _

theorem yields_loadConfig (files : Files) (arguments : Arguments) :
    Yields AreJson (loadConfig files arguments) := by
  unfold loadConfig
  split
  · exact yields_pure areJson_nil
  · refine (yields_load files _).bind fun v hv => ?_
    split
    · exact yields_pure hv
    · exact yields_throw _

theorem yields_overrideSink (type : String) {config : List (String × Value)} (h : AreJson config) :
    Yields AreJson (overrideSink type config) := by
  have hsink : (Value.fieldOf "sink" config).IsJson := h.field "sink"
  unfold overrideSink
  dsimp only
  split
  next fields hfields =>
    rw [hfields] at hsink
    exact yields_pure (h.put "sink" (AreJson.put hsink "type" (Value.json_str type)))
  · split
    · exact yields_throw _
    · exact yields_pure (h.put "sink" (areJson_nil.put "type" (Value.json_str type)))

/-- A common configuration is JSON. -/
theorem yields_configOf (files : Files) (arguments : Arguments) :
    Yields AreJson (configOf files arguments) := by
  have hput : ∀ (key name : String) {config : List (String × Value)}, AreJson config →
      AreJson (Value.put key (.str name) config) :=
    fun key name _ h => h.put key (Value.json_str name)
  refine (yields_loadConfig files arguments).bind fun file hfile => ?_
  dsimp only
  cases arguments.value? "--sink-type" with
  | some type =>
    refine (yields_overrideSink type ?_).bind fun config hconfig => ?_
    · split
      · exact hput _ _ hfile
      · exact hfile
    · split
      · exact yields_pure (hput _ _ hconfig)
      · exact yields_pure hconfig
  | none =>
    refine (yields_pure (P := AreJson) ?_).bind fun config hconfig => ?_
    · split
      · exact hput _ _ hfile
      · exact hfile
    · split
      · exact yields_pure (hput _ _ hconfig)
      · exact yields_pure hconfig

theorem objects?_map (entries : List (List (String × Value))) :
    objects? (entries.map .obj) = some entries := by
  induction entries with
  | nil => rfl
  | cons entry rest ih =>
    rw [List.map_cons, objects?, ih]
    rfl

/-! ## Batches -/

/-- The arguments ask for the JSON of a batch, and the files give a common configuration and the
entries. -/
structure Batch (files : Files) (arguments : Arguments) (base : List (String × Value))
    (entries : List (List (String × Value))) : Prop where
  json : arguments.has "--json" = true
  common : configOf files arguments [] = .ok base []
  loaded : ∃ name batch, arguments.value? "--batch" = some name ∧ load files name [] = .ok batch [] ∧
    batch.field "pipelines" = .arr (entries.map .obj)

/-- What is printed for the descriptors of a batch. -/
def batchText (descriptors : List Descriptor) : String :=
  Json.write Json.indented (.arr (descriptors.map Descriptor.toJson)) ++ "\n"

theorem read_batchText {ds : List Descriptor} (h : ∀ d ∈ ds, d.toJson.IsJson) :
    Json.read (batchText ds) = .ok (.arr (ds.map Descriptor.toJson)) :=
  Json.read_written Json.indented (.arr (List.forall_mem_map.2 h))

theorem isShownAs_map (ds : List Descriptor) :
    List.Forall₂ Descriptor.IsShownAs ds (ds.map Descriptor.toJson) := by
  rw [List.forall₂_map_right_iff]
  exact List.forall₂_same.2 fun d _ => d.isShownAs_toJson

namespace Batch

variable {files : Files} {arguments : Arguments} {base : List (String × Value)}
  {entries : List (List (String × Value))} (h : Batch files arguments base entries)
include h

theorem json_base : AreJson base :=
  yields_configOf files arguments [] base [] h.common

theorem json_entry {entry : List (String × Value)} (hentry : entry ∈ entries) : AreJson entry := by
  obtain ⟨name, batch, _, hload, hpipelines⟩ := h.loaded
  have hbatch : batch.IsJson := yields_load files name [] batch [] hload
  have hitems : (Value.arr (entries.map .obj)).IsJson := hpipelines ▸ hbatch.field "pipelines"
  exact hitems.of_arr (.obj entry) (List.mem_map_of_mem hentry)

theorem json_descriptors {ds : List Descriptor}
    (hds : List.Forall₂ (descriptorOf base · = .ok ·) entries ds) : ∀ d ∈ ds, d.toJson.IsJson := by
  intro d hd
  obtain ⟨i, hi, rfl⟩ := List.mem_iff_getElem.1 hd
  have hlength := hds.length_eq
  exact isJson_of_descriptorOf (h.json_entry (List.getElem_mem (hlength ▸ hi))) h.json_base
    (hds.get (hlength ▸ hi) hi)

theorem entriesOf_eq : entriesOf files arguments [] = .ok entries [] := by
  obtain ⟨name, batch, hname, hload, hpipelines⟩ := h.loaded
  rw [entriesOf, hname]
  change EStateM.bind (load files name) _ [] = _
  rw [EStateM.bind, hload]
  dsimp only
  rw [hpipelines]
  dsimp only
  rw [objects?_map]
  rfl

theorem output_eq (descriptors : List Descriptor) :
    output arguments descriptors ++ "\n" = batchText descriptors := by
  obtain ⟨name, _, hname, _⟩ := h.loaded
  rw [output, if_pos h.json, hname]
  rfl

theorem outcome_work (hentries : ∀ entry ∈ entries, IsEntry entry) :
    outcome (work files arguments []) =
      (entries.mapM (descriptorOf base)).mapError stopOf >>= fun ds => .ok (batchText ds) := by
  rw [work]
  change outcome (EStateM.bind (configOf files arguments) _ []) = _
  rw [EStateM.bind, h.common]
  change outcome (EStateM.bind (entriesOf files arguments) _ []) = _
  rw [EStateM.bind, h.entriesOf_eq]
  refine outcome_bind (outcome_describeAll hentries base entries.length 1 []) fun ds t => ?_
  rw [← h.output_eq]
  rfl

variable {argv : List String} (harguments : parseArguments declarations false argv = .ok arguments)
  (hentries : ∀ entry ∈ entries, IsEntry entry)
include harguments hentries

/-- **If all entries have descriptors, all are printed.** -/
theorem run_of_ok {ds : List Descriptor} (hds : entries.mapM (descriptorOf base) = .ok ds) :
    (run files argv).withoutLog = .done 0 (batchText ds) [] := by
  have hwork := h.outcome_work hentries
  rw [hds] at hwork
  rw [run, harguments]
  cases hrun : work files arguments [] with
  | ok text notes =>
    rw [hrun] at hwork
    cases hwork
    simp only [hrun]
    rfl
  | error e notes =>
    rw [hrun] at hwork
    cases hwork

/-- **The error of a batch is all that is printed.** -/
theorem run_of_error {e : QueryError} {report : String}
    (he : entries.mapM (descriptorOf base) = .error e) (hreport : Reported e report) :
    (run files argv).withoutLog = .done 1 report [] := by
  have hwork := h.outcome_work hentries
  rw [he] at hwork
  change _ = Except.error (stopOf e) at hwork
  rw [hreport.stopOf_eq] at hwork
  rw [run, harguments]
  cases hrun : work files arguments [] with
  | ok text notes =>
    rw [hrun] at hwork
    cases hwork
  | error stop notes =>
    rw [hrun] at hwork
    cases hwork
    simp only [hrun]
    rfl

end Batch

end Command.Describe
end QueryPipeline
