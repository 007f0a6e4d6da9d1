import QueryPipeline.Command.Describe
import QueryPipeline.Command.Parse
import QueryPipeline.Proofs.Canonical.Stored
import QueryPipeline.Proofs.Command.Arguments
import QueryPipeline.Proofs.Descriptor.Build
import QueryPipeline.Proofs.Json.Read

/-!
# Stored queries

A query can be described from its text, or from the file in which its canonical form was stored by
the parse command.  Both ways come to the same end:

    parse text → tree ────────────────────────────→ map → descriptor
                   └→ canonical form → JSON → value ↗

They differ in the notes that are taken, so work is compared by what comes out of it (`Agree`), for
any notes before it.
-/

namespace QueryPipeline

/-! ## Work up to notes -/

section Agree

variable {ε σ α β : Type}

/-- What comes out of some work, without the notes. -/
def outcome : EStateM.Result ε σ α → Except ε α
  | .ok a _ => .ok a
  | .error e _ => .error e

/-- The same comes out of two pieces of work, whatever notes there are before. -/
def Agree (x y : EStateM ε σ α) : Prop :=
  ∀ s t, outcome (x s) = outcome (y t)

theorem Agree.cases {x y : EStateM ε σ α} (h : Agree x y) (s t : σ) :
    (∃ a u v, x s = .ok a u ∧ y t = .ok a v) ∨ ∃ e u v, x s = .error e u ∧ y t = .error e v := by
  have houtcome := h s t
  cases hx : x s with
  | ok a u =>
    cases hy : y t with
    | ok b v =>
      rw [hx, hy] at houtcome
      cases houtcome
      exact .inl ⟨a, u, v, rfl, rfl⟩
    | error e v =>
      rw [hx, hy] at houtcome
      cases houtcome
  | error e u =>
    cases hy : y t with
    | ok b v =>
      rw [hx, hy] at houtcome
      cases houtcome
    | error e' v =>
      rw [hx, hy] at houtcome
      cases houtcome
      exact .inr ⟨e, u, v, rfl, rfl⟩

theorem Agree.bind {x y : EStateM ε σ α} {f g : α → EStateM ε σ β} (h : Agree x y)
    (hf : ∀ a, Agree (f a) (g a)) : Agree (x >>= f) (y >>= g) := by
  intro s t
  show outcome (EStateM.bind x f s) = outcome (EStateM.bind y g t)
  rw [EStateM.bind, EStateM.bind]
  rcases h.cases s t with ⟨a, u, v, hx, hy⟩ | ⟨e, u, v, hx, hy⟩
  · rw [hx, hy]
    exact hf a u v
  · rw [hx, hy]
    rfl

theorem agree_pure (a : α) : Agree (pure a : EStateM ε σ α) (pure a) :=
  fun _ _ => rfl

theorem agree_throw (e : ε) : Agree (throw e : EStateM ε σ α) (throw e) :=
  fun _ _ => rfl

theorem agree_modify (f g : σ → σ) : Agree (modify f : EStateM ε σ PUnit) (modify g) :=
  fun _ _ => rfl

theorem Agree.modify_bind {x y : EStateM ε σ α} (h : Agree x y) (f : σ → σ) :
    Agree (modify f >>= fun _ => x) y :=
  fun s t => h (f s) t

end Agree

/-! ## Building -/

namespace Descriptor

theorem agree_attempt {α : Type} (r : Except PipelineError α) : Agree (attempt r) (attempt r) := by
  cases r with
  | ok a => exact agree_pure a
  | error e => exact agree_throw e

theorem agree_timestampOf (config : List (String × Value)) (filter : Filter) :
    Agree (timestampOf config filter) (timestampOf config filter) := by
  rw [timestampOf]
  split
  · exact (agree_modify _ _).bind fun _ => agree_pure _
  · refine (agree_attempt _).bind fun found => ?_
    split
    · exact (agree_modify _ _).bind fun _ => agree_pure _
    · exact (agree_modify _ _).bind fun _ => agree_pure _

theorem agree_derive (query config : List (String × Value)) :
    Agree (derive query config) (derive query config) := by
  refine (agree_attempt _).bind fun table => ?_
  refine (agree_modify _ _).bind fun _ => (agree_modify _ _).bind fun _ => ?_
  refine (agree_attempt _).bind fun columns => (agree_attempt _).bind fun conditions => ?_
  refine (agree_timestampOf _ _).bind fun timestamp => ?_
  exact (agree_modify _ _).bind fun _ => agree_pure _

/-- Queries with the same map have the same descriptor. -/
theorem agree_build {query other : Value} (h : mapOf query = mapOf other) (config : Value) :
    Agree (build query config) (build other config) := by
  rw [build, build, h]
  exact (agree_attempt _).bind fun map => (agree_attempt _).bind fun settings =>
    agree_derive map settings

/-- The canonical form of the statements of a text has the map that their tree has. -/
theorem mapOf_canonical {text : String} {all : List Statement} {c : Value}
    (hparse : (Script.parse text).1 = .ok all) (hc : (Script.toTree all).canonical = .ok c) :
    mapOf (Script.toTree all) = mapOf c := by
  obtain rfl := Script.eq_form_of_parse hparse hc
  match all with
  | [] => rfl
  | [s] =>
    obtain ⟨map, hmap⟩ : ∃ map, s.form = .obj map := by cases s <;> exact ⟨_, rfl⟩
    have hform : Script.form [s] = .obj map := hmap
    rw [hform] at hc ⊢
    exact mapOf_single.2 hc
  | s :: t :: rest =>
    show Except.error (PipelineError.problem (.statementCount _)) = .error (.problem (.statementCount _))
    simp

end Descriptor

namespace Command.Describe

/-! ## Describing -/

theorem agree_buildFrom {query other : Value} (h : Descriptor.mapOf query = Descriptor.mapOf other)
    (config : List (String × Value)) : Agree (buildFrom query config) (buildFrom other config) := by
  intro s t
  rw [buildFrom, buildFrom]
  rcases (Descriptor.agree_build h (.obj config)).cases s t with
    ⟨d, u, v, hx, hy⟩ | ⟨e, u, v, hx, hy⟩
  · rw [hx, hy]
    rfl
  · rw [hx, hy]
    cases e <;> rfl

theorem agree_load (files : Files) (name : String) : Agree (load files name) (load files name) := by
  unfold load
  dsimp only
  split
  · exact agree_throw _
  · split
    · exact agree_pure _
    · exact agree_throw _
    · exact agree_throw _

theorem agree_loadConfig (files : Files) (arguments : Arguments) :
    Agree (loadConfig files arguments) (loadConfig files arguments) := by
  unfold loadConfig
  split
  · exact agree_pure _
  · refine (agree_load files _).bind fun v => ?_
    split
    · exact agree_pure _
    · exact agree_throw _

theorem agree_overrideSink (type : String) (config : List (String × Value)) :
    Agree (overrideSink type config) (overrideSink type config) := by
  unfold overrideSink
  dsimp only
  split
  · exact (agree_pure _).bind fun fields => agree_pure _
  · split
    · exact (agree_throw _).bind fun fields => agree_pure _
    · exact (agree_pure _).bind fun fields => agree_pure _

theorem agree_configOf (files : Files) (arguments : Arguments) :
    Agree (configOf files arguments) (configOf files arguments) := by
  refine (agree_loadConfig files arguments).bind fun config => ?_
  dsimp only
  cases arguments.value? "--sink-type" with
  | some type =>
    refine (agree_overrideSink type _).bind fun config => ?_
    cases arguments.value? "--name" <;> exact agree_pure _
  | none =>
    refine (agree_pure _).bind fun config => ?_
    cases arguments.value? "--name" <;> exact agree_pure _

/-! ## The two ways -/

/-- Arguments that give a query by its text, and arguments that give it by a file and are the same
otherwise. -/
structure Paired (text name : String) (a b : Arguments) : Prop where
  flags : a.flags = b.flags
  extras : a.extras = b.extras
  value : ∀ key, key ≠ "--ast" → a.value? key = b.value? key
  batch : b.value? "--batch" = none
  query : a.query = some text
  noFile : a.value? "--ast" = none
  file : b.value? "--ast" = some name

namespace Paired

variable {text name : String} {a b : Arguments}

theorem configOf_eq (h : Paired text name a b) (files : Files) :
    configOf files a = configOf files b := by
  unfold configOf loadConfig
  rw [h.value "--config" (by decide), h.value "--source-type" (by decide),
    h.value "--sink-type" (by decide), h.value "--name" (by decide)]

theorem output_eq (h : Paired text name a b) : output a = output b := by
  unfold output Arguments.has
  rw [h.flags, h.value "--batch" (by decide)]

theorem entriesOf_text (h : Paired text name a b) (htext : text ≠ "") (files : Files) :
    entriesOf files a = pure [[("sql", .str text)]] := by
  have hbatch : a.value? "--batch" = none := (h.value "--batch" (by decide)).trans h.batch
  have hquery : a.query.filter (· != "") = some text := by
    rw [h.query, Option.filter_some, if_pos (by simpa using htext)]
  rw [entriesOf, hbatch, h.noFile, hquery]

theorem entriesOf_file (h : Paired text name a b) {files : Files} {c : Value}
    (hload : load files name = pure c) : entriesOf files b = pure [[("ast", c)]] := by
  rw [entriesOf, h.batch, h.file]
  show (load files name >>= fun ast => pure [[("ast", ast)]]) = _
  rw [hload]
  rfl

end Paired

/-- A query that is given as a text is its tree, with some notes. -/
theorem queryOf_text {text : String} {all : List Statement}
    (hparse : (Script.parse text).1 = .ok all) :
    ∃ notes, queryOf [("sql", .str text)] =
      (modify (· ++ notes) >>= fun _ => pure (Script.toTree all)) := by
  have htruthy : (Value.str text).truthy = true := by
    simpa [Value.truthy] using (Script.head_of_parse hparse).1
  have hpair : Script.parse text = (.ok all, (Script.parse text).2) := Prod.ext hparse rfl
  refine ⟨(Script.parse text).2, ?_⟩
  show queryOfSql (.str text) = _
  rw [queryOfSql, Value.orElse, if_pos htruthy]
  show queryOfText text = _
  rw [queryOfText, hpair]

theorem agree_describeEntry {text : String} {all : List Statement} {c : Value}
    (hparse : (Script.parse text).1 = .ok all) (hc : (Script.toTree all).canonical = .ok c)
    (config : List (String × Value)) (index total : Nat) :
    Agree (describeEntry config index total [("sql", .str text)])
      (describeEntry config index total [("ast", c)]) := by
  obtain ⟨notes, hquery⟩ := queryOf_text hparse
  have hmap := Descriptor.mapOf_canonical hparse hc
  -- neither entry has a name or a configuration of its own
  show Agree
    (modify (· ++ [.describing index total]) >>= fun _ => queryOf [("sql", .str text)] >>=
      fun query => buildFrom query (entryConfig config [] []))
    (modify (· ++ [.describing index total]) >>= fun _ => buildFrom c (entryConfig config [] []))
  rw [hquery]
  refine (agree_modify _ _).bind fun _ => ?_
  exact (agree_buildFrom hmap (entryConfig config [] [])).modify_bind (· ++ notes)

/-- The descriptions of a text and of the file of its canonical form come to the same end. -/
theorem Paired.agree_work {text name : String} {a b : Arguments} (h : Paired text name a b)
    {all : List Statement} {c : Value} (hparse : (Script.parse text).1 = .ok all)
    (hc : (Script.toTree all).canonical = .ok c) {files : Files}
    (hload : load files name = pure c) : Agree (work files a) (work files b) := by
  have htext := (Script.head_of_parse hparse).1
  rw [work, work, h.configOf_eq, h.entriesOf_text htext, h.entriesOf_file hload, h.output_eq]
  refine (agree_configOf files b).bind fun config => ?_
  show Agree
    (describeAll config 1 1 [[("sql", .str text)]] >>= fun ds => pure (output b ds ++ "\n"))
    (describeAll config 1 1 [[("ast", c)]] >>= fun ds => pure (output b ds ++ "\n"))
  refine Agree.bind ?_ fun ds => agree_pure _
  refine (agree_describeEntry hparse hc config 1 1).bind fun d => ?_
  exact (agree_pure []).bind fun ds => agree_pure _

end Command.Describe

/-! ## Arguments -/

namespace Command

/-- An ending without the log. -/
def Ending.withoutLog : Ending → Ending
  | .done exit output _ => .done exit output []
  | e => e

theorem parseArguments_of_collect {declarations : List Declaration} {argv : List String}
    {a : Arguments} (h : collect declarations .empty none argv = .ok a) :
    parseArguments declarations false argv =
      if a.extras.isEmpty = true then .ok a else .error (.unrecognized a.extras) := by
  rw [parseArguments, h]
  cases hextras : a.extras.isEmpty <;> simp [hextras, bind, Except.bind, pure, Except.pure, throw,
    throwThe, MonadExceptOf.throw]

namespace Describe

theorem Paired.run_eq {text name : String} {a b : Arguments} (h : Paired text name a b)
    {all : List Statement} {c : Value} (hparse : (Script.parse text).1 = .ok all)
    (hc : (Script.toTree all).canonical = .ok c) {files : Files}
    (hload : load files name = pure c) {argv other : List String}
    (ha : collect declarations .empty none argv = .ok a)
    (hb : collect declarations .empty none other = .ok b) :
    (run files other).withoutLog = (run files argv).withoutLog := by
  rw [run, run, parseArguments_of_collect ha, parseArguments_of_collect hb, h.extras]
  by_cases hextras : b.extras.isEmpty = true
  · rw [if_pos hextras, if_pos hextras]
    rcases (h.agree_work hparse hc hload).cases [] [] with ⟨out, u, v, hx, hy⟩ | ⟨e, u, v, hx, hy⟩
    · simp only [hx, hy]
      rfl
    · simp only [hx, hy]
      cases e <;> rfl
  · rw [if_neg hextras, if_neg hextras]

/-- Options that are complete, and give no query in whatever way. -/
structure OtherOptions (options : List String) : Prop where
  noDashes : "--" ∉ options
  collected : ∃ a, collect declarations .empty none options = .ok a ∧ a.query = none ∧
    a.values.lookup "--ast" = none ∧ a.values.lookup "--batch" = none

/-- The arguments that name the file of a stored query. -/
inductive NamesFile (name : String) : List String → Prop
  | separate : classify declarations name = .positional → NamesFile name ["--ast", name]
  | joined : NamesFile name ["--ast=" ++ name]

/-- No option has an equals sign in its name. -/
theorem find?_eq_none {argument : String} (h : '=' ∈ argument.toList) :
    find? declarations argument = none := by
  rw [find?, List.find?_eq_none]
  intro d hd hargument
  have hnames : declarations.all (fun d => d.names.all fun name => !name.toList.contains '=') =
      true := by
    decide
  rw [List.all_eq_true] at hnames
  have hname := List.all_eq_true.1 (hnames d hd) argument (List.contains_iff_mem.1 hargument)
  rw [List.contains_iff_mem.2 h] at hname
  cases hname

theorem classify_joined (name : String) :
    classify declarations ("--ast=" ++ name) = .option ⟨["--ast"], true⟩ (some name) := by
  have hchars : ("--ast=" ++ name).toList =
      '-' :: '-' :: 'a' :: 's' :: 't' :: '=' :: name.toList := by
    rw [String.toList_append]
    rfl
  have hnone : find? declarations ("--ast=" ++ name) = none :=
    find?_eq_none (by simp [hchars])
  rw [classify, hnone, hchars]
  show Reading.option ⟨["--ast"], true⟩ (some (String.ofList name.toList)) = _
  rw [String.ofList_toList]

theorem NamesFile.collect_append {name : String} {ast : List String} (h : NamesFile name ast)
    (a : Arguments) (rest : List String) :
    collect declarations a none (ast ++ rest) =
      collect declarations { a with values := ("--ast", name) :: a.values } none rest := by
  cases h with
  | separate hname =>
    have hast : classify declarations "--ast" = .option ⟨["--ast"], true⟩ none := rfl
    simp [collect, hast, hname, Declaration.key]
  | joined =>
    have hdashes : "--ast=" ++ name ≠ "--" := by
      intro heq
      have hhead := congrArg (fun s => s.toList.drop 2) heq
      rw [String.toList_append] at hhead
      cases hhead
    simp [collect, classify_joined, hdashes, Declaration.key]

theorem paired_join {p q : Arguments} {text name : String} (hname : name ≠ "")
    (hp : p.values.lookup "--ast" = none ∧ p.values.lookup "--batch" = none)
    (hq : q.values.lookup "--ast" = none ∧ q.values.lookup "--batch" = none) :
    Paired text name (Arguments.join { p with query := some text } q)
      (Arguments.join { p with values := ("--ast", name) :: p.values } q) := by
  have hlookup : ∀ (key : String) (values : List (String × String)),
      (q.values ++ values).lookup key = (q.values.lookup key).or (values.lookup key) :=
    fun key values => List.lookup_append
  have hskip : ∀ key, key ≠ "--ast" →
      (("--ast", name) :: p.values).lookup key = p.values.lookup key := by
    intro key hkey
    rw [List.lookup_cons, beq_false_of_ne hkey]
  exact {
    flags := rfl
    extras := rfl
    value := fun key hkey => by
      simp only [Arguments.value?, Arguments.join, hlookup, hskip key hkey]
    batch := by
      simp only [Arguments.value?, Arguments.join, hlookup, hskip "--batch" (by decide), hq.2, hp.2]
      rfl
    query := rfl
    noFile := by
      simp only [Arguments.value?, Arguments.join, hlookup, hq.1, hp.1]
      rfl
    file := by
      simp only [Arguments.value?, Arguments.join, hlookup, hq.1, List.lookup_cons_self]
      simpa using hname }

/-- A query and the file of a stored one, with the same options around them. -/
theorem OtherOptions.paired {before behind ast : List String} {text name : String}
    {all : List Statement} (hbefore : OtherOptions before) (hbehind : OtherOptions behind)
    (hparse : (Script.parse text).1 = .ok all) (hname : name ≠ "") (hast : NamesFile name ast) :
    ∃ a b, collect declarations .empty none (before ++ text :: behind) = .ok a ∧
      collect declarations .empty none (before ++ (ast ++ behind)) = .ok b ∧
      Paired text name a b := by
  obtain ⟨p, hp, hpquery, hpvalues⟩ := hbefore.collected
  obtain ⟨q, hq, hqquery, hqvalues⟩ := hbehind.collected
  obtain ⟨hdashes, hclass⟩ := classify_of_parse declarations hparse
  have htext : collect declarations p none (text :: behind) =
      collect declarations { p with query := some text } none behind := by
    rw [collect, if_neg hdashes, hclass]
    show collect declarations (p.addPositional text) none behind = _
    rw [Arguments.addPositional, hpquery]
  refine ⟨Arguments.join { p with query := some text } q,
    Arguments.join { p with values := ("--ast", name) :: p.values } q, ?_, ?_,
    paired_join hname hpvalues hqvalues⟩
  · rw [collect_append hbefore.noDashes hp, htext, collect_join hq hqquery]
  · rw [collect_append hbefore.noDashes hp, hast.collect_append, collect_join hq hqquery]

/-! ## Files -/

theorem unifyLineEnds_eq_self {cs : List Char} (h : '\r' ∉ cs) : unifyLineEnds cs = cs := by
  fun_induction unifyLineEnds cs with
  | case1 => rfl
  | case2 cs ih => exact absurd List.mem_cons_self h
  | case3 c cs hne ih =>
    rw [List.mem_cons, not_or] at h
    rw [if_neg (Ne.symm h.1), ih h.2]

theorem load_of_read {files : Files} {name text : String} {v : Value}
    (hfile : files name = some text)
    (hread : Json.read (String.ofList (unifyLineEnds text.toList)) = .ok v) :
    load files name = pure v := by
  unfold load
  simp only [hfile, hread]

/-- A value that was written to a file is loaded again. -/
theorem load_written {files : Files} {name : String} {style : Json.Style} {c : Value}
    (hc : c.IsStored) (hfile : files name = some (Json.write style c ++ "\n")) :
    load files name = pure c := by
  have hreturn : '\r' ∉ (Json.write style c ++ "\n").toList := by
    rw [String.toList_append, Json.write, String.toList_ofList, List.mem_append, not_or]
    exact ⟨Json.return_notMem_writeChars style hc 0, by decide⟩
  refine load_of_read hfile ?_
  rw [unifyLineEnds_eq_self hreturn, String.ofList_toList, Json.read_written style hc.isJson]

end Describe

/-! ## The whole -/

namespace Parse

/-- The parse command prints the canonical form of a query. -/
theorem run_of_parse {text : String} {all : List Statement} {c : Value}
    (hparse : (Script.parse text).1 = .ok all) (hc : (Script.toTree all).canonical = .ok c)
    (pretty : Bool) :
    run (if pretty then ["--pretty", text] else [text]) =
      .done 0 (Json.write (if pretty then Json.indented else Json.singleLine) c ++ "\n") [] := by
  obtain ⟨hdashes, hclass⟩ := classify_of_parse declarations hparse
  have hcollect : ∀ a : Arguments, a.query = none →
      collect declarations a none [text] = .ok { a with query := some text } := by
    intro a ha
    simp [collect, hdashes, hclass, Arguments.addPositional, ha]
  cases pretty with
  | false =>
    have harguments : parseArguments declarations true [text] =
        .ok { Arguments.empty with query := some text } := by
      rw [parseArguments, hcollect .empty rfl]
      rfl
    simp only [run, harguments, Option.getD_some, hparse, hc, Bool.false_eq_true, if_false]
    rfl
  | true =>
    have hflag : collect declarations .empty none ["--pretty", text] =
        collect declarations ⟨["--pretty"], [], none, []⟩ none [text] := rfl
    have harguments : parseArguments declarations true ["--pretty", text] =
        .ok ⟨["--pretty"], [], some text, []⟩ := by
      rw [parseArguments, hflag, hcollect ⟨["--pretty"], [], none, []⟩ rfl]
      rfl
    simp only [run, harguments, Option.getD_some, hparse, hc, if_true]
    rfl

end Parse

namespace Describe

/-- **A stored query is described as its text.**  The canonical form of the statements of a text is
JSON without fractions and stays as it is.  What the parse command prints is read back as this form,
with its fields in their order.  And the describe command comes to the same end for the file with
this print and for the text, whatever other options there are. -/
theorem run_stored {text : String} {all : List Statement} {c : Value}
    (hparse : (Script.parse text).1 = .ok all) (hc : (Script.toTree all).canonical = .ok c) :
    c.IsStored ∧ c.canonical = .ok c ∧ ∀ pretty : Bool, ∃ output,
      Parse.run (if pretty then ["--pretty", text] else [text]) = .done 0 output [] ∧
      Json.read output = .ok c ∧
      ∀ (files : Files) (name : String) (ast before behind : List String),
        files name = some output → name ≠ "" → NamesFile name ast →
        OtherOptions before → OtherOptions behind →
        (run files (before ++ (ast ++ behind))).withoutLog =
          (run files (before ++ text :: behind)).withoutLog := by
  have hstored := Script.stored_of_parse hparse hc
  have hform : c.canonical = .ok c := by
    rw [Script.eq_form_of_parse hparse hc]
    exact Script.canonical_form all
  refine ⟨hstored, hform, fun pretty => ⟨_, Parse.run_of_parse hparse hc pretty,
    Json.read_written _ hstored.isJson, ?_⟩⟩
  intro files name ast before behind hfile hname hast hbefore hbehind
  obtain ⟨a, b, ha, hb, hpaired⟩ := hbefore.paired hbehind hparse hname hast
  exact hpaired.run_eq hparse hc (load_written hstored hfile) ha hb

/-- A string with a quote, a line feed and a letter that is not ASCII. -/
theorem run_stored_escapes :
    let text := "SELECT a FROM t WHERE b = 'x\"\n\u00e9' LIMIT 03"
    let c := Value.obj
      [("type", .str "select"), ("columns", .arr [.obj [("type", .str "column"), ("name", .str "a")]]),
       ("from", .obj [("table", .str "t")]),
       ("where", .obj [("type", .str "binary_op"), ("operator", .str "="),
         ("left", .obj [("type", .str "column"), ("name", .str "b")]),
         ("right", .obj [("type", .str "string"), ("value", .str "x\"\n\u00e9")])]),
       ("joins", .arr []), ("order_by", .arr []), ("limit", .int 3)]
    ∃ output, Parse.run ["--pretty", text] = .done 0 output [] ∧ Json.read output = .ok c ∧
      (run (fun _ => some output) ["--json", "--ast", "q.json", "-n", "p"]).withoutLog =
        (run (fun _ => some output) ["--json", text, "-n", "p"]).withoutLog := by
  intro text c
  have htokens : tokenize text = .ok
      [⟨.keyword, "SELECT", 0⟩, ⟨.identifier, "a", 7⟩, ⟨.keyword, "FROM", 9⟩,
       ⟨.identifier, "t", 14⟩, ⟨.keyword, "WHERE", 16⟩, ⟨.identifier, "b", 22⟩,
       ⟨.operator, "=", 24⟩, ⟨.string, "x\"\n\u00e9", 26⟩, ⟨.keyword, "LIMIT", 33⟩,
       ⟨.number, "03", 39⟩, ⟨.eof, "", 41⟩] := by
    decide +kernel
  have hparse : (Script.parse text).1 = .ok
      [.select
        { columns := [.column ⟨"a", none, none⟩]
          source := some ⟨"t", none, none⟩
          condition := some (.binary (.column ⟨"b", none, none⟩) .eq
            (.literal (.string "x\"\n\u00e9")))
          joins := []
          grouping := none
          having := none
          sortKeys := none
          limit := some 3
          offset := none
          distinct := false }] :=
    Script.parse_of_tokens htokens rfl
  obtain ⟨_, _, hall⟩ := run_stored hparse (c := c) (by decide +kernel)
  obtain ⟨output, hprint, hread, hrun⟩ := hall true
  have hbefore : OtherOptions ["--json"] := ⟨by decide, _, rfl, rfl, rfl, rfl⟩
  have hbehind : OtherOptions ["-n", "p"] := ⟨by decide, _, rfl, rfl, rfl, rfl⟩
  exact ⟨output, hprint, hread, hrun _ "q.json" ["--ast", "q.json"] ["--json"] ["-n", "p"] rfl
    (by decide) (.separate rfl) hbefore hbehind⟩

end Describe

end Command
end QueryPipeline
