import QueryPipeline.Command.Arguments
import QueryPipeline.Proofs.Statement.Render

/-!
# Arguments piece by piece

Arguments are collected from left to right.  A piece that is complete can be collected on its own:
with other arguments in front of it, the result is what they gave, and what the piece gives on top
(`collect_join`), as long as the query is not in the piece.

A text that can be read as a query never looks like an option (`Command.classify_of_parse`).
-/

namespace QueryPipeline

namespace Command

variable {declarations : List Declaration}

/-! ## Pieces -/

/-- What two pieces of arguments give together, when the query is not in the second one. -/
def Arguments.join (a b : Arguments) : Arguments :=
  ⟨b.flags ++ a.flags, b.values ++ a.values, a.query, a.extras ++ b.extras⟩

theorem Arguments.join_empty (a : Arguments) : a.join .empty = a := by
  simp [join, empty]

theorem Arguments.empty_join {b : Arguments} (h : b.query = none) : empty.join b = b := by
  obtain ⟨flags, values, query, extras⟩ := b
  cases h
  simp [join, empty]

theorem Arguments.join_assoc (a b c : Arguments) : (a.join b).join c = a.join (b.join c) := by
  simp [join]

/-- One argument, unless it ends the options: it is refused, or it adds to what was collected, or it
is positional. -/
theorem collect_cons (declarations : List Declaration) {waiting : Option Declaration} {s : String}
    (hs : ¬ (waiting = none ∧ s = "--")) :
    (∃ e, ∀ a rest, collect declarations a waiting (s :: rest) = .error e) ∨
    (∃ added next, added.query = none ∧ ∀ a rest,
      collect declarations a waiting (s :: rest) = collect declarations (a.join added) next rest) ∨
    ∀ a rest, collect declarations a waiting (s :: rest) =
      collect declarations (a.addPositional s) none rest := by
  cases waiting with
  | some d =>
    cases hclass : classify declarations s with
    | positional =>
      refine .inr (.inl ⟨⟨[], [(d.key, s)], none, []⟩, none, rfl, fun a rest => ?_⟩)
      simp [collect, hclass, Arguments.join]
    | option d' value => exact .inl ⟨.missingValue d, fun a rest => by simp [collect, hclass]⟩
    | unknown => exact .inl ⟨.missingValue d, fun a rest => by simp [collect, hclass]⟩
  | none =>
    have hdashes : s ≠ "--" := fun heq => hs ⟨rfl, heq⟩
    cases hclass : classify declarations s with
    | positional => exact .inr (.inr fun a rest => by simp [collect, hdashes, hclass])
    | unknown =>
      refine .inr (.inl ⟨⟨[], [], none, [s]⟩, none, rfl, fun a rest => ?_⟩)
      simp [collect, hdashes, hclass, Arguments.join]
    | option d value =>
      cases value with
      | none =>
        cases hvalue : d.takesValue with
        | true =>
          refine .inr (.inl ⟨.empty, some d, rfl, fun a rest => ?_⟩)
          simp [collect, hdashes, hclass, hvalue, Arguments.join_empty]
        | false =>
          refine .inr (.inl ⟨⟨[d.key], [], none, []⟩, none, rfl, fun a rest => ?_⟩)
          simp [collect, hdashes, hclass, hvalue, Arguments.join]
      | some value =>
        cases hvalue : d.takesValue with
        | true =>
          refine .inr (.inl ⟨⟨[], [(d.key, value)], none, []⟩, none, rfl, fun a rest => ?_⟩)
          simp [collect, hdashes, hclass, hvalue, Arguments.join]
        | false =>
          refine .inl ⟨.ignoredValue d value, fun a rest => ?_⟩
          simp [collect, hdashes, hclass, hvalue]

theorem addPositional_query (a : Arguments) (s : String) : (a.addPositional s).query ≠ none := by
  rw [Arguments.addPositional]
  split
  · simp
  next hquery => simp [hquery]

theorem collect_dashes (a : Arguments) (rest : List String) :
    collect declarations a none ("--" :: rest) = .ok (rest.foldl Arguments.addPositional a) := by
  rw [collect, if_pos rfl]

theorem foldl_addPositional_query {a : Arguments} (h : a.query ≠ none) (args : List String) :
    (args.foldl Arguments.addPositional a).query ≠ none := by
  induction args generalizing a with
  | nil => exact h
  | cons s rest ih => exact ih (addPositional_query a s)

/-- A query that was found stays. -/
theorem collect_query {a b : Arguments} (ha : a.query ≠ none) {waiting : Option Declaration}
    {args : List String} (h : collect declarations a waiting args = .ok b) : b.query ≠ none := by
  induction args generalizing a waiting with
  | nil =>
    cases waiting with
    | none =>
      cases h
      exact ha
    | some d => cases h
  | cons s rest ih =>
    by_cases hs : waiting = none ∧ s = "--"
    · obtain ⟨rfl, rfl⟩ := hs
      rw [collect_dashes] at h
      cases h
      exact foldl_addPositional_query ha rest
    · rcases collect_cons declarations hs with ⟨e, he⟩ | ⟨added, next, _, hadded⟩ | hpositional
      · rw [he] at h
        cases h
      · rw [hadded] at h
        exact ih (a := a.join added) ha h
      · rw [hpositional] at h
        exact ih (addPositional_query a s) h

/-- Complete arguments are collected before what follows them. -/
theorem collect_append {a b : Arguments} {waiting : Option Declaration} {args : List String}
    (hdashes : "--" ∉ args) (h : collect declarations a waiting args = .ok b)
    (rest : List String) :
    collect declarations a waiting (args ++ rest) = collect declarations b none rest := by
  induction args generalizing a waiting with
  | nil =>
    cases waiting with
    | none =>
      cases h
      rfl
    | some d => cases h
  | cons s more ih =>
    have hs : ¬ (waiting = none ∧ s = "--") := fun ⟨_, heq⟩ => hdashes (heq ▸ List.mem_cons_self)
    have hmore : "--" ∉ more := List.not_mem_of_not_mem_cons hdashes
    rw [List.cons_append]
    rcases collect_cons declarations hs with ⟨e, he⟩ | ⟨added, next, _, hadded⟩ | hpositional
    · rw [he] at h
      cases h
    · rw [hadded] at h ⊢
      exact ih hmore h
    · rw [hpositional] at h ⊢
      exact ih hmore h

/-- Arguments without a query add the same to whatever was collected before. -/
theorem exists_join_of_collect {a b : Arguments} {waiting : Option Declaration}
    {args : List String} (h : collect declarations a waiting args = .ok b)
    (hquery : b.query = none) :
    ∃ added, added.query = none ∧ b = a.join added ∧
      ∀ a', collect declarations a' waiting args = .ok (a'.join added) := by
  induction args generalizing a waiting with
  | nil =>
    cases waiting with
    | none =>
      cases h
      refine ⟨.empty, rfl, (Arguments.join_empty _).symm, fun a' => ?_⟩
      rw [a'.join_empty]
      rfl
    | some d => cases h
  | cons s rest ih =>
    by_cases hs : waiting = none ∧ s = "--"
    · -- behind the two dashes there is nothing, as the first argument would be the query
      obtain ⟨rfl, rfl⟩ := hs
      rw [collect_dashes] at h
      cases h
      cases rest with
      | nil =>
        refine ⟨.empty, rfl, a.join_empty.symm, fun a' => ?_⟩
        rw [collect_dashes, a'.join_empty]
        rfl
      | cons t more =>
        exact absurd hquery (foldl_addPositional_query (addPositional_query a t) more)
    · rcases collect_cons declarations hs with ⟨e, he⟩ | ⟨first, next, hfirst, hadded⟩ | hpositional
      · rw [he] at h
        cases h
      · rw [hadded] at h
        obtain ⟨added, _, rfl, hall⟩ := ih h
        refine ⟨first.join added, hfirst, a.join_assoc first added, fun a' => ?_⟩
        rw [hadded, hall, a'.join_assoc]
      · rw [hpositional] at h
        exact absurd hquery (collect_query (addPositional_query a s) h)

theorem collect_join {b : Arguments} {args : List String}
    (h : collect declarations .empty none args = .ok b) (hquery : b.query = none) (a : Arguments) :
    collect declarations a none args = .ok (a.join b) := by
  obtain ⟨added, hadded, rfl, hall⟩ := exists_join_of_collect h hquery
  rw [hall, Arguments.empty_join hadded]

end Command

/-! ## Queries are no options -/

/-- The first token is read where the text begins, if that is no blank. -/
theorem Scanner.scan_cons {place : Nat} {c : Char} {cs : List Char} {ts : List Token}
    (hblank : Text.isBlank c = false) (h : (scan place (c :: cs)).1 = .ok ts) :
    ∃ t rest, (next place c cs).outcome = .ok t ∧ ts = t :: rest := by
  cases ht : (next place c cs).outcome with
  | error e =>
    rw [scan_error hblank ht] at h
    cases h
  | ok t =>
    rw [scan_ok hblank ht] at h
    cases hrest : (scan (place + (next place c cs).width)
        (cs.drop ((next place c cs).width - 1))).1 with
    | error e =>
      rw [hrest] at h
      cases h
    | ok rest =>
      rw [hrest] at h
      cases h
      exact ⟨t, rest, rfl, rfl⟩

theorem Scanner.form_of_operator {place : Nat} {cs : List Char} {t : Token}
    (h : (operator place cs).outcome = .ok t) : t.form = .operator := by
  rw [operator] at h
  split at h
  · cases h
    rfl
  · cases h

/-- A text that can be read as a query is not empty, and does not begin with a minus sign. -/
theorem Script.head_of_parse {text : String} {all : List Statement}
    (h : (Script.parse text).1 = .ok all) : text ≠ "" ∧ text.toList.head? ≠ some '-' := by
  obtain ⟨ts, htokens, hall⟩ := tokens_of_parse h
  obtain ⟨us, rest, rfl, _, hscript⟩ := ofTokens_sound hall
  obtain ⟨first, more, k, rfl, hkind, hrule⟩ := hscript.begins
  constructor
  · rintro rfl
    have hempty : tokenize "" = .ok [Token.endOfText 0] := by
      rw [tokenize, String.toList_empty, Scanner.scan]
      rfl
    rw [hempty] at htokens
    obtain rfl : Token.endOfText 0 = first := (List.cons.inj (Except.ok.inj htokens)).1
    cases hkind
    cases hrule
  · intro hhead
    obtain ⟨cs, hcs⟩ : ∃ cs, text.toList = '-' :: cs := List.head?_eq_some_iff.1 hhead
    rw [tokenize, hcs] at htokens
    obtain ⟨t, _, ht, heq⟩ := Scanner.scan_cons (by decide) htokens
    cases heq
    have hform : first.form = .operator := Scanner.form_of_operator ht
    rw [Token.kind?, hform] at hkind
    obtain ⟨sign, _, rfl⟩ := Option.map_eq_some_iff.1 hkind
    cases hrule

/-- A query is taken for one on the command line, too. -/
theorem Command.classify_of_parse (declarations : List Declaration) {text : String}
    {all : List Statement} (h : (Script.parse text).1 = .ok all) :
    text ≠ "--" ∧ classify declarations text = .positional := by
  obtain ⟨_, hhead⟩ := Script.head_of_parse h
  constructor
  · rintro rfl
    exact hhead rfl
  · rw [classify, if_pos hhead]

end QueryPipeline
