import Mathlib.Data.List.Infix
import QueryPipeline.Proofs.Condition.Extract

/-!
# The columns that conditions are about

Two walks go over a clause.  One makes conditions of it, flattens chains and exchanges the sides of
comparisons.  The other one looks for a timestamp: it goes through the leaves and takes the column
of each.  This file shows that they meet the same columns in the same order: when the conditions
`cs` are made of the filter,

    filter.leaves.mapM leafColumn? = .ok ((columnsIn cs).map some)

On the left are the columns of the leaves as the search meets them, on the right those of the
conditions, depth first.  So the timestamp is the first column of the conditions that sounds like
one.
-/

namespace QueryPipeline

namespace Condition

mutual

/-- The columns of the comparisons and membership tests in a condition, from left to right. -/
def columns : Condition → List String
  | .comparison column _ _ => [column]
  | .membership column _ _ => [column]
  | .junction _ parts => columnsIn parts

def columnsIn : List Condition → List String
  | [] => []
  | c :: rest => columns c ++ columnsIn rest

end

theorem columnsIn_append (first second : List Condition) :
    columnsIn (first ++ second) = columnsIn first ++ columnsIn second := by
  induction first with
  | nil => rfl
  | cons c rest ih => rw [List.cons_append, columnsIn, columnsIn, ih, List.append_assoc]

theorem columnsIn_singleton (c : Condition) : columnsIn [c] = c.columns := by
  rw [columnsIn, columnsIn, List.append_nil]

/-! ## The two walks meet the same columns -/

theorem leafColumn?_comparison {node column : Value} {operator : Comparator} {name : String}
    (htype : node.field "type" = .str "binary_op")
    (hoperator : comparator? (node.field "operator") = .ok (some operator))
    (hside : (if isColumn (node.field "left") then node.field "left" else node.field "right") =
      column)
    (hcolumn : isColumn column = true) (hname : column.field "name" = .str name) :
    leafColumn? node = .ok (some name) := by
  rw [leafColumn?, htype]
  simp only [hoperator, hside, hcolumn, hname]
  rfl

/-- The column of a leaf is that of its condition. -/
theorem leafColumn?_of_ofLeaf {node : Value} {c : Condition} (h : ofLeaf node = .ok c) :
    ∃ name, c.columns = [name] ∧ leafColumn? node = .ok (some name) := by
  obtain ⟨htype, h⟩ | ⟨htype, operator, hoperator, h⟩ := ofLeaf_eq_ok h
  · obtain ⟨hcolumn, name, _, _, _, hname, _, rfl⟩ := member_ok_iff.1 h
    refine ⟨name, by rw [columns], ?_⟩
    rw [leafColumn?, htype]
    simp only [hcolumn, requiredName_eq_ok hname]
    rfl
  · obtain ⟨hleft, name, _, hname, _, rfl⟩ | ⟨hleft, hright, name, _, hname, _, rfl⟩ :=
      compare_eq_ok h
    · refine ⟨name, by rw [columns], ?_⟩
      exact leafColumn?_comparison htype hoperator (if_pos hleft) hleft hname
    · refine ⟨name, by rw [columns], ?_⟩
      exact leafColumn?_comparison htype hoperator (if_neg (Bool.eq_false_iff.1 hleft)) hright hname

/-- **The parts of a filter are about the columns of its leaves**, spliced in or boxed. -/
theorem columns_of_parts {filter : Filter} {c : Connective} {cs : List Condition}
    (h : parts c filter = .ok cs) :
    filter.leaves.mapM leafColumn? = .ok ((columnsIn cs).map some) := by
  induction filter generalizing c cs with
  | missing => cases h
  | leaf node =>
    obtain ⟨d, hd, rfl⟩ := parts_leaf h
    obtain ⟨name, hcolumns, hleaf⟩ := leafColumn?_of_ofLeaf hd
    rw [Filter.leaves, List.mapM_cons, List.mapM_nil, hleaf, columnsIn_singleton, hcolumns]
    rfl
  | junction d left right ihleft ihright =>
    obtain ⟨first, second, hfirst, hsecond, rfl⟩ := parts_junction h
    have hparts : columnsIn (if d = c then first ++ second else [.junction d (first ++ second)]) =
        columnsIn first ++ columnsIn second := by
      by_cases hd : d = c
      · rw [if_pos hd, columnsIn_append]
      · rw [if_neg hd, columnsIn_singleton, columns, columnsIn_append]
    rw [Filter.leaves, List.mapM_append, ihleft hfirst, ihright hsecond, hparts, List.map_append]
    rfl

theorem columns_of_ofFilter {filter : Filter} {cs : List Condition}
    (h : ofFilter filter = .ok cs) :
    filter.leaves.mapM leafColumn? = .ok ((columnsIn cs).map some) := by
  obtain ⟨rfl, rfl⟩ | hparts := ofFilter_eq_ok h
  · rfl
  · exact columns_of_parts hparts

/-! ## The search -/

/-- The search stops at the first column that sounds like a timestamp. -/
theorem firstColumn_eq_find? (words : List String) {nodes : List Value} {names : List String}
    (h : nodes.mapM leafColumn? = .ok (names.map some)) :
    firstColumn words nodes = .ok (names.find? (soundsLike words)) := by
  induction nodes generalizing names with
  | nil =>
    obtain rfl : names = [] := List.map_eq_nil_iff.1 (Except.ok.inj h).symm
    rfl
  | cons node rest ih =>
    rw [List.mapM_cons] at h
    obtain ⟨found, others, hfound, hothers, hnames⟩ := both_eq_ok.1 h
    obtain ⟨name, names, rfl, rfl, rfl⟩ := List.map_eq_cons_iff.1 hnames
    rw [firstColumn, hfound, List.find?_cons]
    show (if soundsLike words name = true then _ else _) = _
    cases soundsLike words name with
    | true => rfl
    | false => exact ih hothers

theorem occursIn_iff {needle text : List Char} : occursIn needle text = true ↔ needle <:+: text := by
  induction text with
  | nil => rw [occursIn, List.isEmpty_iff, List.infix_nil]
  | cons c cs ih =>
    rw [occursIn, Bool.or_eq_true, ih, List.isPrefixOf_iff_prefix, List.infix_cons_iff]

/-- A name sounds like a timestamp when one of the words is in it, in small letters. -/
theorem soundsLike_iff {words : List String} {name : String} :
    soundsLike words name = true ↔ ∃ w ∈ words, w.toList <:+: (Text.lower name).toList := by
  simp only [soundsLike, List.any_eq_true, occursIn_iff]

/-- **The search for a timestamp meets the columns of the conditions, in their order.**  So it finds
the column of the first condition that has one of the words in its name, in small letters, and none
when there is no such condition. -/
theorem timestampColumn_of_ofFilter {clause : Value} {cs : List Condition}
    (h : ofFilter (Filter.ofJson clause) = .ok cs) :
    (Filter.ofJson clause).leaves.mapM leafColumn? = .ok ((columnsIn cs).map some) ∧
    ∀ words : List String,
      timestampColumn words (Filter.ofJson clause) =
        .ok ((columnsIn cs).find? (soundsLike words)) ∧
      ∀ name, soundsLike words name = true ↔
        ∃ w ∈ words, w.toList <:+: (Text.lower name).toList := by
  have hcolumns := columns_of_ofFilter h
  exact ⟨hcolumns, fun words => ⟨firstColumn_eq_find? words hcolumns, fun _ => soundsLike_iff⟩⟩

open QueryPipeline.Filter (column operation) in
/-- An exchanged comparison, a membership test, a column that is compared to another one, and a name
in other letters.  The names are in capitals, and the words are found in small letters only. -/
theorem timestampColumn_of_ofFilter_mixed :
    let member : Value :=
      .obj [("type", .str "in_expression"), ("expression", column "KIND"),
        ("values", .arr [column "created"]), ("negated", .bool true)]
    let clause :=
      operation "and"
        (operation "and" (operation "OR" (operation "<" (.int 10) (column "ID")) member)
          (operation "=" (column "UPDATED_AT") (column "date")))
        (operation ">" (column "ДАТА") (.int 1))
    let cs : List Condition :=
      [.junction .or [.comparison "ID" .gt (.int 10), .membership "KIND" [.str "created"] true],
        .comparison "UPDATED_AT" .eq (.str "date"), .comparison "ДАТА" .gt (.int 1)]
    ofFilter (Filter.ofJson clause) = .ok cs ∧
      (Filter.ofJson clause).leaves.mapM leafColumn? =
        .ok [some "ID", some "KIND", some "UPDATED_AT", some "ДАТА"] ∧
      timestampColumn timestampWords (Filter.ofJson clause) = .ok (some "UPDATED_AT") ∧
      timestampColumn ["дата"] (Filter.ofJson clause) = .ok (some "ДАТА") ∧
      timestampColumn ["ДАТА", "UPDATED"] (Filter.ofJson clause) = .ok none := by
  intro member clause cs
  have h : ofFilter (Filter.ofJson clause) = .ok cs := by
    unfold clause cs member
    rfl
  obtain ⟨hcolumns, htimestamp⟩ := timestampColumn_of_ofFilter h
  have hnames : columnsIn cs = ["ID", "KIND", "UPDATED_AT", "ДАТА"] := by
    unfold cs
    simp only [columnsIn, columns, List.append_nil, List.cons_append, List.nil_append]
  rw [hnames] at hcolumns htimestamp
  refine ⟨h, hcolumns, ?_, ?_, ?_⟩
  all_goals
    rw [(htimestamp _).1]
    decide +kernel

end Condition
end QueryPipeline
