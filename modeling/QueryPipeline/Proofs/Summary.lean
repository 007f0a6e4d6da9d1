import QueryPipeline.Proofs.Condition.Operands
import QueryPipeline.Proofs.Table.Aligned
import QueryPipeline.Summary

/-!
# How the values of a condition are shown

A summary shows the values of a condition in one of two ways.  A condition by itself is a row of the
table, where its values are a cell (`tableValue`).  Inside another condition it is a part of a line
of text, and its values are at the end of that part (`lineValue`):

    a      | IN       | 1, 2
           | OR       | (a IN (1, 2) OR b = NULL)

Up to the brackets around a list both ways are the same, with the exception of a null in a list.  It
is an empty text in the table and `None` in a line, while a null that is compared to is `NULL` in
both.
-/

namespace QueryPipeline

/-! ## Conditions that join no others -/

namespace Condition

mutual

/-- The conditions in a condition that join no others, from left to right. -/
def leaves : Condition → List Condition
  | .comparison column operator value => [.comparison column operator value]
  | .membership column values negated => [.membership column values negated]
  | .junction _ parts => leavesIn parts

def leavesIn : List Condition → List Condition
  | [] => []
  | c :: rest => leaves c ++ leavesIn rest

end

/-- A condition that joins no others stands in another one, or is that one. -/
inductive LeafOf : Condition → Condition → Prop
  | comparison (column : String) (operator : Comparator) (value : Value) :
      LeafOf (.comparison column operator value) (.comparison column operator value)
  | membership (column : String) (values : List Value) (negated : Bool) :
      LeafOf (.membership column values negated) (.membership column values negated)
  | part {leaf part : Condition} {connective : Connective} {parts : List Condition} :
      part ∈ parts → LeafOf leaf part → LeafOf leaf (.junction connective parts)

mutual

theorem leafOf_of_mem : ∀ {c leaf : Condition}, leaf ∈ c.leaves → LeafOf leaf c
  | .comparison column operator value, leaf, h => by
    rw [List.mem_singleton.1 h]
    exact .comparison column operator value
  | .membership column values negated, leaf, h => by
    rw [List.mem_singleton.1 h]
    exact .membership column values negated
  | .junction _ parts, leaf, h => by
    obtain ⟨part, hpart, hleaf⟩ := leafOf_of_mem_leavesIn h
    exact .part hpart hleaf

theorem leafOf_of_mem_leavesIn : ∀ {cs : List Condition} {leaf : Condition}, leaf ∈ leavesIn cs →
    ∃ c ∈ cs, LeafOf leaf c
  | c :: rest, leaf, h => by
    rcases List.mem_append.1 h with h | h
    · exact ⟨c, List.mem_cons_self, leafOf_of_mem h⟩
    · obtain ⟨d, hd, hleaf⟩ := leafOf_of_mem_leavesIn h
      exact ⟨d, List.mem_cons_of_mem _ hd, hleaf⟩

end

theorem LeafOf.values_subset {leaf c : Condition} (h : LeafOf leaf c) : leaf.values ⊆ c.values := by
  induction h with
  | comparison | membership => exact List.Subset.refl _
  | @part leaf part connective parts hpart _ ih =>
    intro v hv
    rw [values, valuesIn_eq_flatMap]
    exact List.mem_flatMap.2 ⟨part, hpart, ih hv⟩

end Condition

/-! ## Texts in a line -/

/-- Each of some texts is in the line that they make. -/
theorem infix_joinWith {separator s : String} {texts : List String} (h : s ∈ texts) :
    s.toList <:+: (joinWith separator texts).toList := by
  induction texts with
  | nil => exact absurd h List.not_mem_nil
  | cons first rest ih =>
    cases rest with
    | nil =>
      rw [List.mem_singleton.1 h]
      exact List.infix_refl _
    | cons second rest =>
      rw [Table.joinWith_cons_cons, String.toList_append, String.toList_append]
      rcases List.mem_cons.1 h with rfl | h
      · rw [List.append_assoc]
        exact (List.prefix_append _ _).isInfix
      · exact (ih h).trans (List.suffix_append _ _).isInfix

namespace Condition

theorem texts_toLines (cs : List Condition) :
    Summary.Line.texts (toLines cs) = cs.map fun c => c.toLine.text := by
  induction cs with
  | nil => rfl
  | cons c rest ih => rw [toLines, Summary.Line.texts, ih, List.map_cons]

/-- **A condition inside another one is a part of its text.** -/
theorem LeafOf.infix_text {leaf c : Condition} (h : LeafOf leaf c) :
    leaf.toLine.text.toList <:+: c.toLine.text.toList := by
  induction h with
  | comparison | membership => exact List.infix_refl _
  | @part leaf part connective parts hpart _ ih =>
    have hmem : part.toLine.text ∈ Summary.Line.texts (toLines parts) := by
      rw [texts_toLines]
      exact List.mem_map_of_mem hpart
    rw [toLine, Summary.Line.text, String.toList_append, String.toList_append]
    exact (ih.trans (infix_joinWith hmem)).trans ⟨_, _, rfl⟩

end Condition

namespace Summary

/-! ## Values -/

/-- The text of a value, with some text for a null. -/
def shownAs (absent : String) (v : Value) : String :=
  if v = .null then absent else v.plain

/-- The texts of some values with commas between. -/
def listed (absent : String) (values : List Value) : String :=
  joinWith ", " (values.map (shownAs absent))

/-- A null is the only value whose text is free. -/
theorem listed_congr {values : List Value} (h : .null ∉ values) (absent other : String) :
    listed absent values = listed other values := by
  rw [listed, listed]
  congr 1
  refine List.map_congr_left fun v hv => ?_
  have hne : v ≠ .null := fun heq => h (heq ▸ hv)
  rw [shownAs, if_neg hne, shownAs, if_neg hne]

theorem listed_cons_cons (absent : String) (v w : Value) (rest : List Value) :
    listed absent (v :: w :: rest) = shownAs absent v ++ ", " ++ listed absent (w :: rest) :=
  rfl

/-- Each null makes a list longer when it is written out. -/
theorem length_listed (values : List Value) :
    (listed "None" values).length = (listed "" values).length + 4 * values.count .null := by
  have hfirst : ∀ v : Value, (shownAs "None" v).length =
      (shownAs "" v).length + 4 * if v == .null then 1 else 0 := by
    intro v
    by_cases hv : v = .null
    · subst hv
      rfl
    · rw [shownAs, if_neg hv, shownAs, if_neg hv, if_neg (by simpa using hv)]
      omega
  induction values with
  | nil => rfl
  | cons v rest ih =>
    have hv := hfirst v
    rw [List.count_cons]
    cases rest with
    | nil =>
      show (shownAs "None" v).length = (shownAs "" v).length + _
      rw [hv, List.count_nil, Nat.zero_add]
    | cons w rest =>
      rw [listed_cons_cons, listed_cons_cons]
      simp only [String.length_append]
      omega

/-- The two texts for a null make different lists. -/
theorem listed_eq_iff {values : List Value} :
    listed "" values = listed "None" values ↔ .null ∉ values := by
  constructor
  · intro h
    have hlength := length_listed values
    rw [← h] at hlength
    exact List.count_eq_zero.1 (by omega)
  · exact fun h => listed_congr h "" "None"

/-! ## Both ways -/

/-- The cell of a condition in the column of values. -/
def tableValue (c : Condition) : String :=
  Table.formatValue false (Value.fieldOf "value" c.toLine.row.fields)

/-- The values of a condition in a line of text. -/
def lineValue (c : Condition) : String :=
  inlineValue c.toLine.row.value

/-- A null is among the values of a membership test. -/
def ListsNull : Condition → Prop
  | .membership _ values _ => .null ∈ values
  | _ => False

/-- A list of values has brackets around it in a line. -/
def bracketed : Condition → String → String
  | .membership _ _ _, s => "(" ++ s ++ ")"
  | _, s => s

/-- The values of a condition, each null as `NULL`. -/
def valueText (c : Condition) : String :=
  listed "NULL" c.values

theorem exists_stands {es : List Expr} {vs : List Value} (h : List.Forall₂ Expr.Stands es vs) :
    ∀ v ∈ vs, ∃ e : Expr, e.Stands v := by
  induction h with
  | nil => exact List.forall_mem_nil _
  | cons hv _ ih => exact List.forall_mem_cons.2 ⟨⟨_, hv⟩, ih⟩

theorem cellText_of_stands {e : Expr} {v : Value} (h : e.Stands v) :
    Table.cellText v = shownAs "" v := by
  cases h <;> rfl

theorem cellTexts_eq_map (values : List Value) :
    Table.cellTexts values = values.map Table.cellText := by
  induction values with
  | nil => rfl
  | cons v rest ih => rw [Table.cellTexts, ih, List.map_cons]

section Shown

variable {v : Value} {values : List Value}

theorem comparison_shown {e : Expr} (h : e.Stands v) (column : String) (operator : Comparator) :
    tableValue (.comparison column operator v) = shownAs "NULL" v ∧
      lineValue (.comparison column operator v) = shownAs "NULL" v := by
  cases h <;> exact ⟨rfl, rfl⟩

theorem membership_table (h : ∀ v ∈ values, ∃ e : Expr, e.Stands v) (column : String)
    (negated : Bool) : tableValue (.membership column values negated) = listed "" values := by
  show joinWith ", " (Table.cellTexts values) = listed "" values
  rw [cellTexts_eq_map, listed]
  congr 1
  refine List.map_congr_left fun v hv => ?_
  obtain ⟨e, he⟩ := h v hv
  exact cellText_of_stands he

theorem membership_line (values : List Value) (column : String) (negated : Bool) :
    lineValue (.membership column values negated) = "(" ++ listed "None" values ++ ")" := by
  have hplain : values.map Value.plain = values.map (shownAs "None") := by
    refine List.map_congr_left fun v _ => ?_
    by_cases hv : v = .null
    · rw [hv]
      rfl
    · rw [shownAs, if_neg hv]
  show "(" ++ joinWith ", " (values.map Value.plain) ++ ")" = _
  rw [hplain, listed]

end Shown

/-- **Both ways are the same if no null is listed.** -/
theorem shown_alike {leaf c : Condition} (hleaf : Condition.LeafOf leaf c)
    (hstands : ∀ v ∈ leaf.values, ∃ e : Expr, e.Stands v) :
    (bracketed leaf (tableValue leaf) = lineValue leaf ↔ ¬ListsNull leaf) ∧
      (¬ListsNull leaf → tableValue leaf = valueText leaf) := by
  induction hleaf with
  | comparison column operator value =>
    obtain ⟨e, he⟩ := hstands value (List.mem_singleton.2 rfl)
    obtain ⟨htable, hline⟩ := comparison_shown he column operator
    exact ⟨⟨fun _ => id, fun _ => htable.trans hline.symm⟩, fun _ => htable⟩
  | membership column values negated =>
    have htable : tableValue (.membership column values negated) = listed "" values :=
      membership_table hstands column negated
    rw [htable, membership_line, bracketed, String.append_left_inj, String.append_right_inj,
      listed_eq_iff]
    exact ⟨Iff.rfl, fun h => listed_congr h "" "NULL"⟩
  | part _ _ ih => exact ih hstands

/-- The text of a condition that joins no others ends with its values. -/
theorem text_eq_lineValue {leaf c : Condition} (h : Condition.LeafOf leaf c) :
    leaf.toLine.text = leaf.toLine.row.column.plain ++ " " ++ leaf.toLine.row.operator.plain ++
      " " ++ lineValue leaf := by
  induction h with
  | comparison | membership => rfl
  | part _ _ ih => exact ih

/-- A condition that joins others is shown in the table by its text. -/
theorem shown_in_entry {leaf entry : Condition} (h : Condition.LeafOf leaf entry) :
    entry = leaf ∨ leaf.toLine.text.toList <:+: (tableValue entry).toList := by
  cases h with
  | comparison | membership => exact .inl rfl
  | part hpart h => exact .inr (Condition.LeafOf.part hpart h).infix_text

end Summary

open Summary

/-- **The values in the conditions of a text are shown the same way everywhere**, up to the brackets
around a list, with one exception: a null in a list is nothing in the table and `None` in a line. -/
theorem Descriptor.values_shown {text : String} {config : Value} {d : Descriptor}
    {notes : List Note} (h : Descriptor.ofText text config = (.ok d, notes)) {entry leaf : Condition}
    (hentry : entry ∈ d.conditions) (hleaf : leaf ∈ entry.leaves) :
    (entry = leaf ∨ leaf.toLine.text.toList <:+: (tableValue entry).toList) ∧
      leaf.toLine.text = leaf.toLine.row.column.plain ++ " " ++ leaf.toLine.row.operator.plain ++
        " " ++ lineValue leaf ∧
      (bracketed leaf (tableValue leaf) = lineValue leaf ↔ ¬ListsNull leaf) ∧
      (¬ListsNull leaf → tableValue leaf = valueText leaf) ∧
      ∀ column values negated, leaf = .membership column values negated →
        tableValue leaf = listed "" values ∧
          lineValue leaf = "(" ++ listed "None" values ++ ")" := by
  obtain ⟨q, settings, hparse, _, hderived⟩ := ofText_eq_ok h
  have hprintable : q.Printable :=
    (Script.printable_of_parse hparse).2 (.select q) (List.mem_singleton.mpr rfl)
  have hleaf := Condition.leafOf_of_mem hleaf
  have hstands : ∀ v ∈ leaf.values, ∃ e : Expr, e.Stands v := by
    intro v hv
    have hmem : v ∈ d.conditions.flatMap Condition.values :=
      List.mem_flatMap.2 ⟨entry, hentry, hleaf.values_subset hv⟩
    exact exists_stands (stands_of_derived hprintable hderived) v hmem
  obtain ⟨halike, hnull⟩ := shown_alike hleaf hstands
  refine ⟨shown_in_entry hleaf, text_eq_lineValue hleaf, halike, hnull, ?_⟩
  rintro column values negated rfl
  exact ⟨membership_table hstands column negated, membership_line values column negated⟩

/-- A list inside a disjunction, and a comparison with null. -/
theorem Descriptor.values_shown_joined :
    ∃ d notes, Descriptor.ofText "SELECT * FROM t WHERE a IN (1, 'x') OR b = NULL" .null =
        (.ok d, notes) ∧
      ∃ entry ∈ d.conditions, ∃ leaf ∈ entry.leaves, ∃ other ∈ entry.leaves,
        tableValue entry = "(a IN (1, \"x\") OR b = NULL)" ∧
        tableValue leaf = "1, \"x\"" ∧ lineValue leaf = "(1, \"x\")" ∧
        tableValue other = "NULL" ∧ lineValue other = "NULL" ∧
        (bracketed leaf (tableValue leaf) = lineValue leaf ↔ ¬ListsNull leaf) := by
  have hrun : (ofText "SELECT * FROM t WHERE a IN (1, 'x') OR b = NULL" .null).1.map
      (fun d => d.conditions.map fun entry =>
        (tableValue entry, entry.leaves.map fun leaf => (tableValue leaf, lineValue leaf))) =
      .ok [("(a IN (1, \"x\") OR b = NULL)",
        [("1, \"x\"", "(1, \"x\")"), ("NULL", "NULL")])] := by
    decide +kernel
  obtain ⟨d, notes, htext, hshown⟩ := ofText_of_map hrun
  obtain ⟨entry, hconditions, hentry⟩ := List.map_eq_singleton_iff.1 hshown
  obtain ⟨htable, hpairs⟩ := Prod.mk.inj hentry
  obtain ⟨leaf, rest, hleaves, hleaf, hrest⟩ := List.map_eq_cons_iff.1 hpairs
  obtain ⟨other, rfl, hother⟩ := List.map_eq_singleton_iff.1 hrest
  obtain ⟨hleaf, hleafLine⟩ := Prod.mk.inj hleaf
  obtain ⟨hother, hotherLine⟩ := Prod.mk.inj hother
  have hentry : entry ∈ d.conditions := by
    rw [hconditions]
    exact List.mem_singleton.2 rfl
  have hfirst : leaf ∈ entry.leaves := by
    rw [hleaves]
    exact List.mem_cons_self
  have hsecond : other ∈ entry.leaves := by
    rw [hleaves]
    exact List.mem_cons_of_mem _ (List.mem_singleton.2 rfl)
  obtain ⟨_, _, halike, _, _⟩ := values_shown htext hentry hfirst
  exact ⟨d, notes, htext, entry, hentry, leaf, hfirst, other, hsecond, htable, hleaf, hleafLine,
    hother, hotherLine, halike⟩

/-- In a list with a null the two ways differ, and neither shows it as `NULL`. -/
theorem Descriptor.listed_null_differs :
    ∃ d notes, ofText "SELECT id FROM t WHERE a IN (1, NULL)" .null = (.ok d, notes) ∧
      ∃ entry ∈ d.conditions, ∃ leaf ∈ entry.leaves, tableValue leaf = "1, " ∧
        lineValue leaf = "(1, None)" ∧ valueText leaf = "1, NULL" := by
  have hrun : (ofText "SELECT id FROM t WHERE a IN (1, NULL)" .null).1.map
      (fun d => d.conditions.map fun entry => entry.leaves.map fun leaf =>
        (tableValue leaf, lineValue leaf, valueText leaf)) =
      .ok [[("1, ", "(1, None)", "1, NULL")]] := by
    decide +kernel
  obtain ⟨d, notes, htext, hshown⟩ := ofText_of_map hrun
  obtain ⟨entry, hconditions, hentry⟩ := List.map_eq_singleton_iff.1 hshown
  obtain ⟨leaf, hleaves, hleaf⟩ := List.map_eq_singleton_iff.1 hentry
  obtain ⟨htable, hpair⟩ := Prod.mk.inj hleaf
  obtain ⟨hline, hright⟩ := Prod.mk.inj hpair
  refine ⟨d, notes, htext, entry, ?_, leaf, ?_, htable, hline, hright⟩
  · rw [hconditions]
    exact List.mem_singleton.2 rfl
  · rw [hleaves]
    exact List.mem_singleton.2 rfl

end QueryPipeline
