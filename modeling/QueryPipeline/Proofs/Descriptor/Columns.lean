import QueryPipeline.Proofs.Descriptor.Build

/-!
# The columns of a descriptor

The names of the items of a select list are gathered in one pass, which skips the names that
pipelines keep for themselves and those that it has seen.  `Kept` says without a pass what is left:
which names, and that they come in the order of their first appearance.  A list with other items
between, which are skipped (`Padded`), leaves the same.
-/

namespace QueryPipeline.Descriptor

/-! ## Names that are left -/

/-- What is left of some names behind those that were seen: each one that is neither reserved nor
seen, in the order of first appearance. -/
structure Kept (seen names kept : List String) : Prop where
  mem_iff : ∀ n, n ∈ kept ↔ n ∈ names ∧ n ∉ Source.reservedColumns ∧ n ∉ seen
  ordered : kept.Pairwise fun a b => names.idxOf a < names.idxOf b

namespace Kept

variable {seen names kept : List String} {name : String}

theorem nil : Kept seen [] [] where
  mem_iff n := by simp
  ordered := .nil

theorem nodup (h : Kept seen names kept) : kept.Nodup := by
  apply h.ordered.imp
  intro a b hlt heq
  subst heq
  exact Nat.lt_irrefl _ hlt

theorem ordered_cons (h : Kept seen names kept) (hname : name ∉ kept) :
    kept.Pairwise fun a b => (name :: names).idxOf a < (name :: names).idxOf b := by
  refine h.ordered.imp_of_mem ?_
  intro a b ha hb hlt
  have hane : name ≠ a := fun heq => hname (heq ▸ ha)
  have hbne : name ≠ b := fun heq => hname (heq ▸ hb)
  rw [List.idxOf_cons_ne _ hane, List.idxOf_cons_ne _ hbne]
  omega

/-- A name that is reserved or was seen adds nothing. -/
theorem skip (h : Kept seen names kept) (hname : name ∈ Source.reservedColumns ∨ name ∈ seen) :
    Kept seen (name :: names) kept := by
  have hout : name ∉ kept := by
    intro hmem
    obtain ⟨_, hfree, hnew⟩ := (h.mem_iff name).1 hmem
    exact hname.elim hfree hnew
  refine ⟨fun n => ?_, h.ordered_cons hout⟩
  rw [h.mem_iff, List.mem_cons]
  constructor
  · rintro ⟨hn, hrest⟩
    exact ⟨.inr hn, hrest⟩
  · rintro ⟨rfl | hn, hfree, hnew⟩
    · exact absurd hname (not_or.2 ⟨hfree, hnew⟩)
    · exact ⟨hn, hfree, hnew⟩

/-- Any other name comes first. -/
theorem add (h : Kept (seen ++ [name]) names kept) (hfree : name ∉ Source.reservedColumns)
    (hnew : name ∉ seen) : Kept seen (name :: names) (name :: kept) := by
  have hout : name ∉ kept := by
    intro hmem
    obtain ⟨_, _, hseen⟩ := (h.mem_iff name).1 hmem
    exact hseen (by simp)
  refine ⟨fun n => ?_, .cons ?_ (h.ordered_cons hout)⟩
  · by_cases hn : n = name
    · subst hn
      simp [hfree, hnew]
    · rw [List.mem_cons, List.mem_cons, h.mem_iff]
      simp [hn]
  · intro b hb
    have hne : name ≠ b := fun heq => hout (heq ▸ hb)
    rw [List.idxOf_cons_self, List.idxOf_cons_ne _ hne]
    omega

end Kept

/-- What the pass does with the name of the first item. -/
theorem namesFrom_cons {seen : List String} {item : Value} {rest : List Value} {name : String}
    (h : columnName item = .ok name) :
    namesFrom seen (item :: rest) =
      if name ∈ Source.reservedColumns ∨ name ∈ seen then namesFrom seen rest
      else namesFrom (seen ++ [name]) rest := by
  rw [namesFrom, h]
  change (if (Source.reservedColumns.contains name || seen.contains name) = true then _ else _) = _
  simp

/-- **What the pass gathers**, behind the names that it has seen. -/
theorem namesFrom_kept {items : List Value} {names : List String}
    (h : List.Forall₂ (columnName · = .ok ·) items names) :
    ∀ seen, ∃ kept, namesFrom seen items = .ok (seen ++ kept) ∧ Kept seen names kept := by
  induction h with
  | nil =>
    intro seen
    exact ⟨[], by rw [namesFrom, List.append_nil], .nil⟩
  | @cons item name items names hname _ ih =>
    intro seen
    rw [namesFrom_cons hname]
    by_cases hskip : name ∈ Source.reservedColumns ∨ name ∈ seen
    · obtain ⟨kept, hrun, hkept⟩ := ih seen
      rw [if_pos hskip]
      exact ⟨kept, hrun, hkept.skip hskip⟩
    · obtain ⟨kept, hrun, hkept⟩ := ih (seen ++ [name])
      obtain ⟨hfree, hnew⟩ := not_or.1 hskip
      rw [if_neg hskip]
      exact ⟨name :: kept, by simpa using hrun, hkept.add hfree hnew⟩

/-! ## Items that add nothing -/

/-- The second list has the items of the first in their order, and between them reserved columns and
items that stand before.  What is before both lists is given too. -/
inductive Padded : List Value → List Value → List Value → Prop
  | nil {before : List Value} : Padded before [] []
  | keep {before items longer : List Value} {item : Value} :
      Padded (item :: before) items longer → Padded before (item :: items) (item :: longer)
  | reserved {before items longer : List Value} {item : Value} {name : String} :
      columnName item = .ok name → name ∈ Source.reservedColumns →
      Padded before items longer → Padded before items (item :: longer)
  | again {before items longer : List Value} {item : Value} :
      item ∈ before → Padded before items longer → Padded before items (item :: longer)

/-- **Nothing is gathered from them.**  All items before have been passed, so that each has a name
that is reserved or seen. -/
theorem namesFrom_padded {before items longer : List Value} (h : Padded before items longer) :
    ∀ seen, (∀ item ∈ before, ∃ name, columnName item = .ok name ∧
      (name ∈ Source.reservedColumns ∨ name ∈ seen)) →
    namesFrom seen longer = namesFrom seen items := by
  induction h with
  | nil =>
    intro seen _
    rfl
  | @keep before items longer item _ ih =>
    intro seen hbefore
    cases hname : columnName item with
    | error p => rw [namesFrom, namesFrom, hname]; rfl
    | ok name =>
      rw [namesFrom_cons hname, namesFrom_cons hname]
      by_cases hskip : name ∈ Source.reservedColumns ∨ name ∈ seen
      · rw [if_pos hskip, if_pos hskip]
        exact ih seen (List.forall_mem_cons.2 ⟨⟨name, hname, hskip⟩, hbefore⟩)
      · rw [if_neg hskip, if_neg hskip]
        refine ih (seen ++ [name]) (List.forall_mem_cons.2 ⟨⟨name, hname, .inr (by simp)⟩, ?_⟩)
        intro other hother
        obtain ⟨n, hn, hpassed⟩ := hbefore other hother
        exact ⟨n, hn, hpassed.imp_right (List.mem_append_left _)⟩
  | reserved hname hreserved _ ih =>
    intro seen hbefore
    rw [namesFrom_cons hname, if_pos (.inl hreserved)]
    exact ih seen hbefore
  | again hmem _ ih =>
    intro seen hbefore
    obtain ⟨name, hname, hpassed⟩ := hbefore _ hmem
    rw [namesFrom_cons hname, if_pos hpassed]
    exact ih seen hbefore

/-! ## Columns -/

theorem columnsOf_arr {query : List (String × Value)} {items : List Value}
    (h : Value.fieldOf "columns" query = .arr items) :
    columnsOf query =
      (namesFrom [] items).map fun names => if names.isEmpty then ["*"] else names := by
  rw [columnsOf, h]
  change (namesFrom [] items >>= _) = _
  cases namesFrom [] items <;> rfl

/-- **The columns of a descriptor are exact.**  If all items of a select list have names, its
columns are those that are left of the names, or all columns if none is left.  They are not empty,
without duplicates and not reserved, they are those of each descriptor that is built from the query,
and more reserved columns and repeated items do not change them. -/
theorem columnsOf_exact {query : List (String × Value)} {items : List Value} {names : List String}
    (hitems : Value.fieldOf "columns" query = .arr items)
    (hnames : List.Forall₂ (columnName · = .ok ·) items names) :
    ∃ columns, columnsOf query = .ok columns ∧
      (∃ kept, Kept [] names kept ∧ columns = if kept = [] then ["*"] else kept) ∧
      columns ≠ [] ∧ columns.Nodup ∧ (∀ name ∈ columns, name ∉ Source.reservedColumns) ∧
      (∀ tree config s d u, mapOf tree = .ok query → build tree config s = .ok d u →
        d.columns = columns) ∧
      ∀ other longer, Value.fieldOf "columns" other = .arr longer → Padded [] items longer →
        columnsOf other = .ok columns := by
  obtain ⟨kept, hrun, hkept⟩ := namesFrom_kept hnames []
  have hcolumns : columnsOf query = .ok (if kept = [] then ["*"] else kept) := by
    rw [columnsOf_arr hitems, hrun]
    simp [Except.map]
  refine ⟨_, hcolumns, ⟨kept, hkept, rfl⟩, ?_, ?_, ?_, ?_, ?_⟩
  · split
    · simp
    · assumption
  · split
    · simp
    · exact hkept.nodup
  · intro name hname
    split at hname
    · rw [List.mem_singleton.1 hname]
      decide
    · exact ((hkept.mem_iff name).1 hname).2.1
  · intro tree config s d u hmap hbuild
    obtain ⟨map, settings, hmap', _, hderived⟩ := build_eq_ok hbuild
    cases hmap.symm.trans hmap'
    exact Except.ok.inj (hderived.columns.symm.trans hcolumns)
  · intro other longer hlonger hpadded
    rw [← hcolumns, columnsOf_arr hlonger, columnsOf_arr hitems, namesFrom_padded hpadded [] nofun]

/-- Between two items, and around them, reserved columns and the first item again. -/
theorem columnsOf_exact_reserved :
    let b : Value := .obj [("type", .str "column"), ("name", .str "b")]
    let n : Value := .obj [("type", .str "function"), ("name", .str "COUNT"), ("alias", .str "n")]
    let row : Value := .obj [("type", .str "column"), ("name", .str "__row_number")]
    columnsOf [("columns", .arr [b, n])] = .ok ["b", "n"] ∧
      columnsOf [("columns", .arr [row, b, b, row, n, b])] = .ok ["b", "n"] := by
  intro b n row
  have hitems : Value.fieldOf "columns" [("columns", .arr [b, n])] = .arr [b, n] := rfl
  have hnames : List.Forall₂ (columnName · = .ok ·) [b, n] ["b", "n"] := .cons rfl (.cons rfl .nil)
  have hrow : columnName row = .ok "__row_number" := rfl
  have hpadded : Padded [] [b, n] [row, b, b, row, n, b] :=
    .reserved hrow (by decide) (.keep (.again (by simp) (.reserved hrow (by decide)
      (.keep (.again (by simp) .nil)))))
  obtain ⟨columns, hcolumns, _, _, _, _, _, hlonger⟩ := columnsOf_exact hitems hnames
  have hbn : columnsOf [("columns", .arr [b, n])] = .ok ["b", "n"] := rfl
  cases hbn.symm.trans hcolumns
  exact ⟨hbn, hlonger _ _ rfl hpadded⟩

end QueryPipeline.Descriptor
