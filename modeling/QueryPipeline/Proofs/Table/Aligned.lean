import Mathlib.Data.List.DropRight
import Mathlib.Data.List.Forall2
import Mathlib.Data.List.Nodup
import QueryPipeline.Proofs.Value.Same
import QueryPipeline.Table

/-!
# Tables are aligned

All lines of a table have their columns in the same places.  `Spans` says so of a line before the
white space at its end is cut: the cell of column `i` starts at `offset sizes i` and is filled up to
the width of the column, and a bar stands behind it.

    first | 3, 1
    ^       ^
    0       8 = 5 + 3

The widths are those of the widest texts (`Widest`), where the names of the columns are one more
row.  They are taken over the rows that are shown, after their cells are cut.
-/

namespace QueryPipeline.Table

/-! ## The columns of records -/

/-- The names of a list, each once, in the order of first appearance. -/
structure Once (names kept : List String) : Prop where
  mem_iff : ∀ n, n ∈ kept ↔ n ∈ names
  ordered : kept.Pairwise fun a b => names.idxOf a < names.idxOf b

namespace Once

variable {names kept : List String} {name : String}

theorem nodup (h : Once names kept) : kept.Nodup := by
  apply h.ordered.imp
  intro a b hlt heq
  subst heq
  omega

theorem ordered_append (h : Once names kept) :
    kept.Pairwise fun a b => (names ++ [name]).idxOf a < (names ++ [name]).idxOf b := by
  refine h.ordered.imp_of_mem ?_
  intro a b ha hb hlt
  rw [List.idxOf_append_of_mem ((h.mem_iff a).1 ha), List.idxOf_append_of_mem ((h.mem_iff b).1 hb)]
  exact hlt

/-- A name that is there adds nothing. -/
theorem append_seen (h : Once names kept) (hname : name ∈ kept) : Once (names ++ [name]) kept := by
  refine ⟨fun n => ?_, h.ordered_append⟩
  rw [List.mem_append, List.mem_singleton, ← h.mem_iff]
  constructor
  · exact Or.inl
  · rintro (hn | rfl)
    · exact hn
    · exact hname

/-- A new name comes last. -/
theorem append_new (h : Once names kept) (hname : name ∉ kept) :
    Once (names ++ [name]) (kept ++ [name]) := by
  refine ⟨fun n => ?_, List.pairwise_append.2 ⟨h.ordered_append, List.pairwise_singleton _ _, ?_⟩⟩
  · rw [List.mem_append, List.mem_append, h.mem_iff]
  · intro a ha b hb
    have hout : name ∉ names := fun hn => hname ((h.mem_iff name).2 hn)
    have hin : a ∈ names := (h.mem_iff a).1 ha
    rw [List.mem_singleton.1 hb, List.idxOf_append_of_mem hin, List.idxOf_append_of_notMem hout,
      List.idxOf_cons_self]
    have := List.idxOf_lt_length_of_mem hin
    omega

end Once

/-- **What the pass over the names keeps.**  The induction takes the last name off, since the pass
goes from the left. -/
theorem once_distinct (names : List String) : Once names (distinct names) := by
  induction names using List.reverseRecOn with
  | nil => exact ⟨fun n => Iff.rfl, .nil⟩
  | append_singleton names name ih =>
    have hstep : distinct (names ++ [name]) =
        if name ∈ distinct names then distinct names else distinct names ++ [name] := by
      rw [distinct, List.foldl_append]
      rfl
    rw [hstep]
    by_cases hname : name ∈ distinct names
    · rw [if_pos hname]
      exact ih.append_seen hname
    · rw [if_neg hname]
      exact ih.append_new hname

theorem mem_columnsOf {records : List (List (String × Value))} {name : String} :
    name ∈ columnsOf records ↔ ∃ record ∈ records, ∃ f ∈ record, f.1 = name := by
  rw [columnsOf, (once_distinct _).mem_iff, List.mem_flatMap]
  simp only [List.mem_map]

theorem columnsOf_ne_nil {records : List (List (String × Value))}
    (h : ∃ record ∈ records, record ≠ []) : columnsOf records ≠ [] := by
  obtain ⟨record, hrecord, hfields⟩ := h
  obtain ⟨f, hf⟩ := List.exists_mem_of_ne_nil _ hfields
  exact List.ne_nil_of_mem (mem_columnsOf.2 ⟨record, hrecord, f, hf, rfl⟩)

/-! ## Widths -/

/-- Each column is as wide as the widest of its texts, its name included. -/
structure Widest (columns : List String) (shown : List (List String)) (sizes : List Nat) :
    Prop where
  count : sizes.length = columns.length
  enough : ∀ (i w : Nat), sizes[i]? = some w →
    ∀ row ∈ columns :: shown, ∀ c : String, row[i]? = some c → c.length ≤ w
  reached : ∀ (i w : Nat), sizes[i]? = some w →
    ∃ row ∈ columns :: shown, ∃ c : String, row[i]? = some c ∧ c.length = w

/-- A pass that keeps the largest size. -/
theorem foldl_max {α : Type} (size : α → Nat) (rows : List α) : ∀ start : Nat,
    let w := rows.foldl (fun w row => max w (size row)) start
    start ≤ w ∧ (∀ row ∈ rows, size row ≤ w) ∧ (w = start ∨ ∃ row ∈ rows, w = size row) := by
  induction rows with
  | nil =>
    intro start
    exact ⟨Nat.le_refl _, List.forall_mem_nil _, .inl rfl⟩
  | cons row rows ih =>
    intro start
    obtain ⟨hstart, hall, hsome⟩ := ih (max start (size row))
    rw [List.foldl_cons]
    refine ⟨by omega, List.forall_mem_cons.2 ⟨by omega, hall⟩, ?_⟩
    rcases hsome with hw | ⟨r, hr, hw⟩
    · by_cases hrow : size row ≤ start
      · exact .inl (hw.trans (Nat.max_eq_left hrow))
      · exact .inr ⟨row, List.mem_cons_self, hw.trans (Nat.max_eq_right (by omega))⟩
    · exact .inr ⟨r, List.mem_cons_of_mem _ hr, hw⟩

theorem widest_widths (columns : List String) (rows : List (List String)) :
    Widest columns rows (widths columns rows) := by
  have hsize : ∀ i w : Nat, (widths columns rows)[i]? = some w → ∃ name : String,
      columns[i]? = some name ∧
        w = rows.foldl (fun w row => max w ((row[i]?).elim 0 String.length)) name.length := by
    intro i w hw
    rw [widths, List.getElem?_mapIdx, Option.map_eq_some_iff] at hw
    obtain ⟨name, hname, rfl⟩ := hw
    exact ⟨name, hname, rfl⟩
  refine ⟨List.length_mapIdx, fun i w hw row hrow c hc => ?_, fun i w hw => ?_⟩
  · obtain ⟨name, hname, rfl⟩ := hsize i w hw
    obtain ⟨hstart, hall, -⟩ :=
      foldl_max (fun row : List String => (row[i]?).elim 0 String.length) rows name.length
    rcases List.mem_cons.1 hrow with rfl | hrow
    · cases hname.symm.trans hc
      exact hstart
    · have := hall row hrow
      rwa [hc] at this
  · obtain ⟨name, hname, rfl⟩ := hsize i w hw
    obtain ⟨hstart, -, hsome⟩ :=
      foldl_max (fun row : List String => (row[i]?).elim 0 String.length) rows name.length
    rcases hsome with hw | ⟨row, hrow, hw⟩
    · exact ⟨columns, List.mem_cons_self, name, hname, hw.symm⟩
    · cases hcell : row[i]? with
      | some c =>
        rw [hcell] at hw
        exact ⟨row, List.mem_cons_of_mem _ hrow, c, hcell, hw.symm⟩
      | none =>
        -- a row without that cell asks for no width, so that the name is empty too
        rw [hcell] at hw
        refine ⟨columns, List.mem_cons_self, name, hname, ?_⟩
        change _ = 0 at hw
        omega

/-- A row with a cell for each column fits into the widths. -/
theorem Widest.fits {columns : List String} {shown : List (List String)} {sizes : List Nat}
    (h : Widest columns shown sizes) {row : List String} (hrow : row ∈ columns :: shown)
    (hlength : row.length = columns.length) : List.Forall₂ (fun c w => c.length ≤ w) row sizes := by
  refine List.forall₂_iff_get.2 ⟨hlength.trans h.count.symm, fun i hi hw => ?_⟩
  exact h.enough i _ (List.getElem?_eq_getElem hw) row hrow _ (List.getElem?_eq_getElem hi)

/-- A dash fits into each column, since its name is not empty. -/
theorem Widest.dashes {columns : List String} {shown : List (List String)} {sizes : List Nat}
    (h : Widest columns shown sizes) (hnames : ∀ name ∈ columns, name ≠ "") :
    List.Forall₂ (fun c w => c.length ≤ w) (columns.map fun _ => "-") sizes := by
  have hfits := (List.forall₂_and_left _ _).2 ⟨hnames, h.fits List.mem_cons_self rfl⟩
  refine List.forall₂_map_left_iff.2 (hfits.imp fun name w hname => ?_)
  have hzero : name.length ≠ 0 := fun heq => hname.1 (String.length_eq_zero_iff.1 heq)
  have hle : name.length ≤ w := hname.2
  show 1 ≤ w
  omega

/-! ## Lines -/

/-- Where a column starts: behind the columns before it, and a bar behind each of them. -/
def offset : List Nat → Nat → Nat
  | _, 0 => 0
  | [], _ + 1 => 0
  | w :: sizes, i + 1 => w + 3 + offset sizes i

/-- A line before its end is cut: each cell fills its column, a bar stands behind each column but
the last, and there is nothing else. -/
structure Spans (fill : Char) (sizes : List Nat) (cells : List String) (full : List Char) :
    Prop where
  count : cells.length = sizes.length
  cell : ∀ i c w, cells[i]? = some c → sizes[i]? = some w → c.length ≤ w ∧
    (full.drop (offset sizes i)).take w = c.toList ++ List.replicate (w - c.length) fill
  bar : ∀ i w, sizes[i]? = some w → i + 1 < sizes.length →
    (full.drop (offset sizes i + w)).take 3 = [' ', '|', ' ']
  length : full.length + 3 = offset sizes sizes.length

/-- A line that shows some cells: white space may be missing at its end, and none is there. -/
def Shows (fill : Char) (sizes : List Nat) (cells : List String) (line : String) : Prop :=
  ∃ blanks : List Char, Spans fill sizes cells (line.toList ++ blanks) ∧
    (∀ c ∈ blanks, Text.isBlank c = true) ∧
    ∀ c ∈ line.toList.getLast?, Text.isBlank c = false

theorem length_pad {fill : Char} {w : Nat} {c : String} (h : c.length ≤ w) :
    (pad fill w c).length = w := by
  rw [pad, List.length_append, List.length_replicate, String.length_toList]
  omega

namespace Spans

variable {fill : Char} {sizes : List Nat} {cells : List String} {full : List Char} {c : String}
  {w : Nat}

theorem single (h : c.length ≤ w) : Spans fill [w] [c] (pad fill w c) where
  count := rfl
  cell i d v hd hv := by
    rcases i with _ | i
    · cases hd
      cases hv
      refine ⟨h, ?_⟩
      rw [offset, List.drop_zero, List.take_of_length_le (length_pad h).le]
      rfl
    · cases hd
  bar i v hv hi := by
    rw [List.length_singleton] at hi
    omega
  length := by rw [length_pad h]; rfl

/-- One more column in front. -/
theorem cons (h : c.length ≤ w) (hrest : Spans fill sizes cells full) :
    Spans fill (w :: sizes) (c :: cells) (pad fill w c ++ ' ' :: '|' :: ' ' :: full) := by
  have hpad : (pad fill w c).length = w := length_pad h
  have hbehind : ∀ n, (pad fill w c ++ ' ' :: '|' :: ' ' :: full).drop (w + 3 + n) =
      full.drop n := by
    intro n
    rw [List.drop_append, hpad, List.drop_eq_nil_of_le (by omega), List.nil_append]
    have hn : w + 3 + n - w = n + 3 := by omega
    rw [hn]
    rfl
  refine ⟨?_, fun i d v hd hv => ?_, fun i v hv hi => ?_, ?_⟩
  · rw [List.length_cons, List.length_cons, hrest.count]
  · rcases i with _ | i
    · cases hd
      cases hv
      refine ⟨h, ?_⟩
      rw [offset, List.drop_zero, List.take_append_of_le_length hpad.ge,
        List.take_of_length_le hpad.le]
      rfl
    · rw [offset, hbehind]
      exact hrest.cell i d v hd hv
  · rcases i with _ | i
    · cases hv
      rw [offset, Nat.zero_add, List.drop_append, hpad, Nat.sub_self,
        List.drop_eq_nil_of_le hpad.le]
      rfl
    · rw [offset, Nat.add_assoc (w + 3), hbehind]
      refine hrest.bar i v hv ?_
      rw [List.length_cons] at hi
      omega
  · have := hrest.length
    rw [List.length_append, hpad, List.length_cons, List.length_cons, List.length_cons,
      List.length_cons, offset]
    omega

end Spans

/-- **The cells of a line stand in their columns.** -/
theorem spans_withBars (fill : Char) {cells : List String} {sizes : List Nat}
    (h : List.Forall₂ (fun c w => c.length ≤ w) cells sizes) (hsome : cells ≠ []) :
    Spans fill sizes cells (withBars (List.zipWith (fun c w => pad fill w c) cells sizes)) := by
  induction h with
  | nil => exact absurd rfl hsome
  | @cons c w cells sizes hc hcells ih =>
    cases hcells with
    | nil => exact .single hc
    | cons => exact .cons hc (ih (by simp))

theorem shows_rowText (fill : Char) {cells : List String} {sizes : List Nat}
    (h : List.Forall₂ (fun c w => c.length ≤ w) cells sizes) (hsome : cells ≠ []) :
    Shows fill sizes cells (rowText fill cells sizes) := by
  have hspans := spans_withBars fill h hsome
  generalize hfull : withBars (List.zipWith (fun c w => pad fill w c) cells sizes) = full at hspans
  have hline : (rowText fill cells sizes).toList = full.rdropWhile Text.isBlank := by
    rw [rowText, hfull, String.toList_ofList]
    rfl
  refine ⟨full.rtakeWhile Text.isBlank, ?_, fun c hc => List.mem_rtakeWhile_imp hc, ?_⟩
  · rwa [hline, List.rdropWhile_append_rtakeWhile]
  · intro c hc
    rw [hline] at hc
    obtain ⟨hne, rfl⟩ := List.mem_getLast?_eq_getLast hc
    exact Bool.eq_false_iff.2 (List.rdropWhile_last_not Text.isBlank full hne)

/-! ## Cells -/

theorem length_cut_le (s : String) : (cut s).length ≤ cellWidth := by
  rw [cut]
  split
  · have hellipsis : ellipsis.length = 3 := rfl
    rw [String.length_append, String.length_ofList, List.length_take, hellipsis]
    exact Nat.add_le_of_le_sub (by decide) (Nat.min_le_left _ _)
  · omega

/-- A text that was made of a value is cut as the value would be. -/
theorem formatValue_text (v : Value) :
    formatValue true (.str (formatValue false v)) = formatValue true v :=
  rfl

/-- The texts that a table shows for a record. -/
def shownCells (columns : List String) (record : List (String × Value)) : List String :=
  columns.map fun c => formatValue true (Value.fieldOf c record)

/-! ## Tables -/

theorem joinWith_cons_cons (separator s t : String) (rest : List String) :
    joinWith separator (s :: t :: rest) = s ++ separator ++ joinWith separator (t :: rest) :=
  rfl

theorem joinWith_append (separator last first : String) (texts : List String) :
    joinWith separator (first :: texts ++ [last]) =
      joinWith separator (first :: texts) ++ separator ++ last := by
  induction texts generalizing first with
  | nil => rfl
  | cons s texts ih =>
    rw [List.cons_append, List.cons_append, joinWith_cons_cons, ← List.cons_append, ih,
      joinWith_cons_cons]
    simp only [String.append_assoc]

/-- The last line of a table that leaves rows out. -/
def hiddenLine (hidden : Nat) : String :=
  "... and " ++ Text.natText hidden ++ " more rows"

theorem render_eq (columns : List String) (shown : List (List String)) (hidden : Nat) :
    let sizes := widths columns shown
    render columns shown hidden =
      joinWith "\n" (rowText ' ' columns sizes ::
        rowText '-' (columns.map fun _ => "-") sizes ::
        shown.map (fun row => rowText ' ' row sizes) ++
        if 0 < hidden then [hiddenLine hidden] else []) := by
  intro sizes
  have hrender : render columns shown hidden =
      joinWith "\n" (rowText ' ' columns sizes :: rowText '-' (columns.map fun _ => "-") sizes ::
        shown.map fun row => rowText ' ' row sizes) ++
      if hidden = 0 then "" else "\n... and " ++ Text.natText hidden ++ " more rows" := rfl
  rw [hrender]
  by_cases hmore : 0 < hidden
  · rw [if_pos hmore, if_neg (by omega), joinWith_append, hiddenLine]
    have hbreak : "\n... and " = "\n" ++ "... and " := rfl
    rw [hbreak]
    simp only [String.append_assoc]
  · rw [if_neg hmore, if_pos (by omega), List.append_nil, String.append_empty]

/-! ## Batches -/

/-- Columns with different names and equally many cells. -/
structure AreEven (columns : List (String × List String)) : Prop where
  nodup : (columns.map Prod.fst).Nodup
  even : ∀ c ∈ columns, ∀ d ∈ columns, c.2.length = d.2.length

/-- **A batch of columns of texts keeps their order and contents.** -/
structure Columnar.Keeps {β : Type} (keep : Columnar β) : Prop where
  names : ∀ {columns}, AreEven columns → keep.names (keep.ofTexts columns) = columns.map Prod.fst
  count : ∀ {columns}, AreEven columns → ∀ c ∈ columns,
    keep.count (keep.ofTexts columns) = c.2.length
  rows : ∀ {columns}, AreEven columns → ∀ (n : Nat), ∀ c ∈ columns,
    (keep.rows (keep.first n (keep.ofTexts columns))).map (fun row => row c.1) =
      (c.2.take n).map .str

/-- The columns of a batch of records. -/
def textColumns (columns : List String) (records : List (List (String × Value))) :
    List (String × List String) :=
  columns.map fun c => (c, records.map fun r => formatValue false (Value.fieldOf c r))

theorem areEven_textColumns {columns : List String} (h : columns.Nodup)
    (records : List (List (String × Value))) : AreEven (textColumns columns records) where
  nodup := by
    rw [textColumns, List.map_map]
    exact (List.map_id' columns).symm ▸ h
  even c hc d hd := by
    obtain ⟨_, _, rfl⟩ := List.mem_map.1 hc
    obtain ⟨_, _, rfl⟩ := List.mem_map.1 hd
    rw [List.length_map, List.length_map]

/-- Rows that agree in each column agree. -/
theorem map_rows_eq {γ : Type} {columns : List String} (hsome : columns ≠ []) (f : Value → String)
    (g : String → γ → Value) {rows : List (String → Value)} {items : List γ}
    (h : ∀ c ∈ columns, rows.map (fun row => row c) = items.map (g c)) :
    rows.map (fun row => columns.map fun c => f (row c)) =
      items.map fun item => columns.map fun c => f (g c item) := by
  obtain ⟨name, hname⟩ := List.exists_mem_of_ne_nil columns hsome
  induction rows generalizing items with
  | nil =>
    have hnil := h name hname
    rw [List.map_nil, eq_comm, List.map_eq_nil_iff] at hnil
    rw [hnil]
    rfl
  | cons row rows ih =>
    obtain ⟨item, rest, rfl⟩ : ∃ item rest, items = item :: rest := by
      cases items with
      | nil => cases h name hname
      | cons item rest => exact ⟨item, rest, rfl⟩
    have hcells : ∀ c ∈ columns, row c = g c item ∧
        rows.map (fun row => row c) = rest.map (g c) := fun c hc => List.cons.inj (h c hc)
    rw [List.map_cons, List.map_cons, ih fun c hc => (hcells c hc).2]
    congr 1
    exact List.map_congr_left fun c hc => by rw [(hcells c hc).1]

/-- **What a batch of records shows**, whatever keeps it. -/
theorem Columnar.Keeps.tabulate_eq {β : Type} {keep : Columnar β} (h : keep.Keeps)
    {columns : List String} (hsome : columns ≠ []) (hnodup : columns.Nodup)
    (records : List (List (String × Value))) (maxRows : Nat) :
    tabulate keep (recordBatch keep columns records) maxRows =
      render columns ((records.take maxRows).map (shownCells columns))
        (records.length - maxRows) := by
  have heven := areEven_textColumns hnodup records
  have hmem : ∀ c ∈ columns, (c, records.map fun r => formatValue false (Value.fieldOf c r)) ∈
      textColumns columns records := fun c hc => List.mem_map_of_mem hc
  obtain ⟨name, hname⟩ := List.exists_mem_of_ne_nil columns hsome
  have hnames : keep.names (recordBatch keep columns records) = columns := by
    refine (h.names heven).trans ?_
    rw [textColumns, List.map_map]
    exact List.map_id' columns
  have hcount : keep.count (recordBatch keep columns records) = records.length :=
    (h.count heven _ (hmem name hname)).trans (List.length_map _)
  have hrows : ∀ c ∈ columns,
      (keep.rows (keep.first maxRows (recordBatch keep columns records))).map (fun row => row c) =
        (records.take maxRows).map fun r => .str (formatValue false (Value.fieldOf c r)) := by
    intro c hc
    have hcolumn := h.rows heven maxRows _ (hmem c hc)
    rw [← List.map_take, List.map_map] at hcolumn
    exact hcolumn
  rw [tabulate, hnames, hcount, map_rows_eq hsome (formatValue true)
    (fun c r => .str (formatValue false (Value.fieldOf c r))) hrows]
  rfl

/-- **Columns that are kept as they are keep their order and contents.** -/
theorem Columns.keeps : Columns.keep.Keeps where
  names {columns} _ := by
    change (columns.map _).map Prod.fst = columns.map Prod.fst
    rw [List.map_map]
    rfl
  count {columns} h c hc := by
    obtain ⟨d, rest, rfl⟩ := List.exists_cons_of_ne_nil (List.ne_nil_of_mem hc)
    change (d.2.map Value.str).length = c.2.length
    rw [List.length_map, h.even d List.mem_cons_self c hc]
  rows {columns} h n c hc := by
    let kept : Columns := columns.map fun c => (c.1, (c.2.map Value.str).take n)
    have hkept : Columns.keep.first n (Columns.keep.ofTexts columns) = kept := List.map_map
    have hnodup : (kept.reverse.map Prod.fst).Nodup := by
      rw [List.map_reverse, List.map_map]
      exact List.nodup_reverse.2 h.nodup
    have hcells : kept.cells c.1 = (c.2.map Value.str).take n := by
      have hmem : (c.1, (c.2.map Value.str).take n) ∈ kept.reverse :=
        List.mem_reverse.2 (List.mem_map_of_mem hc)
      rw [Columns.cells, Value.lookup_eq_some_of_mem hnodup hmem]
      rfl
    have hlength : kept.length = ((c.2.map Value.str).take n).length := by
      obtain ⟨d, rest, rfl⟩ := List.exists_cons_of_ne_nil (List.ne_nil_of_mem hc)
      change ((d.2.map Value.str).take n).length = _
      simp only [List.length_take, List.length_map, h.even d List.mem_cons_self c hc]
    rw [hkept, List.map_take]
    change ((List.range kept.length).map _).map _ = _
    rw [List.map_map, hlength]
    refine List.ext_getElem (by simp) fun i _ hi => ?_
    rw [List.getElem_map, List.getElem_range]
    change (kept.cells c.1).getD i .null = _
    rw [hcells, List.getD_eq_getElem?_getD, List.getElem?_eq_getElem hi]
    rfl

end QueryPipeline.Table
