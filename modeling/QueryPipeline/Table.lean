import QueryPipeline.Value.Display
import QueryPipeline.Text.Blank

/-!
# Text tables

A table has a header, a separator and a line for each row:

    name  | points
    ----- | ------
    first | 3, 1
    last  | 12

All cells of a column are padded to the width of the widest one, and white space at the end of a
line is cut.  Cells are cut to 40 characters, and rows beyond a maximum are only counted.
-/

namespace QueryPipeline.Table

/-! ## Cells -/

mutual

/-- The text of a value in a table: items of a list or tuple with commas between, nothing for
null. -/
def cellText : Value → String
  | .null => ""
  | .bool true => "true"
  | .bool false => "false"
  | .arr items => joinWith ", " (cellTexts items)
  | .tuple items => joinWith ", " (cellTexts items)
  | v => v.plain

def cellTexts : List Value → List String
  | [] => []
  | v :: rest => cellText v :: cellTexts rest

end

/-- The width that a cell is cut to, and what stands for the part that is cut. -/
def cellWidth : Nat := 40

def ellipsis : String := "..."

/-- Cut a text that is too wide for a cell. -/
def cut (s : String) : String :=
  if cellWidth < s.length then
    String.ofList (s.toList.take (cellWidth - ellipsis.length)) ++ ellipsis
  else s

/-- The text of a value, cut if asked for. -/
def formatValue (truncate : Bool) (v : Value) : String :=
  if truncate then cut (cellText v) else cellText v

/-! ## Rows -/

/-- Fill a text up to a width. -/
def pad (fill : Char) (width : Nat) (s : String) : List Char :=
  s.toList ++ List.replicate (width - s.length) fill

/-- Lists of characters with a bar between them. -/
def withBars : List (List Char) → List Char
  | [] => []
  | [cs] => cs
  | cs :: rest => cs ++ ' ' :: '|' :: ' ' :: withBars rest

/-- A line of a table, from the cells and the widths of the columns. -/
def rowText (fill : Char) (cells : List String) (widths : List Nat) : String :=
  String.ofList (Text.trimEnd (withBars (List.zipWith (fun c w => pad fill w c) cells widths)))

/-- The width of each column: that of its widest cell or of its name. -/
def widths (columns : List String) (rows : List (List String)) : List Nat :=
  columns.mapIdx fun i name =>
    rows.foldl (fun w row => max w ((row[i]?).elim 0 String.length)) name.length

/-- Why a line or the widths of a table cannot be made. -/
inductive Error where
  | missingCell
  | fillCharacter
deriving DecidableEq, Repr

def Error.message : Error → String
  | .missingCell => "list index out of range"
  | .fillCharacter => "The fill character must be exactly one character long"

/-- The widths, for rows that have a cell for every column. -/
def widths? (columns : List String) (rows : List (List String)) : Except Error (List Nat) :=
  if rows.all fun row => decide (columns.length ≤ row.length) then .ok (widths columns rows)
  else .error .missingCell

/-- A line, for a fill of one character and a width for every cell.  A width below zero fills
nothing. -/
def rowText? (fill : String) (cells : List String) (widths : List Int) : Except Error String :=
  if cells.isEmpty then .ok ""
  else if widths.isEmpty then .error .missingCell
  else
    match fill.toList with
    | [c] =>
      if cells.length ≤ widths.length then .ok (rowText c cells (widths.map Int.toNat))
      else .error .missingCell
    | _ => .error .fillCharacter

/-! ## Tables -/

/-- A table of the rows that are shown under a header, with a count of the rows left out. -/
def render (columns : List String) (shown : List (List String)) (hidden : Nat) : String :=
  let sizes := widths columns shown
  let header := rowText ' ' columns sizes
  let separator := rowText '-' (columns.map fun _ => "-") sizes
  let lines := header :: separator :: shown.map fun row => rowText ' ' row sizes
  joinWith "\n" lines ++
    if hidden = 0 then "" else "\n... and " ++ Text.natText hidden ++ " more rows"

def defaultMaxRows : Nat := 20

/-! ## Batches -/

/-- A way to keep named columns together as a batch.  How a batch keeps them is left open; a table
only needs what can be asked of it. -/
structure Columnar (β : Type) where
  /-- The batch of columns of texts. -/
  ofTexts : List (String × List String) → β
  names : β → List String
  /-- The number of rows. -/
  count : β → Nat
  /-- The batch of the first rows. -/
  first : Nat → β → β
  /-- The rows, each of which has its cells under the names of the columns. -/
  rows : β → List (String → Value)

/-- The table of the first rows of a batch. -/
def tabulate {β : Type} (keep : Columnar β) (batch : β) (maxRows : Nat) : String :=
  let columns := keep.names batch
  let shown := (keep.rows (keep.first maxRows batch)).map fun row =>
    columns.map fun c => formatValue true (row c)
  render columns shown (keep.count batch - maxRows)

/-- Columns that are kept as they are. -/
abbrev Columns : Type :=
  List (String × List Value)

/-- The cells of a column.  Of several columns of one name the last is found. -/
def Columns.cells (columns : Columns) (name : String) : List Value :=
  (columns.reverse.lookup name).getD []

def Columns.length (columns : Columns) : Nat :=
  (columns.head?.map fun c => c.2.length).getD 0

def Columns.keep : Columnar Columns where
  ofTexts columns := columns.map fun c => (c.1, c.2.map .str)
  names columns := columns.map Prod.fst
  count columns := columns.length
  first n columns := columns.map fun c => (c.1, c.2.take n)
  rows columns := (List.range columns.length).map fun i name => (columns.cells name).getD i .null

/-- The table of named columns. -/
def ofColumns (columns : Columns) (maxRows : Nat) : String :=
  tabulate Columns.keep columns maxRows

/-! ## Records -/

/-- The distinct names of a list, each at its first occurrence. -/
def distinct (names : List String) : List String :=
  names.foldl (fun seen name => if name ∈ seen then seen else seen ++ [name]) []

/-- The names of the fields of all records, in order of first appearance. -/
def columnsOf (records : List (List (String × Value))) : List String :=
  distinct (records.flatMap fun record => record.map Prod.fst)

/-- The batch of some columns of records; the cell of a field that is not there is empty. -/
def recordBatch {β : Type} (keep : Columnar β) (columns : List String)
    (records : List (List (String × Value))) : β :=
  keep.ofTexts (columns.map fun c => (c, records.map fun r => formatValue false (Value.fieldOf c r)))

/-- The table of some columns of records. -/
def ofRecords (columns : List String) (records : List (List (String × Value))) (maxRows : Nat) :
    String :=
  tabulate Columns.keep (recordBatch Columns.keep columns records) maxRows

end QueryPipeline.Table
