import ExaUdf.RowSet

/-!
# Rows on the wire

What an `MT_EMIT` says, apart from its layout: a list of rows, each a row number and a cell for
each output column.  `EmitTable.append` adds rows to a table, block by block; `EmitTable.wireRows`
reads the rows of a table back, column type by column type, and insists that every block is used
up.  `wireRow` is the row that a list of values becomes.

The row path and the columnar path of the emit buffer are both instances of `append`.
-/

namespace ExaUdf

/-- The block that cells of a column travel in; a cell of an unsupported column travels in none. -/
inductive Block where
  | string | bool | int32 | int64 | double | none
  deriving DecidableEq, Repr

def ExaType.block : ExaType → Block
  | .numeric _ _ | .date | .timestamp _ | .string _ | .char _ => .string
  | .boolean => .bool
  | .int32 => .int32
  | .int64 => .int64
  | .double => .double
  | .unsupported => .none

/-- A cell as the wire carries it.  A non-NULL cell of an unsupported column is `skipped`. -/
inductive WireCell where
  | null
  | string (bs : List UInt8)
  | bool (b : Bool)
  | int32 (i : Int32)
  | int64 (i : Int64)
  | double (f : F64)
  | skipped
  deriving DecidableEq, Repr

structure WireRow where
  rowNumber : UInt64
  cells : List WireCell
  deriving DecidableEq, Repr

namespace WireCell

def isNull : WireCell → Bool
  | null => true
  | _ => false

def string? : WireCell → Option (List UInt8)
  | string bs => some bs
  | _ => Option.none

def bool? : WireCell → Option Bool
  | bool b => some b
  | _ => Option.none

def int32? : WireCell → Option Int32
  | int32 i => some i
  | _ => Option.none

def int64? : WireCell → Option Int64
  | int64 i => some i
  | _ => Option.none

def double? : WireCell → Option F64
  | double f => some f
  | _ => Option.none

/-- The cell can stand in a column of type `typ`. -/
def Fits (typ : ExaType) : WireCell → Prop
  | null => True
  | string _ => typ.block = .string
  | bool _ => typ.block = .bool
  | int32 _ => typ.block = .int32
  | int64 _ => typ.block = .int64
  | double _ => typ.block = .double
  | skipped => typ.block = .none

end WireCell

/-- The row has a fitting cell for each column. -/
def WireRow.Fits (cols : List ColumnInfo) (row : WireRow) : Prop :=
  List.Forall₂ (fun cell col => WireCell.Fits col.typ cell) row.cells cols

/-! ### Writing rows -/

namespace EmitTable

/-- Add cells to the blocks, without completing a row. -/
def appendCells (t : EmitTable) (cells : List WireCell) : EmitTable :=
  { t with
    strings := t.strings ++ cellBlock (cells.filterMap WireCell.string?)
    nulls := t.nulls ++ cells.map WireCell.isNull
    bools := t.bools ++ cells.filterMap WireCell.bool?
    int32 := t.int32 ++ cells.filterMap WireCell.int32?
    int64 := t.int64 ++ cells.filterMap WireCell.int64?
    doubles := t.doubles ++ cells.filterMap WireCell.double? }

/-- Add rows to a table. -/
def append (t : EmitTable) (rows : List WireRow) : EmitTable :=
  { t.appendCells (rows.flatMap WireRow.cells) with
    rows := t.rows + rows.length
    rowNumbers := t.rowNumbers ++ rows.map WireRow.rowNumber }

end EmitTable

/-! ### Reading rows -/

/-- What is left of the blocks of a table. -/
structure Blocks where
  nulls : List Bool
  strings : List (List UInt8)
  bools : List Bool
  int32 : List Int32
  int64 : List Int64
  doubles : List F64
  deriving DecidableEq, Repr

namespace Blocks

def empty : Blocks := ⟨[], [], [], [], [], []⟩

/-- Take the next cell of a column of type `typ`: its NULL bit and, if it is not NULL, the head of
its block. -/
def takeCell (typ : ExaType) (b : Blocks) : Option (WireCell × Blocks) :=
  match b.nulls with
  | [] => none
  | true :: nulls => some (.null, { b with nulls := nulls })
  | false :: nulls =>
    match typ.block with
    | .string => b.strings.head?.map fun s =>
      (.string s, { b with nulls := nulls, strings := b.strings.tail })
    | .bool => b.bools.head?.map fun x =>
      (.bool x, { b with nulls := nulls, bools := b.bools.tail })
    | .int32 => b.int32.head?.map fun x =>
      (.int32 x, { b with nulls := nulls, int32 := b.int32.tail })
    | .int64 => b.int64.head?.map fun x =>
      (.int64 x, { b with nulls := nulls, int64 := b.int64.tail })
    | .double => b.doubles.head?.map fun x =>
      (.double x, { b with nulls := nulls, doubles := b.doubles.tail })
    | .none => some (.skipped, { b with nulls := nulls })

def takeCells : List ColumnInfo → Blocks → Option (List WireCell × Blocks)
  | [], b => some ([], b)
  | col :: cols, b => (takeCell col.typ b).bind fun p =>
    (takeCells cols p.2).map fun q => (p.1 :: q.1, q.2)

/-- Take a row for each row number. -/
def takeRows (cols : List ColumnInfo) : List UInt64 → Blocks → Option (List WireRow × Blocks)
  | [], b => some ([], b)
  | n :: ns, b => (takeCells cols b).bind fun p =>
    (takeRows cols ns p.2).map fun q => (⟨n, p.1⟩ :: q.1, q.2)

end Blocks

namespace EmitTable

/-- The rows of a table with the output columns `cols`, if its blocks hold exactly that. -/
def wireRows (cols : List ColumnInfo) (t : EmitTable) : Option (List WireRow) :=
  t.stringCells.bind fun strings =>
    (Blocks.takeRows cols t.rowNumbers
        ⟨t.nulls, strings, t.bools, t.int32, t.int64, t.doubles⟩).bind fun p =>
      if p.2 = .empty ∧ t.rows = p.1.length then some p.1 else none

end EmitTable

/-! ### The rows that values become -/

/-- The cell that a value becomes in a column of type `typ`; a missing value is NULL. -/
def wireCell (ext : Extern) (typ : ExaType) : Option Value → WireCell
  | none => .null
  | some .null => .null
  | some v =>
    match typ.block with
    | .string => .string (blockText ext v)
    | .bool => .bool (valueToBool v)
    | .int32 => .int32 (valueToI64 v).toInt32
    | .int64 => .int64 (valueToI64 v)
    | .double => .double (valueToF64 ext v)
    | .none => .skipped

/-- The row that `values` become. -/
def wireRow (ext : Extern) (cols : List ColumnInfo) (rowNumber : UInt64) (values : List Value) :
    WireRow where
  rowNumber := rowNumber
  cells := cols.zipIdx.map fun p => wireCell ext p.1.typ values[p.2]?

end ExaUdf
