import ExaUdf.MockDb

/-!
# Generated input

`encode` turns the rows of a `RowSource` into the `MT_NEXT` frames of the mock database, batched
the way the database batches: cells accumulate until the byte count passes the limit.

A source that panics has no result.  Sums and products are those of a release build: row counts and
costs wrap around.
The column classes of the benchmarks are left out.
-/

namespace ExaUdf

/-- The number of a column type on the wire. -/
def ColumnType.toI32 : ColumnType → Int32
  | .pbUnsupported => 0
  | .pbDouble => 1
  | .pbInt32 => 2
  | .pbInt64 => 3
  | .pbNumeric => 4
  | .pbTimestamp => 5
  | .pbDate => 6
  | .pbString => 7
  | .pbBoolean => 8

namespace MockDb

/-! ### Sources of rows -/

/-- A generated input: its columns, and how row `i` is appended to the data blocks, with its byte
cost. -/
structure RowSource where
  columns : List ColumnDefinition
  writeRow : UInt64 → ExascriptTableData → Option (UInt64 × ExascriptTableData)

def fixedCellBytes : UInt64 := 8

def column (name : String) (ty : ColumnType) (typeName : String) : ColumnDefinition where
  name := name
  type := some ty.toI32
  typeName := typeName
  size := none
  precision := none
  scale := none

def int64Col (name : String) : ColumnDefinition :=
  { column name .pbInt64 "DECIMAL(18,0)" with precision := some 18, scale := some 0 }

def pushInt64 (table : ExascriptTableData) (v : Int64) : UInt64 × ExascriptTableData :=
  (fixedCellBytes,
    { table with dataInt64 := table.dataInt64 ++ [v], dataNulls := table.dataNulls ++ [false] })

/-- Columns of integers, with a function for the values of each row. -/
structure Int64Columns where
  names : List String
  fill : UInt64 → List Int64

namespace Int64Columns

/-- One value after the other, with the sum of their costs. -/
def pushAll : List Int64 → ExascriptTableData → UInt64 × ExascriptTableData
  | [], table => (0, table)
  | v :: vs, table =>
    let cell := pushInt64 table v
    let rest := pushAll vs cell.2
    (cell.1 + rest.1, rest.2)

def source (src : Int64Columns) : RowSource where
  columns := src.names.map int64Col
  writeRow i table :=
    let values := src.fill i
    if values.length = src.names.length then some (pushAll values table) else none

end Int64Columns

/-! ### Frames -/

def encodeFrame (table : ExascriptTableData) : List UInt8 :=
  ExascriptResponse.encodeToVec
    { ExascriptResponse.empty with
      type := MessageType.mtNext.toI32
      connectionId := mockConnId
      next := some table }

/-- A run cycle that is being encoded; the row number counts on from cycle to cycle. -/
structure Encoding where
  frames : List (List UInt8)
  table : ExascriptTableData
  bytes : UInt64
  rowNumber : UInt64

/-- Row `i`, and the frame that ends with it if it crosses the limit. -/
def encodeRow (src : RowSource) (e : Encoding) (i : UInt64) : Option Encoding :=
  (src.writeRow i e.table).map fun written =>
    let bytes := e.bytes + written.1
    let table := { written.2 with
      rows := written.2.rows + 1
      rowNumber := written.2.rowNumber ++ [e.rowNumber] }
    let rowNumber := e.rowNumber + 1
    if emitLimitBytes < bytes.toNat then ⟨e.frames ++ [encodeFrame table], .empty, 0, rowNumber⟩
    else ⟨e.frames, table, bytes, rowNumber⟩

/-- `lo..hi` -/
def rowRange (lo hi : UInt64) : List UInt64 :=
  (List.range' lo.toNat (hi.toNat - lo.toNat)).map UInt64.ofNat

/-- The frames of run cycle `c`, and the number of the row after it. -/
def encodeCycle (src : RowSource) (rows cycles c rowNumber : UInt64) :
    Option (List (List UInt8) × UInt64) :=
  let range := rowRange (rows * c / cycles) (rows * (c + 1) / cycles)
  (range.foldlM (encodeRow src) ⟨[], .empty, 0, rowNumber⟩).map fun e =>
    (if 0 < e.table.rows then e.frames ++ [encodeFrame e.table] else e.frames, e.rowNumber)

/-- The frames of one run cycle after the other. -/
def encodeCycles (src : RowSource) (rows cycles : UInt64) :
    List UInt64 → UInt64 → Option (List (List (List UInt8)))
  | [], _ => some []
  | c :: cs, rowNumber => (encodeCycle src rows cycles c rowNumber).bind fun cycle =>
    (encodeCycles src rows cycles cs cycle.2).map (cycle.1 :: ·)

/-- Spreads `rows` evenly over `cycles` (empty cycles stay present), with one monotonic
`row_number` sequence across the whole input. -/
def encode (src : RowSource) (rows cycles : UInt64) : Option (List (List (List UInt8))) :=
  if 0 < cycles then encodeCycles src rows cycles (rowRange 0 cycles) 0 else none

end MockDb

end ExaUdf
