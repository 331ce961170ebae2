import ExaUdf.Frame
import ExaUdf.Text

/-!
# Input rows and the emit buffer

`InputRowSet` materialises one `MT_NEXT` batch as a row-major list of values; `EmitBuffer` gathers
output rows directly in the blocks of an `MT_EMIT`.  Both walk the rows in row-major order and keep
one cursor for each type block, which a NULL cell does not move.

`checkOutputRow` decides which rows the emit buffer is given.
-/

namespace ExaUdf

/-! ### Input rows -/

/-- One `MT_NEXT` batch, decoded. -/
structure InputRowSet where
  cells : List Value
  nRows : Nat
  nCols : Nat
  rowNumbers : List UInt64
  currentRow : Nat
  rowsInGroup : UInt64
  deriving DecidableEq, Repr

/-- Bit of cell `(row, col)` in the NULL bitmap. -/
def nullIndex (row col nCols : Nat) : Nat :=
  row * nCols + col

/-- How far each type block has been read: what is left of the strings, and an index into each
other block. -/
structure Cursors where
  strings : List (List UInt8)
  boolIdx : Nat
  int32Idx : Nat
  int64Idx : Nat
  doubleIdx : Nat
  deriving DecidableEq, Repr

namespace InputRowSet

/-- Read a cell that is not NULL from the block of its column, moving that block's cursor. -/
def readCell (ext : Extern) (table : ExascriptTableData) (r c : Nat) (typ : ExaType)
    (cur : Cursors) : Except UdfError (Value × Cursors) :=
  match typ with
  -- Every cell of the string block has to be UTF-8, also one that is parsed further.
  | .numeric _ _ | .date | .timestamp _ | .string _ | .char _ =>
    match Utf8.text? (cur.strings.headD []) with
    | none => .error (.type ("input row " ++ toString r ++ " column " ++ toString c
        ++ ": string cell is not valid UTF-8"))
    | some s => .ok (decodeStringBlock ext typ s, { cur with strings := cur.strings.tail })
  | .boolean =>
    .ok (.bool (table.dataBool.getD cur.boolIdx false), { cur with boolIdx := cur.boolIdx + 1 })
  | .int32 =>
    .ok (.int32 (table.dataInt32.getD cur.int32Idx 0), { cur with int32Idx := cur.int32Idx + 1 })
  | .int64 =>
    .ok (.int64 (table.dataInt64.getD cur.int64Idx 0), { cur with int64Idx := cur.int64Idx + 1 })
  | .double =>
    .ok (.double (table.dataDouble.getD cur.doubleIdx ⟨0⟩),
      { cur with doubleIdx := cur.doubleIdx + 1 })
  -- No block holds the cells of such a column.
  | .unsupported => .ok (.null, cur)

/-- Decode cell `(r, c)`.  A NULL cell occupies no slot in its block. -/
def decodeCell (ext : Extern) (table : ExascriptTableData) (nCols r c : Nat) (typ : ExaType)
    (cur : Cursors) : Except UdfError (Value × Cursors) :=
  if table.dataNulls.getD (nullIndex r c nCols) false then .ok (.null, cur)
  else readCell ext table r c typ cur

/-- Decode the cells of row `r` from column `c` on, appending them. -/
def decodeRow (ext : Extern) (table : ExascriptTableData) (nCols r : Nat) :
    Nat → List ColumnInfo → List Value × Cursors → Except UdfError (List Value × Cursors)
  | _, [], st => .ok st
  | c, col :: cols, (cells, cur) =>
    match decodeCell ext table nCols r c col.typ cur with
    | .error e => .error e
    | .ok (v, cur) => decodeRow ext table nCols r (c + 1) cols (cells ++ [v], cur)

/-- Decode `n` rows from row `r` on. -/
def decodeRows (ext : Extern) (table : ExascriptTableData) (cols : List ColumnInfo) :
    Nat → Nat → List Value × Cursors → Except UdfError (List Value × Cursors)
  | 0, _, st => .ok st
  | n + 1, r, st =>
    match decodeRow ext table cols.length r 0 cols st with
    | .error e => .error e
    | .ok st => decodeRows ext table cols n (r + 1) st

/-- All cells of a batch, and where reading them leaves the cursors. -/
def decodeCells (ext : Extern) (table : ExascriptTableData) (cols : List ColumnInfo) :
    Except UdfError (List Value × Cursors) :=
  decodeRows ext table cols table.rows 0 ([], ⟨table.dataString, 0, 0, 0, 0⟩)

def decode (ext : Extern) (table : ExascriptTableData) (cols : List ColumnInfo) :
    Except UdfError InputRowSet :=
  match decodeCells ext table cols with
  | .error e => .error e
  | .ok (cells, _) => .ok
    { cells := cells
      nRows := table.rows
      nCols := cols.length
      rowNumbers :=
        -- Without a number for every row, the rows are numbered within the batch.
        if table.rows ≤ table.rowNumber.length then table.rowNumber.take table.rows
        else (List.range table.rows).map UInt64.ofNat
      currentRow := 0
      rowsInGroup := table.rowsInGroup }

def fromProto (ext : Extern) (table : ExascriptTableData) (cols : List ColumnInfo) :
    Except UdfError InputRowSet :=
  decode ext table cols

/-- Replace the rows with the next batch's.  The cell buffer is taken first, so a batch that does
not decode leaves the old row count without cells. -/
def reload (ext : Extern) (rs : InputRowSet) (table : ExascriptTableData)
    (cols : List ColumnInfo) : Except UdfError Unit × InputRowSet :=
  match decode ext table cols with
  | .error e => (.error e, { rs with cells := [] })
  | .ok rs' => (.ok (), rs')

/-- A batch that does not decode leaves the row count and the cursor. -/
theorem reload_error {ext : Extern} {rs rs' : InputRowSet} {table : ExascriptTableData}
    {cols : List ColumnInfo} {e : UdfError} (h : rs.reload ext table cols = (.error e, rs')) :
    rs'.nRows = rs.nRows ∧ rs'.currentRow = rs.currentRow := by
  unfold reload at h
  split at h <;> cases h
  exact ⟨rfl, rfl⟩

theorem reload_ok {ext : Extern} {rs rs' : InputRowSet} {table : ExascriptTableData}
    {cols : List ColumnInfo} (h : rs.reload ext table cols = (.ok (), rs')) :
    decode ext table cols = .ok rs' := by
  unfold reload at h
  split at h <;> cases h
  assumption

theorem decode_ok {ext : Extern} {rs : InputRowSet} {table : ExascriptTableData}
    {cols : List ColumnInfo} (h : decode ext table cols = .ok rs) :
    rs.nRows = table.rows ∧ rs.currentRow = 0 := by
  unfold decode at h
  split at h <;> cases h
  exact ⟨rfl, rfl⟩

def isEmpty (rs : InputRowSet) : Bool :=
  rs.nRows == 0

/-- Advance to the next row, if there is one. -/
def advance (rs : InputRowSet) : Bool × InputRowSet :=
  if rs.currentRow + 1 < rs.nRows then (true, { rs with currentRow := rs.currentRow + 1 })
  else (false, rs)

/-- Row `idx`; none past the end.  The source's slice of cells panics when the cells are missing,
which is the inner `none`. -/
def row (rs : InputRowSet) (idx : Nat) : Option (Option (List Value)) :=
  if idx < rs.nRows then
    some (if idx * rs.nCols + rs.nCols ≤ rs.cells.length
      then some ((rs.cells.drop (idx * rs.nCols)).take rs.nCols) else none)
  else none

/-- The row under the cursor; `none` is the panic of `row`. -/
def currentRowCells (rs : InputRowSet) : Option (List Value) :=
  (rs.row rs.currentRow).getD (some [])

/-- The database's local row number for the row under the cursor. -/
def currentRowNumber (rs : InputRowSet) : UInt64 :=
  rs.rowNumbers.getD rs.currentRow 0

end InputRowSet

/-! ### Costs -/

def emitBufferLimitBytes : Nat := 4000000

def bytesBool : Nat := 1
def bytesInt32 : Nat := 4
def bytesInt64 : Nat := 8
def bytesDouble : Nat := 8
def bytesDate : Nat := 10
def bytesTimestamp : Nat := 29
def bytesRowNumber : Nat := 10
def numericCostBase : Nat := 40

/-- Bytes charged for one cell. -/
def valueByteCost : Value → Nat
  | .null => 0
  | .bool _ => bytesBool
  | .int32 _ => bytesInt32
  | .int64 _ => bytesInt64
  | .double _ => bytesDouble
  | .string s => (Utf8.bytes s).length
  | .numeric d => numericCostBase + d.scale.toNat
  | .date _ => bytesDate
  | .timestamp _ => bytesTimestamp

/-! ### Coercions -/

/-- `value_to_i64`.  `10i128.pow` wraps from scale 39 on; no accepted row gets there. -/
def valueToI64 : Value → Int64
  | .int32 i => i.toInt64
  | .int64 i => i
  | .double f => f.toFloat.toInt64
  | .numeric d =>
    -- Digits after the point are cut off, and a number that does not fit becomes 0.
    let scaled := d.unscaled.val.tdiv (Int.bmod (10 ^ d.scale.toNat) (2 ^ 128))
    if -2 ^ 63 ≤ scaled ∧ scaled < 2 ^ 63 then Int64.ofInt scaled else 0
  | .string s => (parseI64 (Utf8.bytes s)).toOption.getD 0
  | .bool b => if b then 1 else 0
  | _ => 0

def valueToF64 (ext : Extern) : Value → F64
  | .double f => f
  | .int32 i => F64.ofFloat i.toFloat
  | .int64 i => F64.ofFloat i.toFloat
  | .numeric d => ext.numericToF64 d
  | .string s => (ext.parseF64 s).getD ⟨0⟩
  | _ => ⟨0⟩

def valueToBool : Value → Bool
  | .bool b => b
  | .int32 i => i != 0
  | .int64 i => i != 0
  | .numeric d => d.unscaled.val != 0
  | .string s => s == "true" || s == "TRUE" || s == "1"
  | _ => false

/-! ### The emit buffer -/

/-- Output rows gathered for the next `MT_EMIT`. -/
structure EmitBuffer where
  table : EmitTable
  byteEstimate : Nat
  cumulativeBytes : Nat
  cumulativeRows : Nat
  flushCount : Nat
  deriving DecidableEq, Repr

namespace EmitBuffer

def new : EmitBuffer where
  table := EmitTable.default
  byteEstimate := 0
  cumulativeBytes := 0
  cumulativeRows := 0
  flushCount := 0

/-- Pack one non-NULL cell into the block the declared column type names. -/
def pushCell (ext : Extern) (t : EmitTable) (typ : ExaType) (v : Value) : EmitTable :=
  match typ with
  | .numeric _ _ | .date | .timestamp _ | .string _ | .char _ =>
    match v with
    -- A text is copied; any other value is written in the format of the block.
    | .string s => t.pushString (Utf8.bytes s)
    | other => t.pushStringWith (writeBlockValue ext · other)
  | .boolean => { t with bools := t.bools ++ [valueToBool v] }
  | .int32 => { t with int32 := t.int32 ++ [(valueToI64 v).toInt32] }
  | .int64 => { t with int64 := t.int64 ++ [valueToI64 v] }
  | .double => { t with doubles := t.doubles ++ [valueToF64 ext v] }
  | .unsupported => t

/-- Pack the cell a row has for a column; a missing value is NULL. -/
def pushColumn (ext : Extern) (t : EmitTable) (typ : ExaType) (v : Option Value) : EmitTable :=
  match v with
  | none | some .null => { t with nulls := t.nulls ++ [true] }
  | some v => pushCell ext { t with nulls := t.nulls ++ [false] } typ v

/-- Pack a row, from column `c` on. -/
def pushColumns (ext : Extern) (values : List Value) :
    Nat → List ColumnInfo → EmitTable → EmitTable
  | _, [], t => t
  | c, col :: cols, t => pushColumns ext values (c + 1) cols (pushColumn ext t col.typ values[c]?)

/-- Fold newly buffered rows into the counters.  The sums of bytes are unbounded here, as all costs
are; `Checked` has the `usize`s of the source. -/
def account (buf : EmitBuffer) (rows cost : Nat) : EmitBuffer :=
  { buf with
    byteEstimate := buf.byteEstimate + cost
    cumulativeBytes := buf.cumulativeBytes + cost
    cumulativeRows := buf.cumulativeRows + rows }

def pushCosted (ext : Extern) (buf : EmitBuffer) (values : List Value) (rowNumber : UInt64)
    (cols : List ColumnInfo) (rowCost : Nat) : EmitBuffer :=
  let buf := buf.account 1 rowCost
  let t := pushColumns ext values 0 cols buf.table
  { buf with table :=
    { t with rowNumbers := t.rowNumbers ++ [rowNumber], rows := t.rows + 1 } }

def push (ext : Extern) (buf : EmitBuffer) (values : List Value) (rowNumber : UInt64)
    (cols : List ColumnInfo) : EmitBuffer :=
  buf.pushCosted ext values rowNumber cols (bytesRowNumber + (values.map valueByteCost).sum)

/-- Whether the buffered rows have reached the byte threshold. -/
def shouldFlush (buf : EmitBuffer) : Bool :=
  emitBufferLimitBytes ≤ buf.byteEstimate

def clear (buf : EmitBuffer) : EmitBuffer :=
  { buf with
    flushCount := buf.flushCount + 1
    table := buf.table.clear
    byteEstimate := 0 }

/-- Hand the blocks to `send`, then empty the buffer, whatever `send` answered. -/
def flush {σ ε : Type} (send : EmitTable → σ → Except ε Unit × σ) (buf : EmitBuffer) (s : σ) :
    Except ε Unit × EmitBuffer × σ :=
  let r := send buf.table s
  (r.1, buf.clear, r.2)

/-- Take the blocks as a protobuf table, leaving the buffer empty. -/
def takeProto (buf : EmitBuffer) : Option ExascriptTableData × EmitBuffer :=
  (buf.table.toProto, buf.clear)

def isEmpty (buf : EmitBuffer) : Bool :=
  buf.table.rows == 0

end EmitBuffer

/-! ### Accepted rows -/

/-- Whether a value can feed a column of this declared type. -/
def columnAccepts (typ : ExaType) (v : Value) : Bool :=
  match typ, v with
  | _, .null => true
  | .unsupported, _ => true
  | .int32, .int32 _ => true
  -- The only pairing that is decided by the value.
  | .int32, .int64 i => -2 ^ 31 ≤ i.toInt && i.toInt < 2 ^ 31
  | .int64, .int32 _ => true
  | .int64, .int64 _ => true
  | .numeric _ _, .int32 _ => true
  | .numeric _ _, .int64 _ => true
  | .numeric _ _, .numeric _ => true
  | .double, .double _ => true
  | .boolean, .bool _ => true
  | .date, .date _ => true
  | .timestamp _, .timestamp _ => true
  | .string _, .string _ => true
  | .char _, .string _ => true
  | _, _ => false

/-- The loop over the cells from column `idx` on, with the cost so far. -/
def checkCells (ext : Extern) : Nat → List Value → List ColumnInfo → Nat → Except UdfError Nat
  | idx, v :: vs, col :: cols, cost =>
    if columnAccepts col.typ v then checkCells ext (idx + 1) vs cols (cost + valueByteCost v)
    else .error (.type ("output column " ++ toString idx ++ " `" ++ col.name ++ "` is "
      ++ col.typeName ++ " but the value is " ++ ext.debugValue v))
  -- The lists have one length here, so both are used up.
  | _, _, _, cost => .ok cost

/-- Reject an output row the declared columns cannot carry losslessly, or return its byte cost. -/
def checkOutputRow (ext : Extern) (row : List Value) (cols : List ColumnInfo) :
    Except UdfError Nat :=
  if row.length ≠ cols.length then
    .error (.type ("output row has " ++ toString row.length ++ " value(s) but the output has "
      ++ toString cols.length ++ " column(s)"))
  else checkCells ext 0 row cols bytesRowNumber

end ExaUdf
