import ExaUdf.Checked
import ExaUdf.EmitPack

/-!
# The costs of the emit buffer, with the checks of the language

What rows and batches are charged, and the two paths into the emit buffer, where every sum and
product of bytes is a `usize`.  The counts of rows and flushes stay without bound: a row is charged
at least ten bytes, so they are far behind the bytes.
-/

namespace ExaUdf

namespace Checked

/-! ### The cost of a batch -/

/-- `fixed_cell_cost` of a decimal: the scale is widened with its sign. -/
def decimalCellCost (scale : Int8) : Except Panic Nat :=
  usize (numericCostBase + scale.toInt64.toUInt64.toNat)

def fixedCellCost : DataType → Except Panic (Option Nat)
  | .decimal128 _ scale => do return some (← decimalCellCost scale)
  | typ => .ok (ExaUdf.fixedCellCost typ)

/-- The cost of one column in constant time. -/
def columnByteCost (numRows : Nat) (a : ArrowArray) : Except Panic Nat := do
  match ← fixedCellCost a.data.dataType with
  | some fixed => usize (fixed * (← sub numRows a.nullCount))
  | none =>
    match a.data with
    | .utf8 offsets _ => usize (offsetsSpan offsets)
    | .largeUtf8 offsets _ => usize (offsetsSpan offsets)
    | _ => return 0

/-- Add the costs of columns to a total. -/
def addByteCosts (numRows : Nat) : List ArrowArray → Nat → Except Panic Nat
  | [], total => .ok total
  | a :: as, total => do addByteCosts numRows as (← usize (total + (← columnByteCost numRows a)))

def batchByteCost (batch : RecordBatch) (cols : List ColumnInfo) : Except Panic Nat :=
  addByteCosts batch.numRows (batch.columns.take cols.length) 0

/-! ### The costs of its rows -/

/-- Add a column's cell costs to the costs of the rows from row `r` on. -/
def accumulateCosts (nulls : Option (List Bool)) (cellCost : Nat → Nat) :
    Nat → List Nat → Except Panic (List Nat)
  | _, [] => .ok []
  | r, cost :: costs => do
    let cost ← if nulls.any (isNullAt · r) then .ok cost else usize (cost + cellCost r)
    return cost :: (← accumulateCosts nulls cellCost (r + 1) costs)

/-- Add the costs of one column to the costs of the rows. -/
def addColumnCosts (costs : List Nat) (a : ArrowArray) : Except Panic (List Nat) := do
  match ← fixedCellCost a.data.dataType with
  | some fixed => accumulateCosts a.nulls (fun _ => fixed) 0 costs
  | none =>
    match a.data with
    | .utf8 offsets _ => accumulateCosts a.nulls (offsetsDelta offsets) 0 costs
    | .largeUtf8 offsets _ => accumulateCosts a.nulls (offsetsDelta offsets) 0 costs
    | _ => return costs

def addColumnsCosts : List ArrowArray → List Nat → Except Panic (List Nat)
  | [], costs => .ok costs
  | a :: as, costs => do addColumnsCosts as (← addColumnCosts costs a)

def computeRowCosts (batch : RecordBatch) (cols : List ColumnInfo) : Except Panic (List Nat) :=
  addColumnsCosts (batch.columns.take cols.length) (List.replicate batch.numRows 0)

/-! ### The buffer -/

variable {σ : Type} (ext : Extern)

/-- Fold newly buffered rows into the counters. -/
def account (buf : EmitBuffer) (rows cost : Nat) : Except Panic EmitBuffer := do
  let byteEstimate ← usize (buf.byteEstimate + cost)
  let cumulativeBytes ← usize (buf.cumulativeBytes + cost)
  return { buf with byteEstimate, cumulativeBytes, cumulativeRows := buf.cumulativeRows + rows }

/-- The loop over the cells from column `idx` on, with the cost so far. -/
def checkCells : Nat → List Value → List ColumnInfo → Nat → Except Panic (Except UdfError Nat)
  | idx, v :: vs, col :: cols, cost => do
    if columnAccepts col.typ v then checkCells (idx + 1) vs cols (← usize (cost + valueByteCost v))
    -- A refused cell is reported before it is charged.
    else return ExaUdf.checkCells ext idx (v :: vs) (col :: cols) cost
  | _, _, _, cost => .ok (.ok cost)

def checkOutputRow (row : List Value) (cols : List ColumnInfo) :
    Except Panic (Except UdfError Nat) :=
  if row.length ≠ cols.length then .ok (ExaUdf.checkOutputRow ext row cols)
  else checkCells ext 0 row cols bytesRowNumber

def pushCosted (buf : EmitBuffer) (values : List Value) (rowNumber : UInt64)
    (cols : List ColumnInfo) (rowCost : Nat) : Except Panic EmitBuffer := do
  let buf ← account buf 1 rowCost
  let t := EmitBuffer.pushColumns ext values 0 cols buf.table
  return { buf with table :=
    { t with rowNumbers := t.rowNumbers ++ [rowNumber], rows := t.rows + 1 } }

variable (cols : List ColumnInfo) (rowNumber : UInt64)
  (flusher : EmitTable → σ → Except UdfError Unit × σ)

def pushOutputRow (buf : EmitBuffer) (row : List Value) (s : σ) :
    Except Panic (Except UdfError Unit × EmitBuffer × σ) := do
  match ← checkOutputRow ext row cols with
  | .error e => return (.error e, buf, s)
  | .ok rowCost =>
    let buf ← pushCosted ext buf row rowNumber cols rowCost
    if buf.shouldFlush then return buf.flush flusher s else return (.ok (), buf, s)

/-- `byte_cost() + n_rows * BYTES_ROW_NUMBER`. -/
def batchCost (packer : BatchPacker) : Except Panic Nat := do
  let byteCost ← batchByteCost packer.batch packer.cols
  usize (byteCost + (← usize (packer.batch.numRows * bytesRowNumber)))

/-- The loop of `push_batch` over the costs of rows `r..`. -/
def pushBatchLoop (packer : BatchPacker) :
    List Nat → Nat → Nat → EmitBuffer → σ → Except Panic (Except UdfError Nat × EmitBuffer × σ)
  | [], _, start, buf, s => .ok (.ok start, buf, s)
  | cost :: costs, r, start, buf, s => do
    let buf ← account buf 1 (← usize (cost + bytesRowNumber))
    if buf.shouldFlush then
      let buf := { buf with table := packer.pack ext start (r + 1) rowNumber buf.table }
      match buf.flush flusher s with
      | (.error e, buf, s) => return (.error e, buf, s)
      | (.ok (), buf, s) => pushBatchLoop packer costs (r + 1) (r + 1) buf s
    else pushBatchLoop packer costs (r + 1) start buf s

/-- Append a record batch, flushing whenever the buffer reaches the threshold at a row. -/
def pushBatch (buf : EmitBuffer) (batch : RecordBatch) (s : σ) :
    Except Panic (Except UdfError Unit × EmitBuffer × σ) :=
  let nRows := batch.numRows
  if nRows = 0 then .ok (.ok (), buf, s)
  else
    match BatchPacker.new ext batch cols with
    | .error e => .ok (.error e, buf, s)
    | .ok packer => do
      let batchCost ← batchCost packer
      if (← usize (buf.byteEstimate + batchCost)) < emitBufferLimitBytes then
        let buf ← account buf nRows batchCost
        return (.ok (), { buf with table := packer.pack ext 0 nRows rowNumber buf.table }, s)
      else
        let rowCosts ← computeRowCosts packer.batch packer.cols
        match ← pushBatchLoop ext rowNumber flusher packer rowCosts 0 0 buf s with
        | (.error e, buf, s) => return (.error e, buf, s)
        | (.ok start, buf, s) =>
          return (.ok (), { buf with table := packer.pack ext start nRows rowNumber buf.table }, s)

end Checked

end ExaUdf
