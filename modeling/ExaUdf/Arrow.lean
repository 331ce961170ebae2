import ExaUdf.RowSet

/-!
# Arrow record batches

A record batch holds its columns as Arrow documents them after slicing: the values of the rows in
order, validity bits where there is a null buffer, and for strings offsets into a data buffer that
need not start at 0.

`buildAccessors` matches each column with the declared output type, `accessorValue` is the value the
row path would carry for a cell, and `batchByteCost` and `computeRowCosts` are the two cost
estimates of a batch.  The estimates are unbounded here; `Checked` has the `usize`s of the source.
-/

namespace ExaUdf

/-- The values of a column. -/
inductive ArrowData where
  | int32 (values : List Int32)
  | int64 (values : List Int64)
  | float64 (values : List F64)
  | boolean (values : List Bool)
  | utf8 (offsets : List Nat) (data : List UInt8)
  | largeUtf8 (offsets : List Nat) (data : List UInt8)
  | date32 (values : List Int32)
  | timestamp (unit : TimeUnit) (timezone : Option String) (values : List Int64)
  | decimal128 (precision : UInt8) (scale : Int8) (values : List I128)
  | other (name : String)
  deriving DecidableEq, Repr

/-- A column: its values and, if it has a null buffer, a bit for each row that is set on valid
rows. -/
structure ArrowArray where
  data : ArrowData
  nulls : Option (List Bool)
  deriving DecidableEq, Repr

/-- Offsets of `n` strings into `data`: one more than there are rows, in order, within the buffer,
and each string is UTF-8. -/
structure OffsetsWF (n : Nat) (offsets : List Nat) (data : List UInt8) : Prop where
  length : offsets.length = n + 1
  mono : ∀ r < n, offsets.getD r 0 ≤ offsets.getD (r + 1) 0
  le : ∀ r ≤ n, offsets.getD r 0 ≤ data.length
  utf8 : ∀ r < n,
    (Utf8.text? (slice data (offsets.getD r 0) (offsets.getD (r + 1) 0))).isSome = true

namespace ArrowData

/-- The column has `n` rows. -/
def WF (n : Nat) : ArrowData → Prop
  | int32 values => values.length = n
  | int64 values => values.length = n
  | float64 values => values.length = n
  | boolean values => values.length = n
  | utf8 offsets data => OffsetsWF n offsets data
  | largeUtf8 offsets data => OffsetsWF n offsets data
  | date32 values => values.length = n
  | timestamp _ _ values => values.length = n
  | decimal128 _ _ values => values.length = n
  | other _ => True

def dataType : ArrowData → DataType
  | int32 _ => .int32
  | int64 _ => .int64
  | float64 _ => .float64
  | boolean _ => .boolean
  | utf8 _ _ => .utf8
  | largeUtf8 _ _ => .largeUtf8
  | date32 _ => .date32
  | timestamp unit timezone _ => .timestamp unit timezone
  | decimal128 precision scale _ => .decimal128 precision scale
  | other name => .other name

end ArrowData

namespace ArrowArray

structure WF (n : Nat) (a : ArrowArray) : Prop where
  data : a.data.WF n
  nulls : ∀ bits ∈ a.nulls, bits.length = n

def nullCount (a : ArrowArray) : Nat :=
  match a.nulls with
  | none => 0
  | some bits => bits.count false

end ArrowArray

/-- `NullBuffer::is_null`. -/
def isNullAt (bits : List Bool) (r : Nat) : Bool :=
  !bits.getD r true

/-- Columns of one length. -/
structure RecordBatch where
  numRows : Nat
  columns : List ArrowArray
  wf : ∀ a ∈ columns, a.WF numRows

/-! ### Accessors -/

/-- A column matched with its declared output type. -/
inductive ColAccessor where
  | int32 (arr : List Int32)
  | int64 (arr : List Int64)
  | float64 (arr : List F64)
  | boolean (arr : List Bool)
  | utf8 (offsets : List Nat) (data : List UInt8)
  | largeUtf8 (offsets : List Nat) (data : List UInt8)
  | date32 (arr : List Int32)
  | tsSecond (arr : List Int64)
  | tsMillisecond (arr : List Int64)
  | tsMicrosecond (arr : List Int64)
  | tsNanosecond (arr : List Int64)
  | decimal128 (arr : List I128) (scale : Int8)
  | numericFromInt32 (arr : List Int32)
  | numericFromInt64 (arr : List Int64)
  | numericFromFloat64 (arr : List F64)
  | unsupported
  deriving DecidableEq, Repr

/-- The types of the string block. -/
def isStringFamilyExatype : ExaType → Bool
  | .numeric _ _ | .date | .timestamp _ | .string _ | .char _ => true
  | _ => false

/-- The accessor of one column, if its Arrow type can feed the declared type. -/
def accessor? (data : ArrowData) (typ : ExaType) : Option ColAccessor :=
  match data, typ with
  | .int32 arr, .int32 => some (.int32 arr)
  | .int64 arr, .int64 => some (.int64 arr)
  | .float64 arr, .double => some (.float64 arr)
  | .boolean arr, .boolean => some (.boolean arr)
  | .utf8 offsets bytes, typ =>
    if isStringFamilyExatype typ then some (.utf8 offsets bytes)
    else if typ = .unsupported then some .unsupported else none
  | .largeUtf8 offsets bytes, typ =>
    if isStringFamilyExatype typ then some (.largeUtf8 offsets bytes)
    else if typ = .unsupported then some .unsupported else none
  | .date32 arr, .date => some (.date32 arr)
  | .timestamp .second _ arr, .timestamp _ => some (.tsSecond arr)
  | .timestamp .millisecond _ arr, .timestamp _ => some (.tsMillisecond arr)
  | .timestamp .microsecond _ arr, .timestamp _ => some (.tsMicrosecond arr)
  | .timestamp .nanosecond _ arr, .timestamp _ => some (.tsNanosecond arr)
  | .decimal128 _ scale arr, .numeric _ _ => some (.decimal128 arr scale)
  | .int32 arr, .numeric _ _ => some (.numericFromInt32 arr)
  | .int64 arr, .numeric _ _ => some (.numericFromInt64 arr)
  | .float64 arr, .numeric _ _ => some (.numericFromFloat64 arr)
  | _, .unsupported => some .unsupported
  | _, _ => none

/-- The loop over the declared columns, from column `c` on. -/
def buildAccessorsFrom (ext : Extern) :
    Nat → List ArrowArray → List ColumnInfo → Except UdfError (List ColAccessor)
  | c, a :: as, col :: cols =>
    match accessor? a.data col.typ with
    | none => .error (.type ("emit_batch: Arrow column " ++ toString c ++ " of type "
        ++ ext.debugDataType a.data.dataType ++ " cannot feed declared ExaType "
        ++ col.typ.debug))
    | some acc => (buildAccessorsFrom ext (c + 1) as cols).map (acc :: ·)
  | _, _, _ => .ok []

def buildAccessors (ext : Extern) (batch : RecordBatch) (cols : List ColumnInfo) :
    Except UdfError (List ColAccessor) :=
  if batch.columns.length ≠ cols.length then
    .error (.type ("emit_batch: batch has " ++ toString batch.columns.length
      ++ " columns but EMITS declared " ++ toString cols.length ++ " columns"))
  else buildAccessorsFrom ext 0 batch.columns cols

/-- 1970-01-01 as a CE day number. -/
def arrowEpochCeDay : Int32 := 719163

/-- The string of row `row`. -/
def stringAt (offsets : List Nat) (data : List UInt8) (row : Nat) : List UInt8 :=
  slice data (offsets.getD row 0) (offsets.getD (row + 1) 0)

/-- The value the row path would have carried for a non-NULL cell. -/
def accessorValue (ext : Extern) (acc : ColAccessor) (row : Nat) : Value :=
  match acc with
  | .int32 arr => .int32 (arr.getD row 0)
  | .int64 arr => .int64 (arr.getD row 0)
  | .float64 arr => .double (arr.getD row ⟨0⟩)
  | .boolean arr => .bool (arr.getD row false)
  | .utf8 offsets data => .string ((Utf8.text? (stringAt offsets data row)).getD "")
  | .largeUtf8 offsets data => .string ((Utf8.text? (stringAt offsets data row)).getD "")
  | .date32 arr => .date
    ((ext.fromNumDaysFromCeOpt (arr.getD row 0 + arrowEpochCeDay).toInt).getD .epoch)
  | .tsSecond arr => .timestamp ((ext.fromTimestamp (arr.getD row 0).toInt 0).getD .epoch)
  | .tsMillisecond arr => .timestamp ((ext.fromTimestampMillis (arr.getD row 0).toInt).getD .epoch)
  | .tsMicrosecond arr => .timestamp ((ext.fromTimestampMicros (arr.getD row 0).toInt).getD .epoch)
  | .tsNanosecond arr =>
    let ns := (arr.getD row 0).toInt
    .timestamp ((ext.fromTimestamp (ns / 1000000000) (ns % 1000000000).toNat).getD .epoch)
  | .decimal128 arr scale => .numeric ⟨arr.getD row ⟨0, zero_mem_i128⟩, scale.toUInt8⟩
  | .numericFromInt32 arr => .int32 (arr.getD row 0)
  | .numericFromInt64 arr => .int64 (arr.getD row 0)
  | .numericFromFloat64 arr => .double (arr.getD row ⟨0⟩)
  | .unsupported => .null

/-! ### Costs -/

/-- The cost of a cell of constant width.  A scale is widened to `usize` with its sign, and the sum
wraps. -/
def fixedCellCost : DataType → Option Nat
  | .boolean => some bytesBool
  | .int32 => some bytesInt32
  | .int64 => some bytesInt64
  | .float64 => some bytesDouble
  | .date32 => some bytesDate
  | .timestamp _ _ => some bytesTimestamp
  | .decimal128 _ scale =>
    some ((numericCostBase + scale.toInt64.toUInt64.toNat) % 2 ^ 64)
  | _ => none

/-- Add a column's cell costs to the costs of the rows; a NULL cell costs nothing. -/
def accumulateCosts (costs : List Nat) (nulls : Option (List Bool)) (cellCost : Nat → Nat) :
    List Nat :=
  costs.mapIdx fun r cost =>
    if nulls.any (isNullAt · r) then cost else cost + cellCost r

/-- Bytes between the first and the last offset. -/
def offsetsSpan (offsets : List Nat) : Nat :=
  offsets.getD (offsets.length - 1) 0 - offsets.getD 0 0

/-- The cost of one column in constant time. -/
def columnByteCost (numRows : Nat) (a : ArrowArray) : Nat :=
  match fixedCellCost a.data.dataType with
  | some fixed => fixed * (numRows - a.nullCount)
  | none =>
    match a.data with
    | .utf8 offsets _ => offsetsSpan offsets
    | .largeUtf8 offsets _ => offsetsSpan offsets
    | _ => 0

/-- The cost of a whole batch, without a look at its rows. -/
def batchByteCost (batch : RecordBatch) (cols : List ColumnInfo) : Nat :=
  (batch.columns.take cols.length).foldl (fun total a => total + columnByteCost batch.numRows a) 0

/-- Bytes of the string of row `r`. -/
def offsetsDelta (offsets : List Nat) (r : Nat) : Nat :=
  offsets.getD (r + 1) 0 - offsets.getD r 0

/-- Add the costs of one column to the costs of the rows. -/
def addColumnCosts (costs : List Nat) (a : ArrowArray) : List Nat :=
  match fixedCellCost a.data.dataType with
  | some fixed => accumulateCosts costs a.nulls fun _ => fixed
  | none =>
    match a.data with
    | .utf8 offsets _ => accumulateCosts costs a.nulls (offsetsDelta offsets)
    | .largeUtf8 offsets _ => accumulateCosts costs a.nulls (offsetsDelta offsets)
    | _ => costs

/-- The cost of each row of a batch. -/
def computeRowCosts (batch : RecordBatch) (cols : List ColumnInfo) : List Nat :=
  (batch.columns.take cols.length).foldl addColumnCosts (List.replicate batch.numRows 0)

end ExaUdf
