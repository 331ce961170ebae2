import ExaUdf.Arrow

/-!
# Packing a record batch

`BatchPacker` packs an Arrow record batch into the blocks of an `MT_EMIT` a column at a time, where
the row path goes a row at a time.  Columns that share a block still interleave by row; a block that
only one column feeds is copied in one piece.  Dates are converted by Howard Hinnant's
`civilFromDays` behind a cache of the last year.

`EmitBuffer.pushBatch` adds a batch to the emit buffer and flushes at the rows where the byte
estimate reaches the threshold.  `reserve_strings` only reserves capacity and is left out.
-/

namespace ExaUdf

/-! ### Dates -/

/-- Howard Hinnant's `civil_from_days`: the date `days` days after 1970-01-01. -/
def civilFromDays (days : Int) : Int × Nat × Nat :=
  -- Years begin on March 1 here, so that the leap day is the last day of a year, and 400 years make
  -- an era.
  let z := days + 719468
  let era := z / 146097
  let doe := z % 146097
  let yoe := (doe - doe / 1460 + doe / 36524 - doe / 146096) / 365
  let doy := doe - (365 * yoe + yoe / 4 - yoe / 100)
  let mp := (5 * doy + 2) / 153
  let day := doy - (153 * mp + 2) / 5 + 1
  let month := if mp < 10 then mp + 3 else mp - 9
  let year := yoe + era * 400 + (if month ≤ 2 then 1 else 0)
  (year, month.toNat, day.toNat)

def isLeap (year : Int) : Bool :=
  year % 4 == 0 && (year % 100 != 0 || year % 400 == 0)

/-- `DAYS_BEFORE_MONTH`, for months counted from 0. -/
def daysBeforeMonth (leap : Bool) (month : Nat) : Nat :=
  (if leap then [0, 31, 60, 91, 121, 152, 182, 213, 244, 274, 305, 335]
    else [0, 31, 59, 90, 120, 151, 181, 212, 243, 273, 304, 334]).getD month 0

/-- `MONTH_OF_DOY`: the month, counted from 1, whose days hold day `doy` of the year. -/
def monthOfDoy (leap : Bool) (doy : Nat) : Nat :=
  ((List.range 12).find? fun month =>
    daysBeforeMonth leap month ≤ doy &&
      doy < if month < 11 then daysBeforeMonth leap (month + 1)
        else 365 + if leap then 1 else 0).elim 0 (· + 1)

/-- The year of the last conversion. -/
structure YearCache where
  start : Int
  /-- Zero until the first conversion. -/
  len : Int
  year : Int
  leap : Bool
  deriving DecidableEq, Repr

namespace YearCache

def default : YearCache := ⟨0, 0, 0, false⟩

/-- The cache for the year of `days`, and the day of that year. -/
def load (days : Int) : YearCache × Int :=
  let ymd := civilFromDays days
  let leap := isLeap ymd.1
  let doy : Int := daysBeforeMonth leap (ymd.2.1 - 1) + (ymd.2.2 : Int) - 1
  (⟨days - doy, 365 + (if leap then 1 else 0), ymd.1, leap⟩, doy)

def civil (cache : YearCache) (days : Int) : (Int × Nat × Nat) × YearCache :=
  let doy := days - cache.start
  -- A day outside the cached year is converted, and its year is kept.
  let loaded := if doy < 0 ∨ cache.len ≤ doy then load days else (cache, doy)
  let cache := loaded.1
  let doy := loaded.2
  let month := monthOfDoy cache.leap doy.toNat
  let day := doy.toNat - daysBeforeMonth cache.leap (month - 1) + 1
  ((cache.year, month, day), cache)

end YearCache

/-- The bytes are `none` where the source writes nothing and returns `false`. -/
def writeDate32 (out : List UInt8) (days : Int32) (years : YearCache) :
    Option (List UInt8) × YearCache :=
  let civil := years.civil days.toInt
  let ymd := civil.1
  (if 0 ≤ ymd.1 ∧ ymd.1 ≤ 9999 then some (writeYmd out ymd.1.toNat ymd.2.1 ymd.2.2) else none,
    civil.2)

/-- The bytes are `none` where the source writes nothing and returns `false`. -/
def writeTimestamp (out : List UInt8) (secs : Int) (nanos : Nat) (years : YearCache) :
    Option (List UInt8) × YearCache :=
  -- The quotient rounds down, so an instant before 1970 falls on the day that it belongs to.
  let civil := years.civil (secs / 86400)
  let ymd := civil.1
  (if 0 ≤ ymd.1 ∧ ymd.1 ≤ 9999 then
      let sod := (secs % 86400).toNat
      some (writeHmsNanos (writeYmd out ymd.1.toNat ymd.2.1 ymd.2.2 ++ [32])
        (sod / 3600) (sod / 60 % 60) (sod % 60) nanos)
    else none,
    civil.2)

/-- Whole seconds and nanoseconds of a timestamp. -/
def timestampParts (unit : TimeUnit) (v : Int64) : Int × Nat :=
  match unit with
  | .second => (v.toInt, 0)
  | .millisecond => (v.toInt / 1000, (v.toInt % 1000 * 1000000).toNat)
  | .microsecond => (v.toInt / 1000000, (v.toInt % 1000000 * 1000).toNat)
  | .nanosecond => (v.toInt / 1000000000, (v.toInt % 1000000000).toNat)

/-! ### The packer -/

/-- A column of a block whose cells are copied. -/
structure FixedCol (α : Type) where
  values : List α
  nulls : Option (List Bool)
  deriving DecidableEq, Repr

/-- How the cells of a string column are made. -/
inductive StringKind where
  | utf8 (offsets : List Nat) (data : List UInt8)
  | largeUtf8 (offsets : List Nat) (data : List UInt8)
  | date32 (values : List Int32)
  | timestamp (unit : TimeUnit) (values : List Int64)
  | decimal (values : List I128) (scale : UInt8)
  /-- Stringified via `Value`, like the row path. -/
  | widened
  deriving DecidableEq, Repr

structure StringCol where
  col : Nat
  nulls : Option (List Bool)
  kind : StringKind
  deriving DecidableEq, Repr

structure BatchPacker where
  batch : RecordBatch
  cols : List ColumnInfo
  accessors : List ColAccessor
  /-- The null buffers that hold a NULL. -/
  nulls : List (Option (List Bool))
  int32 : List (FixedCol Int32)
  int64 : List (FixedCol Int64)
  doubles : List (FixedCol F64)
  bools : List (FixedCol Bool)
  strings : List StringCol

namespace BatchPacker

/-- The null buffer of a column, if it holds a NULL. -/
def columnNulls (a : ArrowArray) : Option (List Bool) :=
  a.nulls.filter fun bits => 0 < bits.count false

/-- How an accessor of the string block makes its cells; `none` for the other accessors. -/
def stringKind? : ColAccessor → Option StringKind
  | .utf8 offsets data => some (.utf8 offsets data)
  | .largeUtf8 offsets data => some (.largeUtf8 offsets data)
  | .date32 arr => some (.date32 arr)
  | .tsSecond arr => some (.timestamp .second arr)
  | .tsMillisecond arr => some (.timestamp .millisecond arr)
  | .tsMicrosecond arr => some (.timestamp .microsecond arr)
  | .tsNanosecond arr => some (.timestamp .nanosecond arr)
  | .decimal128 arr scale => some (.decimal arr scale.toUInt8)
  | .numericFromInt32 _ | .numericFromInt64 _ | .numericFromFloat64 _ => some .widened
  | _ => none

/-- File column `c` under the block it feeds. -/
def addColumn (p : BatchPacker) (c : Nat) (acc : ColAccessor) : BatchPacker :=
  let nulls := p.nulls.getD c none
  match acc with
  | .int32 arr => { p with int32 := p.int32 ++ [⟨arr, nulls⟩] }
  | .int64 arr => { p with int64 := p.int64 ++ [⟨arr, nulls⟩] }
  | .float64 arr => { p with doubles := p.doubles ++ [⟨arr, nulls⟩] }
  | .boolean arr => { p with bools := p.bools ++ [⟨arr, nulls⟩] }
  -- What is left feeds the string block, or no block if the type is unsupported.
  | acc =>
    match stringKind? acc with
    | some kind => { p with strings := p.strings ++ [⟨c, nulls, kind⟩] }
    | none => p

/-- File the columns from column `c` on. -/
def addColumns (p : BatchPacker) : Nat → List ColAccessor → BatchPacker
  | _, [] => p
  | c, acc :: accs => (p.addColumn c acc).addColumns (c + 1) accs

/-- Fails before any row lands in a block. -/
def new (ext : Extern) (batch : RecordBatch) (cols : List ColumnInfo) :
    Except UdfError BatchPacker :=
  (buildAccessors ext batch cols).map fun accessors =>
    addColumns
      { batch := batch
        cols := cols
        accessors := accessors
        nulls := (batch.columns.take cols.length).map columnNulls
        int32 := []
        int64 := []
        doubles := []
        bools := []
        strings := [] } 0 accessors

def byteCost (p : BatchPacker) : Nat :=
  batchByteCost p.batch p.cols

def rowCosts (p : BatchPacker) : List Nat :=
  computeRowCosts p.batch p.cols

/-- Set the NULL bits of column `c` for the rows whose validity bits are `bits`. -/
def setNulls (base nCols c : Nat) (bits : List Bool) (nulls : List Bool) : List Bool :=
  bits.zipIdx.foldl (fun nulls p => if p.1 then nulls else nulls.set (base + p.2 * nCols + c) true)
    nulls

/-- Items `start..stop` of a column or of its validity bits. -/
def sliceRows {α : Type} (xs : List α) (start stop : Nat) : List α :=
  (xs.drop start).take (stop - start)

/-- The NULL bits of rows `start..stop`: all clear at first, then set column by column. -/
def packNulls (p : BatchPacker) (start stop : Nat) (out : EmitTable) : EmitTable :=
  let nCols := p.accessors.length
  let base := out.nulls.length
  let cleared := out.nulls ++ List.replicate ((stop - start) * nCols) false
  let setColumn (nulls : List Bool) (q : Option (List Bool) × Nat) : List Bool :=
    match q.1 with
    | none => nulls
    | some bits => setNulls base nCols q.2 (sliceRows bits start stop) nulls
  { out with nulls := p.nulls.zipIdx.foldl setColumn cleared }

/-- The cells of a block in rows `start..stop`, row by row. -/
def packFixed {α : Type} (cols : List (FixedCol α)) (start stop : Nat) (block : List α) :
    List α :=
  match cols with
  | [] => block
  -- No other column feeds the block, so the rows are copied in one piece.
  | [col] =>
    let values := sliceRows col.values start stop
    match col.nulls with
    | none => block ++ values
    | some bits =>
      block ++ ((values.zip (sliceRows bits start stop)).filter Prod.snd).map Prod.fst
  -- The columns of a shared block take turns within each row.
  | cols =>
    block ++ (List.range' start (stop - start)).flatMap fun r =>
      cols.flatMap fun col =>
        if col.nulls.all (fun bits => !isNullAt bits r) then (col.values[r]?).toList else []

/-- The row path's rendering of a cell. -/
def slowCell (ext : Extern) (p : BatchPacker) (buf : List UInt8) (col r : Nat) : List UInt8 :=
  writeBlockValue ext buf (accessorValue ext (p.accessors.getD col .unsupported) r)

/-- Append the string cell of column `sc` in row `r`. -/
def packString (ext : Extern) (p : BatchPacker) (r : Nat) (sc : StringCol)
    (st : EmitTable × YearCache) : EmitTable × YearCache :=
  let out := st.1
  let years := st.2
  if sc.nulls.any (isNullAt · r) then (out, years)
  else
    match sc.kind with
    | .utf8 offsets data => (out.pushString (stringAt offsets data r), years)
    | .largeUtf8 offsets data => (out.pushString (stringAt offsets data r), years)
    -- A year outside `0..=9999` is left to the rendering of the row path.
    | .date32 values =>
      let days := values.getD r 0
      (out.pushStringWith fun buf =>
          (writeDate32 buf days years).1.getD (p.slowCell ext buf sc.col r),
        (writeDate32 [] days years).2)
    | .timestamp unit values =>
      let parts := timestampParts unit (values.getD r 0)
      (out.pushStringWith fun buf =>
          (writeTimestamp buf parts.1 parts.2 years).1.getD (p.slowCell ext buf sc.col r),
        (writeTimestamp [] parts.1 parts.2 years).2)
    | .decimal values scale =>
      let d : Decimal := ⟨values.getD r ⟨0, zero_mem_i128⟩, scale⟩
      (out.pushStringWith (writeDecimal · d), years)
    | .widened => (out.pushStringWith (p.slowCell ext · sc.col r), years)

def packStrings (ext : Extern) (p : BatchPacker) (start stop : Nat) (out : EmitTable) :
    EmitTable :=
  if p.strings = [] then out
  else ((List.range' start (stop - start)).foldl (fun st r =>
    p.strings.foldl (fun st sc => p.packString ext r sc st) st) (out, YearCache.default)).1

/-- Append rows `start..stop` of the batch. -/
def pack (ext : Extern) (p : BatchPacker) (start stop : Nat) (rowNumber : UInt64)
    (out : EmitTable) : EmitTable :=
  let n := stop - start
  if n = 0 then out
  else
    let out := p.packNulls start stop out
    let out := { out with int32 := packFixed p.int32 start stop out.int32 }
    let out := { out with int64 := packFixed p.int64 start stop out.int64 }
    let out := { out with doubles := packFixed p.doubles start stop out.doubles }
    let out := { out with bools := packFixed p.bools start stop out.bools }
    let out := p.packStrings ext start stop out
    { out with
      rowNumbers := out.rowNumbers ++ List.replicate n rowNumber
      rows := out.rows + n }

end BatchPacker

namespace EmitBuffer

/-- The loop of `push_batch` over the costs of rows `r..`, where rows `start..r` are accounted for
and not yet packed.  On success it says which rows are still to be packed. -/
def pushBatchLoop {σ : Type} (ext : Extern) (packer : BatchPacker) (rowNumber : UInt64)
    (flusher : EmitTable → σ → Except UdfError Unit × σ) :
    List Nat → Nat → Nat → EmitBuffer → σ → Except UdfError Nat × EmitBuffer × σ
  | [], _, start, buf, s => (.ok start, buf, s)
  | cost :: costs, r, start, buf, s =>
    let buf := buf.account 1 (cost + bytesRowNumber)
    if buf.shouldFlush then
      -- This row reaches the threshold, so it is packed with those that wait.
      let buf := { buf with table := packer.pack ext start (r + 1) rowNumber buf.table }
      match buf.flush flusher s with
      -- The rows from here on are never packed.
      | (.error e, buf, s) => (.error e, buf, s)
      | (.ok (), buf, s) =>
        pushBatchLoop ext packer rowNumber flusher costs (r + 1) (r + 1) buf s
    else pushBatchLoop ext packer rowNumber flusher costs (r + 1) start buf s

/-- Append a record batch, flushing whenever the buffer reaches the threshold at a row. -/
def pushBatch {σ : Type} (ext : Extern) (buf : EmitBuffer) (batch : RecordBatch)
    (cols : List ColumnInfo) (rowNumber : UInt64)
    (flusher : EmitTable → σ → Except UdfError Unit × σ) (s : σ) :
    Except UdfError Unit × EmitBuffer × σ :=
  let nRows := batch.numRows
  if nRows = 0 then (.ok (), buf, s)
  else
    match BatchPacker.new ext batch cols with
    | .error e => (.error e, buf, s)
    | .ok packer =>
      let batchCost := packer.byteCost + nRows * bytesRowNumber
      -- The whole batch stays below the threshold, so no row needs a cost of its own.
      if buf.byteEstimate + batchCost < emitBufferLimitBytes then
        let buf := buf.account nRows batchCost
        (.ok (), { buf with table := packer.pack ext 0 nRows rowNumber buf.table }, s)
      else
        match pushBatchLoop ext packer rowNumber flusher packer.rowCosts 0 0 buf s with
        | (.error e, buf, s) => (.error e, buf, s)
        | (.ok start, buf, s) =>
          (.ok (), { buf with table := packer.pack ext start nRows rowNumber buf.table }, s)

/-- What every flush does to the flusher's state, adding a batch does. -/
theorem pushBatchLoop_rel {σ : Type} {R : σ → σ → Prop} {ext : Extern}
    {flusher : EmitTable → σ → Except UdfError Unit × σ} (hrefl : ∀ s, R s s)
    (htrans : ∀ {a b c}, R a b → R b c → R a c) (hflush : ∀ table s, R s (flusher table s).2)
    (packer : BatchPacker) (rowNumber : UInt64) (costs : List Nat) (r start : Nat)
    (buf : EmitBuffer) (s : σ) :
    R s (pushBatchLoop ext packer rowNumber flusher costs r start buf s).2.2 := by
  -- Either the row is only accounted for, or the flusher has been called once.
  induction costs generalizing r start buf s with
  | nil => exact hrefl s
  | cons cost costs ih =>
    unfold pushBatchLoop flush
    dsimp only
    split_ifs
    · generalize (buf.account 1 (cost + bytesRowNumber)).table = t
      have hsent := hflush (packer.pack ext start (r + 1) rowNumber t) s
      rcases hres : flusher (packer.pack ext start (r + 1) rowNumber t) s with ⟨e | u, s'⟩
      · rw [hres] at hsent
        exact hsent
      · rw [hres] at hsent
        exact htrans hsent (ih ..)
    · exact ih ..

theorem pushBatch_rel {σ : Type} {R : σ → σ → Prop} {ext : Extern}
    {flusher : EmitTable → σ → Except UdfError Unit × σ} (hrefl : ∀ s, R s s)
    (htrans : ∀ {a b c}, R a b → R b c → R a c) (hflush : ∀ table s, R s (flusher table s).2)
    (buf : EmitBuffer) (batch : RecordBatch) (cols : List ColumnInfo) (rowNumber : UInt64) (s : σ) :
    R s (buf.pushBatch ext batch cols rowNumber flusher s).2.2 := by
  unfold pushBatch
  dsimp only
  split_ifs
  · exact hrefl s
  cases BatchPacker.new ext batch cols with
  | error e => exact hrefl s
  | ok packer =>
    dsimp only
    split_ifs
    · exact hrefl s
    have hloop := @pushBatchLoop_rel _ _ ext _ hrefl htrans hflush packer rowNumber
      packer.rowCosts 0 0 buf s
    split <;> rename_i hres <;> rw [hres] at hloop <;> exact hloop

end EmitBuffer

end ExaUdf
