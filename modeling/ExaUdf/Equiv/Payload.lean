import ExaUdf.Equiv.MockCycle
import ExaUdf.Lib.Batching
import ExaUdf.Payload

/-!
# Generated input is the input of a session

`Supplies` is what `encode` expects of a source: a row is appended cell by cell, and the cells
decode to its values.  A cycle that is encoded is then its range of rows, cut into batches by
`Batching.cut`: `encodeCycle_eq`.  `encode_spec` says what the client reads of the whole input.
-/

namespace ExaUdf

/-! ### Tables, row by row -/

namespace ExascriptTableData

/-- Add cells to the data blocks. -/
def appendCells (t : ExascriptTableData) (cells : List WireCell) : ExascriptTableData :=
  { t with
    dataString := t.dataString ++ cells.filterMap WireCell.string?
    dataNulls := t.dataNulls ++ cells.map WireCell.isNull
    dataBool := t.dataBool ++ cells.filterMap WireCell.bool?
    dataInt32 := t.dataInt32 ++ cells.filterMap WireCell.int32?
    dataInt64 := t.dataInt64 ++ cells.filterMap WireCell.int64?
    dataDouble := t.dataDouble ++ cells.filterMap WireCell.double? }

/-- Add a row. -/
def appendRow (t : ExascriptTableData) (row : WireRow) : ExascriptTableData :=
  { t.appendCells row.cells with
    rows := t.rows + 1
    rowNumber := t.rowNumber ++ [row.rowNumber] }

@[simp] theorem appendCells_nil (t : ExascriptTableData) : t.appendCells [] = t := by
  simp [appendCells]

theorem appendCells_appendCells (t : ExascriptTableData) (as bs : List WireCell) :
    (t.appendCells as).appendCells bs = t.appendCells (as ++ bs) := by
  simp [appendCells]

end ExascriptTableData

theorem rowTable_concat (rows : List WireRow) (row : WireRow) :
    rowTable (rows ++ [row]) = (rowTable rows).appendRow row := by
  simp [rowTable, EmitTable.protoOf, EmitTable.append, EmitTable.appendCells, EmitTable.default,
    ExascriptTableData.appendRow, ExascriptTableData.appendCells]

theorem rowTable_rows (rows : List WireRow) : (rowTable rows).rows = rows.length :=
  Nat.zero_add _

theorem rowTable_rowNumber (rows : List WireRow) :
    (rowTable rows).rowNumber = rows.map WireRow.rowNumber :=
  List.nil_append _

/-- The rows of a table that are all of one width. -/
theorem drop_take_flatten {α : Type} {n : Nat} {xss : List (List α)}
    (h : ∀ xs ∈ xss, xs.length = n) {i : Nat} (hi : i < xss.length) :
    (xss.flatten.drop (i * n)).take n = xss[i] := by
  induction xss generalizing i with
  | nil => exact absurd hi (Nat.not_lt_zero i)
  | cons xs xss ih =>
    have hlen : xs.length = n := h xs List.mem_cons_self
    cases i with
    | zero => simp [← hlen]
    | succ i =>
      rw [List.flatten_cons, Nat.add_mul, Nat.one_mul, Nat.add_comm, ← List.drop_drop,
        ← hlen, List.drop_left, hlen]
      exact ih (fun ys hys => h ys (List.mem_cons_of_mem xs hys)) (Nat.lt_of_succ_lt_succ hi)

theorem cellValues_length {ext : Extern} {cols : List ColumnInfo} {cells : List WireCell}
    {values : List Value} (hlen : cells.length = cols.length)
    (h : cellValues ext cols cells = some values) : values.length = cols.length := by
  induction cols generalizing cells values with
  | nil =>
    rw [cellValues] at h
    · cases h
      rfl
    · rintro _ _ _ _ ⟨⟩
  | cons col cols ih =>
    cases cells with
    | nil => cases hlen
    | cons cell cells =>
      rw [cellValues, Option.bind_eq_some_iff] at h
      obtain ⟨v, -, hrest⟩ := h
      obtain ⟨vs, hvs, rfl⟩ := Option.map_eq_some_iff.mp hrest
      exact congrArg Nat.succ (ih (Nat.succ.inj hlen) hvs)

/-- **What is read of a table** made of fitting rows: their values, with their numbers. -/
theorem numberedRows_rowTable {env : Env} {m : UdfMeta} {α : Type} {xs : List α}
    {row : α → WireRow} {values : α → List Value}
    (hfits : ∀ x ∈ xs, (row x).Fits m.inputColumns)
    (hvalues : ∀ x ∈ xs, cellValues env.toExtern m.inputColumns (row x).cells = some (values x)) :
    numberedRows env m (rowTable (xs.map row)) = xs.map fun x => ((row x).rowNumber, values x) := by
  have hvss : (xs.map row).map (fun r => cellValues env.toExtern m.inputColumns r.cells)
      = (xs.map values).map some := by
    rw [List.map_map, List.map_map]
    exact List.map_congr_left hvalues
  obtain ⟨cur, hdecode, -⟩ := decodeCells_rowTable (List.forall_mem_map.mpr hfits) hvss
  have hwidth : ∀ vs ∈ xs.map values, vs.length = m.inputColumns.length :=
    List.forall_mem_map.mpr fun x hx => cellValues_length (hfits x hx).length_eq (hvalues x hx)
  rw [numberedRows, InputRowSet.decode, hdecode]
  dsimp only
  rw [rowTable_rows, rowTable_rowNumber, List.length_map, if_pos (by simp), List.map_map,
    List.take_of_length_le (by simp)]
  apply List.ext_getElem
  · simp [InputRowSet.ahead]
  · intro i hi hi'
    have hlen : i < xs.length := by rwa [List.length_map] at hi'
    have hcells := drop_take_flatten hwidth (i := i) (by rwa [List.length_map])
    simp only [InputRowSet.ahead, List.getElem_map, List.getElem_range', InputRowSet.rowCells,
      Nat.zero_add, Nat.one_mul, hcells]
    simp [hlen]

namespace MockDb

/-! ### Sources -/

/-- The source appends row `i` cell by cell, at this cost, and the cells decode to these values.  A
count of bytes that is within the limit can take any of the costs. -/
structure RowSource.Supplies (src : RowSource) (ext : Extern) (rows : UInt64)
    (cells : Nat → List WireCell) (values : Nat → List Value) (cost : Nat → Nat) : Prop where
  write : ∀ i < rows.toNat, ∀ table,
    src.writeRow (.ofNat i) table = some (.ofNat (cost i), table.appendCells (cells i))
  cost_lt : ∀ i < rows.toNat, emitLimitBytes + cost i < 2 ^ 64
  fits : ∀ i < rows.toNat, List.Forall₂ (fun cell col => WireCell.Fits (columnFromPb col).typ cell)
    (cells i) src.columns
  decode : ∀ i < rows.toNat,
    cellValues ext (src.columns.map columnFromPb) (cells i) = some (values i)

theorem Int64Columns.pushAll_eq (vs : List Int64) (table : ExascriptTableData) :
    pushAll vs table
      = (.ofNat (fixedCellBytes.toNat * vs.length), table.appendCells (vs.map .int64)) := by
  induction vs generalizing table with
  | nil =>
    show (0, table) = _
    rw [List.map_nil, ExascriptTableData.appendCells_nil]
    rfl
  | cons v vs ih =>
    have hcell : pushInt64 table v = (fixedCellBytes, table.appendCells [.int64 v]) := by
      simp [pushInt64, ExascriptTableData.appendCells, WireCell.string?, WireCell.bool?,
        WireCell.int32?, WireCell.int64?, WireCell.double?, WireCell.isNull]
    rw [pushAll, hcell]
    dsimp only
    rw [ih, ExascriptTableData.appendCells_appendCells, List.length_cons, Nat.mul_succ,
      Nat.add_comm, UInt64.ofNat_add, UInt64.ofNat_toNat]
    rfl

/-- Columns of integers supply what `fill` gives for each row. -/
theorem Int64Columns.supplies (src : Int64Columns) (ext : Extern) {rows : UInt64}
    (harity : ∀ i < rows.toNat, (src.fill (.ofNat i)).length = src.names.length)
    (hnames : emitLimitBytes + fixedCellBytes.toNat * src.names.length < 2 ^ 64) :
    src.source.Supplies ext rows (fun i => (src.fill (.ofNat i)).map .int64)
      (fun i => (src.fill (.ofNat i)).map .int64)
      (fun _ => fixedCellBytes.toNat * src.names.length) where
  write i hi table := by
    show (if _ then _ else _) = _
    rw [if_pos (harity i hi), pushAll_eq, harity i hi]
  cost_lt _ _ := hnames
  fits i hi := by
    show List.Forall₂ _ _ (src.names.map int64Col)
    rw [List.forall₂_map_left_iff, List.forall₂_map_right_iff]
    exact List.forall₂_iff_get.mpr ⟨harity i hi, fun _ _ _ => rfl⟩
  decode i hi := by
    have h : ∀ (names : List String) (vs : List Int64), vs.length = names.length →
        cellValues ext ((names.map int64Col).map columnFromPb) (vs.map .int64)
          = some (vs.map .int64) := by
      intro names
      induction names with
      | nil =>
        intro vs hlen
        obtain rfl := List.length_eq_zero_iff.mp hlen
        rfl
      | cons name names ih =>
        intro vs hlen
        cases vs with
        | nil => cases hlen
        | cons v vs =>
          rw [List.map_cons, List.map_cons, List.map_cons, cellValues,
            ih vs (Nat.succ.inj hlen)]
          rfl
    exact h src.names _ (harity i hi)

/-! ### Encoding a cycle -/

section

variable {src : RowSource} {ext : Extern} {rows : UInt64} {cells : Nat → List WireCell}
  {values : Nat → List Value} {cost : Nat → Nat}

/-- Row `i` of an input, on the wire. -/
def inputRow (cells : Nat → List WireCell) (i : Nat) : WireRow :=
  ⟨.ofNat i, cells i⟩

/-- The table with these rows. -/
def inputTable (cells : Nat → List WireCell) (batch : List Nat) : ExascriptTableData :=
  rowTable (batch.map (inputRow cells))

/-- Where an encoding is that has cut these batches, before row `i`. -/
def encodingAt (cells : Nat → List WireCell) (cost : Nat → Nat) (batches : List (List Nat))
    (waiting : List Nat) (i : Nat) : Encoding where
  frames := batchFrames (batches.map (inputTable cells))
  table := inputTable cells waiting
  bytes := .ofNat (Batching.total cost waiting)
  rowNumber := .ofNat i

theorem encodeRow_eq (hsrc : src.Supplies ext rows cells values cost) (batches : List (List Nat))
    {waiting : List Nat} (hwaiting : Batching.total cost waiting ≤ emitLimitBytes) {i : Nat}
    (hi : i < rows.toNat) :
    encodeRow src (encodingAt cells cost batches waiting i) (.ofNat i)
      = some (if emitLimitBytes + 1 ≤ Batching.total cost (waiting ++ [i]) then
          encodingAt cells cost (batches ++ [waiting ++ [i]]) [] (i + 1)
        else encodingAt cells cost batches (waiting ++ [i]) (i + 1)) := by
  have htable : inputTable cells (waiting ++ [i])
      = (inputTable cells waiting).appendRow (inputRow cells i) := by
    rw [inputTable, List.map_append]
    exact rowTable_concat _ _
  have hnumber : UInt64.ofNat i + 1 = .ofNat (i + 1) := by
    rw [UInt64.ofNat_add]
    rfl
  have hframes : batchFrames ((batches ++ [waiting ++ [i]]).map (inputTable cells))
      = batchFrames (batches.map (inputTable cells))
        ++ [encodeFrame (inputTable cells (waiting ++ [i]))] := by
    rw [List.map_append, batchFrames, List.map_append]
    rfl
  -- The count of bytes is within the limit, so it can take the cost of the row.
  have hbytes : UInt64.ofNat (Batching.total cost waiting) + .ofNat (cost i)
      = .ofNat (Batching.total cost (waiting ++ [i])) := by
    rw [Batching.total_append, Batching.total_singleton, UInt64.ofNat_add]
  have htotal : (UInt64.ofNat (Batching.total cost (waiting ++ [i]))).toNat
      = Batching.total cost (waiting ++ [i]) := by
    rw [Batching.total_append, Batching.total_singleton, UInt64.toNat_ofNat']
    exact Nat.mod_eq_of_lt (lt_of_le_of_lt (Nat.add_le_add_right hwaiting _) (hsrc.cost_lt i hi))
  rw [encodeRow, hsrc.write i hi]
  simp only [Option.map_some, encodingAt, hnumber, hframes, htable, hbytes, htotal]
  rfl

/-- Encoding a range of rows is cutting it. -/
theorem foldlM_encodeRow_eq (hsrc : src.Supplies ext rows cells values cost) :
    ∀ (n i : Nat) (batches : List (List Nat)) (waiting : List Nat), i + n ≤ rows.toNat →
      Batching.total cost waiting ≤ emitLimitBytes →
      let r := Batching.add (emitLimitBytes + 1) cost Batching.keep (List.range' i n) waiting
        batches
      ((List.range' i n).map UInt64.ofNat).foldlM (encodeRow src)
          (encodingAt cells cost batches waiting i)
        = some (encodingAt cells cost r.2.2 r.2.1 (i + n)) := by
  intro n
  induction n with
  | zero => exact fun _ _ _ _ _ => rfl
  | succ n ih =>
    intro i batches waiting hle hwaiting
    have hnext : i + 1 + n = i + (n + 1) := by omega
    have hrest := fun batches waiting => ih (i + 1) batches waiting (by omega)
    rw [hnext] at hrest
    rw [List.range'_succ, Batching.add_keep_cons, List.map_cons, List.foldlM_cons,
      encodeRow_eq hsrc batches hwaiting (by omega)]
    split_ifs with hlimit
    · exact hrest _ _ (Nat.zero_le _)
    · exact hrest _ _ (Nat.le_of_lt_succ (Nat.lt_of_not_le hlimit))

end

/-! ### Spreading rows over cycles -/

/-- The first row of cycle `c`. -/
def cycleStart (rows cycles c : Nat) : Nat :=
  rows * c / cycles

/-- The rows of cycle `c`. -/
def cycleRows (rows cycles c : Nat) : List Nat :=
  List.range' (cycleStart rows cycles c) (cycleStart rows cycles (c + 1) - cycleStart rows cycles c)

theorem cycleStart_zero (rows cycles : Nat) : cycleStart rows cycles 0 = 0 :=
  Nat.zero_div cycles

theorem cycleStart_le (rows cycles c n : Nat) :
    cycleStart rows cycles c ≤ cycleStart rows cycles (c + n) :=
  Nat.div_le_div_right (Nat.mul_le_mul_left rows (Nat.le_add_right c n))

theorem cycleStart_last {cycles : Nat} (hcycles : 0 < cycles) (rows : Nat) :
    cycleStart rows cycles cycles = rows :=
  Nat.mul_div_cancel rows hcycles

theorem cycleStart_le_rows {cycles c : Nat} (hcycles : 0 < cycles) (hc : c ≤ cycles)
    (rows : Nat) : cycleStart rows cycles c ≤ rows := by
  have hle := cycleStart_le rows cycles c (cycles - c)
  rwa [Nat.add_sub_cancel' hc, cycleStart_last hcycles] at hle

/-- Cycles differ by one row at most. -/
theorem length_cycleRows {cycles : Nat} (hcycles : 0 < cycles) (rows c : Nat) :
    (cycleRows rows cycles c).length = rows / cycles ∨
      (cycleRows rows cycles c).length = rows / cycles + 1 := by
  have hnext : cycleStart rows cycles (c + 1) = cycleStart rows cycles c + rows / cycles
      + if cycles ≤ rows * c % cycles + rows % cycles then 1 else 0 := by
    rw [cycleStart, Nat.mul_succ, Nat.add_div hcycles]
    rfl
  rw [cycleRows, List.length_range', hnext]
  generalize rows / cycles = q
  split_ifs <;> omega

/-- Cycles together are their rows, in order. -/
theorem flatMap_cycleRows (rows cycles : Nat) : ∀ n c : Nat,
    (List.range' c n).flatMap (cycleRows rows cycles) = List.range' (cycleStart rows cycles c)
      (cycleStart rows cycles (c + n) - cycleStart rows cycles c) := by
  intro n
  induction n with
  | zero =>
    intro c
    rw [Nat.add_zero, Nat.sub_self]
    rfl
  | succ n ih =>
    intro c
    have hlow := cycleStart_le rows cycles c 1
    have hhigh := cycleStart_le rows cycles (c + 1) n
    have hend : c + 1 + n = c + (n + 1) := by omega
    rw [List.range'_succ, List.flatMap_cons, ih, cycleRows]
    rw [hend] at hhigh ⊢
    generalize cycleStart rows cycles c = low at *
    generalize cycleStart rows cycles (c + 1) = mid at *
    obtain ⟨k, rfl⟩ := Nat.exists_eq_add_of_le hlow
    rw [Nat.add_sub_cancel_left, List.range'_append_1]
    congr 1
    omega

section

variable {src : RowSource} {ext : Extern} {rows cycles : UInt64} {cells : Nat → List WireCell}
  {values : Nat → List Value} {cost : Nat → Nat}

/-- The batches of cycle `c`. -/
def cycleTables (cells : Nat → List WireCell) (cost : Nat → Nat) (rows cycles c : Nat) :
    List ExascriptTableData :=
  (Batching.cut (emitLimitBytes + 1) cost (cycleRows rows cycles c)).map (inputTable cells)

/-- The bounds of a cycle do not overflow. -/
theorem toNat_cycleStart (hsmall : rows.toNat * cycles.toNat < 2 ^ 64) {c : Nat}
    (hc : c ≤ cycles.toNat) :
    (rows * .ofNat c / cycles).toNat = cycleStart rows.toNat cycles.toNat c := by
  have hmul : rows.toNat * c ≤ rows.toNat * cycles.toNat := Nat.mul_le_mul_left _ hc
  have hlt : cycles.toNat < 2 ^ 64 := cycles.toNat_lt
  rw [UInt64.toNat_div, UInt64.toNat_mul, UInt64.toNat_ofNat', Nat.mod_eq_of_lt (by omega : c < _),
    Nat.mod_eq_of_lt (by omega)]
  rfl

theorem ofNat_succ (n : Nat) : UInt64.ofNat n + 1 = .ofNat (n + 1) := by
  rw [UInt64.ofNat_add]
  rfl

/-- **A cycle** is encoded in its batches. -/
theorem encodeCycle_eq (hsrc : src.Supplies ext rows cells values cost)
    (hsmall : rows.toNat * cycles.toNat < 2 ^ 64) {c : Nat} (hc : c < cycles.toNat) :
    encodeCycle src rows cycles (.ofNat c) (.ofNat (cycleStart rows.toNat cycles.toNat c))
      = some (batchFrames (cycleTables cells cost rows.toNat cycles.toNat c),
        .ofNat (cycleStart rows.toNat cycles.toNat (c + 1))) := by
  have hcycles : 0 < cycles.toNat := Nat.lt_of_le_of_lt (Nat.zero_le c) hc
  have hle := cycleStart_le rows.toNat cycles.toNat c 1
  have hrows := cycleStart_le_rows (c := c + 1) hcycles hc rows.toNat
  have hrange : rowRange (rows * .ofNat c / cycles) (rows * (.ofNat c + 1) / cycles)
      = (cycleRows rows.toNat cycles.toNat c).map UInt64.ofNat := by
    rw [rowRange, ofNat_succ, toNat_cycleStart hsmall (Nat.le_of_lt hc),
      toNat_cycleStart hsmall (Nat.succ_le_of_lt hc)]
    rfl
  have hfold := foldlM_encodeRow_eq hsrc
    (cycleStart rows.toNat cycles.toNat (c + 1) - cycleStart rows.toNat cycles.toNat c)
    (cycleStart rows.toNat cycles.toNat c) [] [] (by omega) (Nat.zero_le _)
  rw [Nat.add_sub_cancel' hle] at hfold
  unfold encodeCycle
  rw [hrange]
  change Option.map _ (List.foldlM (encodeRow src) (encodingAt cells cost [] [] _)
    ((cycleRows rows.toNat cycles.toNat c).map UInt64.ofNat)) = _
  rw [cycleRows, hfold, cycleTables, cycleRows, Batching.cut]
  generalize Batching.add _ cost Batching.keep _ [] [] = r
  obtain ⟨res, waiting, batches⟩ := r
  have hwaiting : (inputTable cells waiting).rows = waiting.length := by
    rw [inputTable, rowTable_rows, List.length_map]
  simp only [Option.map_some, encodingAt, hwaiting]
  cases waiting with
  | nil => rfl
  | cons i waiting =>
    rw [if_pos (Nat.lt_of_sub_eq_succ rfl), if_neg (by simp), List.map_append, batchFrames,
      batchFrames, List.map_append]
    rfl

theorem encodeCycles_eq (hsrc : src.Supplies ext rows cells values cost)
    (hsmall : rows.toNat * cycles.toNat < 2 ^ 64) : ∀ n c : Nat, c + n ≤ cycles.toNat →
    encodeCycles src rows cycles ((List.range' c n).map .ofNat)
        (.ofNat (cycleStart rows.toNat cycles.toNat c))
      = some ((List.range' c n).map fun c =>
        batchFrames (cycleTables cells cost rows.toNat cycles.toNat c)) := by
  intro n
  induction n with
  | zero => exact fun _ _ => rfl
  | succ n ih =>
    intro c hle
    rw [List.range'_succ, List.map_cons, encodeCycles, encodeCycle_eq hsrc hsmall (by omega),
      Option.bind_some, ih (c + 1) (by omega)]
    rfl

variable {env : Env} {m : UdfMeta}

/-- What is read of a batch. -/
theorem numberedRows_inputTable (hsrc : src.Supplies env.toExtern rows cells values cost)
    (hm : m.inputColumns = src.columns.map columnFromPb) {batch : List Nat}
    (hbatch : ∀ i ∈ batch, i < rows.toNat) :
    numberedRows env m (inputTable cells batch) = batch.map fun i => (.ofNat i, values i) := by
  apply numberedRows_rowTable
  · intro i hi
    rw [hm, WireRow.Fits, List.forall₂_map_right_iff]
    exact hsrc.fits i (hbatch i hi)
  · intro i hi
    rw [hm]
    exact hsrc.decode i (hbatch i hi)

theorem mem_cycleRows {c i : Nat} (hc : c < cycles.toNat)
    (hi : i ∈ cycleRows rows.toNat cycles.toNat c) : i < rows.toNat := by
  have hcycles : 0 < cycles.toNat := Nat.lt_of_le_of_lt (Nat.zero_le c) hc
  have hrows := cycleStart_le_rows (c := c + 1) hcycles hc rows.toNat
  have hle := cycleStart_le rows.toNat cycles.toNat c 1
  rw [cycleRows, List.mem_range'_1] at hi
  omega

/-- The batches of a cycle, as they are read. -/
theorem numberedRows_cycleTables (hsrc : src.Supplies env.toExtern rows cells values cost)
    (hm : m.inputColumns = src.columns.map columnFromPb) {c : Nat} (hc : c < cycles.toNat) :
    (cycleTables cells cost rows.toNat cycles.toNat c).map (numberedRows env m)
      = (Batching.cut (emitLimitBytes + 1) cost (cycleRows rows.toNat cycles.toNat c)).map
        (List.map fun i => (.ofNat i, values i)) := by
  have hflatten : (Batching.cut (emitLimitBytes + 1) cost
      (cycleRows rows.toNat cycles.toNat c)).flatten = cycleRows rows.toNat cycles.toNat c :=
    (Batching.cut_spec (Nat.succ_pos _) _).1
  rw [cycleTables, List.map_map]
  refine List.map_congr_left fun batch hbatch => ?_
  refine numberedRows_inputTable hsrc hm fun i hi => mem_cycleRows hc ?_
  rw [← hflatten]
  exact List.mem_flatten_of_mem hbatch hi

/-- **Generated input.**  The frames that are generated from a source carry its rows, all of them
and in order, each with its index as its row number.  The cycles differ by one row at most.  Within
a cycle no batch is empty, none crosses the limit before its last row, and all but the last one do
cross it. -/
theorem encode_spec (hsrc : src.Supplies env.toExtern rows cells values cost)
    (hm : m.inputColumns = src.columns.map columnFromPb) (hcycles : 0 < cycles)
    (hsmall : rows.toNat * cycles.toNat < 2 ^ 64) :
    ∃ tables : List (List ExascriptTableData),
      encode src rows cycles = some (tables.map batchFrames) ∧ tables.length = cycles.toNat ∧
      tables.flatten.flatMap (numberedRows env m)
        = (List.range rows.toNat).map (fun i => (.ofNat i, values i)) ∧
      ∀ cycle ∈ tables,
        ((cycle.flatMap (numberedRows env m)).length = rows.toNat / cycles.toNat ∨
          (cycle.flatMap (numberedRows env m)).length = rows.toNat / cycles.toNat + 1) ∧
        Batching.Cut (emitLimitBytes + 1) (fun row => cost row.1.toNat)
          (cycle.map (numberedRows env m)) := by
  have hpos : 0 < cycles.toNat := UInt64.lt_iff_toNat_lt.mp hcycles
  have hflatten : ∀ c, (Batching.cut (emitLimitBytes + 1) cost
      (cycleRows rows.toNat cycles.toNat c)).flatten = cycleRows rows.toNat cycles.toNat c :=
    fun c => (Batching.cut_spec (Nat.succ_pos _) _).1
  have hread : ∀ c < cycles.toNat,
      (cycleTables cells cost rows.toNat cycles.toNat c).flatMap (numberedRows env m)
        = (cycleRows rows.toNat cycles.toNat c).map fun i => (.ofNat i, values i) := by
    intro c hc
    rw [List.flatMap_def, numberedRows_cycleTables hsrc hm hc, ← List.map_flatten, hflatten]
  have hrange : ∀ c ∈ List.range' 0 cycles.toNat, c < cycles.toNat := by
    intro c hc
    rw [List.mem_range'_1] at hc
    omega
  refine ⟨(List.range' 0 cycles.toNat).map
    (cycleTables cells cost rows.toNat cycles.toNat), ?_, ?_, ?_, ?_⟩
  · have hencode := encodeCycles_eq hsrc hsmall cycles.toNat 0 (by omega)
    rw [cycleStart_zero] at hencode
    rw [encode, if_pos hcycles, rowRange, List.map_map]
    exact hencode
  · rw [List.length_map, List.length_range']
  · rw [← List.flatMap_def, List.flatMap_assoc,
      List.flatMap_congr fun c hc => hread c (hrange c hc), ← List.map_flatMap,
      flatMap_cycleRows, Nat.zero_add, cycleStart_zero, cycleStart_last hpos, Nat.sub_zero,
      List.range_eq_range']
  · intro cycle hcycle
    obtain ⟨c, hmem, rfl⟩ := List.mem_map.mp hcycle
    have hc := hrange c hmem
    constructor
    · rw [hread c hc, List.length_map]
      exact length_cycleRows hpos rows.toNat c
    · rw [numberedRows_cycleTables hsrc hm hc]
      refine (Batching.cut_spec (Nat.succ_pos _) _).2.map fun batch hbatch i hi => ?_
      have hrow : i < rows.toNat :=
        mem_cycleRows hc (hflatten c ▸ List.mem_flatten_of_mem hbatch hi)
      show cost (UInt64.ofNat i).toNat = cost i
      rw [UInt64.toNat_ofNat', Nat.mod_eq_of_lt (Nat.lt_trans hrow rows.toNat_lt)]

end

/-- Ten and following, in more cycles than rows. -/
theorem encode_spec_sample :
    let src : Int64Columns := ⟨["x"], fun i => [10 + i.toInt64]⟩
    let env := Env.reference (.emitting fun _ => .done ⟨0, ""⟩)
    let m := UdfMeta.fromPb ⟨1, 1, src.source.columns, [int64Col "y"], false⟩ .empty
    ∃ tables : List (List ExascriptTableData),
      encode src.source 3 5 = some (tables.map batchFrames) ∧ tables.length = (5 : UInt64).toNat ∧
      tables.flatten.flatMap (numberedRows env m) = (List.range (3 : UInt64).toNat).map
        (fun i => (.ofNat i, (src.fill (.ofNat i)).map .int64)) ∧
      ∀ cycle ∈ tables,
        ((cycle.flatMap (numberedRows env m)).length = (3 : UInt64).toNat / (5 : UInt64).toNat ∨
          (cycle.flatMap (numberedRows env m)).length
            = (3 : UInt64).toNat / (5 : UInt64).toNat + 1) ∧
        Batching.Cut (emitLimitBytes + 1) (fun _ => fixedCellBytes.toNat * src.names.length)
          (cycle.map (numberedRows env m)) := by
  intro src env m
  have hsrc : src.source.Supplies env.toExtern 3 _ _ _ :=
    src.supplies env.toExtern (fun _ _ => rfl) (by decide)
  exact encode_spec hsrc rfl (by decide) (by decide)

end MockDb

end ExaUdf
