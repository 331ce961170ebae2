import ExaUdf.Equiv.Arrow
import ExaUdf.Equiv.Calendar
import ExaUdf.Lib.RowMajor

/-!
# The columnar path is the row path

`BatchPacker.pack` appends the rows of a range of a batch (`pack_eq`), block by block: the NULL bits
are set column by column in a row-major matrix, the fixed-width blocks are filtered copies, and each
string cell has the text that the row path writes.

With the costs of `Equiv.Arrow`, `EmitBuffer.pushBatch` then does what pushing the rows one at a
time does, flush for flush (`pushBatch_eq_pushRows`).
-/

namespace ExaUdf

/-! ### Filing the columns -/

namespace BatchPacker

def int32Col? (nulls : Option (List Bool)) : ColAccessor → Option (FixedCol Int32)
  | .int32 arr => some ⟨arr, nulls⟩
  | _ => none

def int64Col? (nulls : Option (List Bool)) : ColAccessor → Option (FixedCol Int64)
  | .int64 arr => some ⟨arr, nulls⟩
  | _ => none

def doubleCol? (nulls : Option (List Bool)) : ColAccessor → Option (FixedCol F64)
  | .float64 arr => some ⟨arr, nulls⟩
  | _ => none

def boolCol? (nulls : Option (List Bool)) : ColAccessor → Option (FixedCol Bool)
  | .boolean arr => some ⟨arr, nulls⟩
  | _ => none

def stringCol? (c : Nat) (nulls : Option (List Bool)) (acc : ColAccessor) : Option StringCol :=
  (stringKind? acc).map (⟨c, nulls, ·⟩)

theorem addColumn_eq (p : BatchPacker) (c : Nat) (acc : ColAccessor) :
    p.addColumn c acc =
      { p with
        int32 := p.int32 ++ (int32Col? (p.nulls.getD c none) acc).toList
        int64 := p.int64 ++ (int64Col? (p.nulls.getD c none) acc).toList
        doubles := p.doubles ++ (doubleCol? (p.nulls.getD c none) acc).toList
        bools := p.bools ++ (boolCol? (p.nulls.getD c none) acc).toList
        strings := p.strings ++ (stringCol? c (p.nulls.getD c none) acc).toList } := by
  cases acc <;>
    simp only [addColumn, stringKind?, int32Col?, int64Col?, doubleCol?, boolCol?, stringCol?,
      Option.map_some, Option.map_none, Option.toList_some, Option.toList_none, List.append_nil]

theorem addColumns_eq (p : BatchPacker) (c : Nat) (accs : List ColAccessor) :
    p.addColumns c accs =
      { p with
        int32 := p.int32 ++ (accs.zipIdx c).flatMap fun q =>
          (int32Col? (p.nulls.getD q.2 none) q.1).toList
        int64 := p.int64 ++ (accs.zipIdx c).flatMap fun q =>
          (int64Col? (p.nulls.getD q.2 none) q.1).toList
        doubles := p.doubles ++ (accs.zipIdx c).flatMap fun q =>
          (doubleCol? (p.nulls.getD q.2 none) q.1).toList
        bools := p.bools ++ (accs.zipIdx c).flatMap fun q =>
          (boolCol? (p.nulls.getD q.2 none) q.1).toList
        strings := p.strings ++ (accs.zipIdx c).flatMap fun q =>
          (stringCol? q.2 (p.nulls.getD q.2 none) q.1).toList } := by
  induction accs generalizing p c with
  | nil => simp only [addColumns, List.zipIdx_nil, List.flatMap_nil, List.append_nil]
  | cons acc accs ih =>
    rw [addColumns, ih, addColumn_eq]
    simp only [List.zipIdx_cons, List.flatMap_cons, List.append_assoc]

/-- A packer that was made for a batch. -/
structure Made (ext : Extern) (batch : RecordBatch) (cols : List ColumnInfo)
    (accs : List ColAccessor) (p : BatchPacker) : Prop where
  batch_eq : p.batch = batch
  cols_eq : p.cols = cols
  accessors_eq : p.accessors = accs
  matched : Matched batch.columns cols accs
  nulls_eq : p.nulls = batch.columns.map columnNulls
  int32_eq : p.int32 = accs.zipIdx.flatMap fun q => (int32Col? (p.nulls.getD q.2 none) q.1).toList
  int64_eq : p.int64 = accs.zipIdx.flatMap fun q => (int64Col? (p.nulls.getD q.2 none) q.1).toList
  doubles_eq : p.doubles
    = accs.zipIdx.flatMap fun q => (doubleCol? (p.nulls.getD q.2 none) q.1).toList
  bools_eq : p.bools = accs.zipIdx.flatMap fun q => (boolCol? (p.nulls.getD q.2 none) q.1).toList
  strings_eq : p.strings
    = accs.zipIdx.flatMap fun q => (stringCol? q.2 (p.nulls.getD q.2 none) q.1).toList

theorem new_eq_ok {ext : Extern} {batch : RecordBatch} {cols : List ColumnInfo} {p : BatchPacker}
    (h : new ext batch cols = .ok p) :
    ∃ accs, buildAccessors ext batch cols = .ok accs ∧ Made ext batch cols accs p := by
  rw [new] at h
  cases hacc : buildAccessors ext batch cols with
  | error e => rw [hacc] at h; cases h
  | ok accs =>
    rw [hacc] at h
    obtain rfl := Except.ok.inj h
    have hmatched := buildAccessors_matched hacc
    refine ⟨accs, rfl, ?_⟩
    dsimp only
    rw [addColumns_eq]
    refine ⟨rfl, rfl, rfl, hmatched, ?_, rfl, rfl, rfl, rfl, rfl⟩
    simp only [← hmatched.length_columns, List.take_length]

/-- The null buffers that hold a NULL have the NULLs of all null buffers. -/
theorem nullAt_columnNulls {n : Nat} {a : ArrowArray} (hwf : a.WF n) {r : Nat} (hr : r < n) :
    nullAt (columnNulls a) r = nullAt a.nulls r := by
  have hnulls := hwf.nulls
  rw [columnNulls, nullAt, nullAt]
  -- A buffer without a NULL is dropped, which changes no bit that is looked at.
  cases h : a.nulls with
  | none => rfl
  | some bits =>
    have hlen := hnulls bits h
    rw [Option.filter_some]
    split_ifs with hcount
    · rfl
    · -- Without a NULL every bit is set.
      have hr' : r < bits.length := by omega
      have hbit : bits[r] = true := by
        by_contra hfalse
        rw [Bool.not_eq_true] at hfalse
        exact hcount (decide_eq_true (List.count_pos_iff.mpr (hfalse ▸ List.getElem_mem hr')))
      have hget : bits.getD r true = true := by
        rw [List.getD_eq_getElem?_getD, List.getElem?_eq_getElem hr', Option.getD_some, hbit]
      rw [Option.any_none, Option.any_some, isNullAt, hget]
      rfl

/-- The cell that the packer makes of column `q.2`, whose accessor is `q.1`. -/
def cellAt (ext : Extern) (p : BatchPacker) (r : Nat) (q : ColAccessor × Nat) : WireCell :=
  if nullAt (p.nulls.getD q.2 none) r then .null else q.1.cell ext r

namespace Made

variable {ext : Extern} {batch : RecordBatch} {cols : List ColumnInfo} {accs : List ColAccessor}
  {p : BatchPacker}

theorem getD_nulls (h : Made ext batch cols accs p) {c : Nat} (hc : c < batch.columns.length) :
    p.nulls.getD c none = columnNulls batch.columns[c] := by
  rw [h.nulls_eq, List.getD_eq_getElem?_getD, List.getElem?_map, List.getElem?_eq_getElem hc]
  rfl

theorem length_nulls (h : Made ext batch cols accs p) {c : Nat} {bits : List Bool}
    (hbits : p.nulls.getD c none = some bits) : bits.length = batch.numRows := by
  by_cases hc : c < batch.columns.length
  · rw [h.getD_nulls hc, columnNulls, Option.filter_eq_some_iff] at hbits
    exact (batch.wf _ (List.getElem_mem hc)).nulls bits hbits.1
  · rw [h.nulls_eq, List.getD_eq_getElem?_getD, List.getElem?_eq_none (by simp; omega)] at hbits
    cases hbits

theorem cells_eq (h : Made ext batch cols accs p) (rowNumber : UInt64) {r : Nat}
    (hr : r < batch.numRows) :
    (batchRow ext batch.columns accs rowNumber r).cells
      = accs.zipIdx.map (p.cellAt ext r) := by
  have hlen := h.matched.length_accessors
  -- Column by column, the packer has the accessor and the null buffer of the batch.
  apply List.ext_getElem
  · simp [batchRow, hlen]
  · intro c h1 h2
    have hc : c < accs.length := by simpa using h2
    have hnull : nullAt (p.nulls.getD c none) r = nullAt batch.columns[c].nulls r := by
      rw [h.getD_nulls (by omega)]
      exact nullAt_columnNulls (batch.wf _ (List.getElem_mem _)) hr
    simp only [batchRow, List.getElem_zipWith, List.getElem_map, List.getElem_zipIdx, Nat.zero_add,
      cellAt, hnull, batchCell]

end Made

end BatchPacker

/-! ### Fixed-width blocks -/

/-- The accessor holds `n` rows. -/
def ColAccessor.WF (n : Nat) : ColAccessor → Prop
  | .int32 arr => arr.length = n
  | .int64 arr => arr.length = n
  | .float64 arr => arr.length = n
  | .boolean arr => arr.length = n
  | .utf8 offsets data => OffsetsWF n offsets data
  | .largeUtf8 offsets data => OffsetsWF n offsets data
  | _ => True

theorem accessor?_wf {n : Nat} {data : ArrowData} (hwf : data.WF n) {typ : ExaType}
    {acc : ColAccessor} (h : accessor? data typ = some acc) : acc.WF n := by
  cases data with
  | timestamp unit => cases unit <;> cases typ <;> cases h <;> trivial
  | _ => cases typ <;> cases h <;> first | exact hwf | trivial

theorem Matched.accessor_wf {n : Nat} {as : List ArrowArray} {cols : List ColumnInfo}
    {accs : List ColAccessor} (h : Matched as cols accs) (hwf : ∀ a ∈ as, a.WF n) :
    ∀ acc ∈ accs, acc.WF n := by
  induction h with
  | nil => exact fun _ hmem => absurd hmem List.not_mem_nil
  | @cons a col acc as cols accs hacc _ ih =>
    intro b hb
    obtain rfl | hb := List.mem_cons.mp hb
    · exact accessor?_wf (hwf a List.mem_cons_self).data hacc
    · exact ih (fun c hc => hwf c (List.mem_cons_of_mem a hc)) b hb

namespace FixedCol

variable {α : Type}

structure WF (n : Nat) (col : FixedCol α) : Prop where
  values : col.values.length = n
  nulls : ∀ bits, col.nulls = some bits → bits.length = n

/-- What the column has to add to its block in row `r`. -/
def cellsAt (r : Nat) (col : FixedCol α) : List α :=
  if nullAt col.nulls r then [] else (col.values[r]?).toList

end FixedCol

namespace BatchPacker

theorem sliceRows_eq_flatMap {α : Type} {xs : List α} {start stop : Nat} (h : stop ≤ xs.length) :
    sliceRows xs start stop
      = (List.range' start (stop - start)).flatMap fun r => (xs[r]?).toList := by
  have hmap : sliceRows xs start stop
      = (List.range' start (stop - start)).filterMap fun r => xs[r]? := by
    -- On the number of rows, taking the first one off.
    induction hn : stop - start generalizing start with
    | zero => rw [sliceRows, hn, List.take_zero]; rfl
    | succ n ih =>
      have hstart : start < xs.length := by omega
      have hn' : stop - (start + 1) = n := by omega
      have hnext := ih hn'
      rw [sliceRows, hn'] at hnext
      rw [sliceRows, hn, List.drop_eq_getElem_cons hstart, List.take_succ_cons, hnext,
        List.range'_succ, List.filterMap_cons, List.getElem?_eq_getElem hstart]
  rw [hmap, List.filterMap_eq_flatMap_toList]

/-- With one column, copying its valid values is the same as going row by row. -/
theorem packFixed_singleton {α : Type} {n : Nat} {col : FixedCol α} (hwf : col.WF n)
    {start stop : Nat} (hstop : stop ≤ n) (block : List α) :
    packFixed [col] start stop block
      = block ++ (List.range' start (stop - start)).flatMap col.cellsAt := by
  have hvalues := hwf.values
  -- Without a null buffer the slice is copied whole, else it is filtered by its bits.
  cases hnulls : col.nulls with
  | none =>
    have hcells : col.cellsAt = fun r => (col.values[r]?).toList :=
      funext fun r => by rw [FixedCol.cellsAt, hnulls]; rfl
    simp only [packFixed, hnulls, hcells, sliceRows_eq_flatMap (hvalues ▸ hstop)]
  | some bits =>
    have hbits := hwf.nulls bits hnulls
    have hzip : ((sliceRows col.values start stop).zip (sliceRows bits start stop)).filter Prod.snd
        = (sliceRows (col.values.zip bits) start stop).filter Prod.snd := by
      simp only [sliceRows, List.zip, List.drop_zipWith, List.take_zipWith]
    have hcell : ∀ r ∈ List.range' start (stop - start),
        ((((col.values.zip bits)[r]?).toList).filter Prod.snd).map Prod.fst = col.cellsAt r := by
      intro r hr
      have hr' : r < n := by
        obtain ⟨hlo, hhi⟩ := List.mem_range'_1.mp hr
        omega
      have hr'' : r < bits.length := by omega
      rw [FixedCol.cellsAt, hnulls, nullAt, Option.any_some, isNullAt,
        List.getElem?_eq_getElem (by simp; omega), List.getD_eq_getElem?_getD,
        List.getElem?_eq_getElem (by omega), List.getElem?_eq_getElem (by omega),
        List.getElem_zip]
      cases bits[r] <;> simp
    simp only [packFixed, hnulls, hzip]
    rw [sliceRows_eq_flatMap (by simp; omega), List.filter_flatMap, List.map_flatMap]
    exact congrArg (block ++ ·) (List.flatMap_congr hcell)

/-- **A block of fixed width** gets the cells of its columns row by row. -/
theorem packFixed_eq {α : Type} {n : Nat} {cols : List (FixedCol α)} (hwf : ∀ col ∈ cols, col.WF n)
    {start stop : Nat} (hstop : stop ≤ n) (block : List α) :
    packFixed cols start stop block
      = block ++ (List.range' start (stop - start)).flatMap fun r =>
        cols.flatMap (FixedCol.cellsAt r) := by
  -- No column, one column, and columns that share the block.
  obtain - | ⟨col, - | ⟨col', cols⟩⟩ := cols
  · simp [packFixed]
  · rw [packFixed_singleton (hwf col List.mem_cons_self) hstop]
    simp only [List.flatMap_cons, List.flatMap_nil, List.append_nil]
  · have hcell : ∀ r, (fun col : FixedCol α =>
        if col.nulls.all (fun bits => !isNullAt bits r) then (col.values[r]?).toList else [])
          = FixedCol.cellsAt r := by
      intro r
      funext col
      rw [FixedCol.cellsAt, nullAt]
      cases col.nulls with
      | none => rfl
      | some bits =>
        rw [Option.all_some, Option.any_some]
        cases isNullAt bits r <;> rfl
    simp only [packFixed, hcell]

namespace Made

variable {ext : Extern} {batch : RecordBatch} {cols : List ColumnInfo} {accs : List ColAccessor}
  {p : BatchPacker}

theorem mem_zipIdx_wf (h : Made ext batch cols accs p) {q : ColAccessor × Nat}
    (hq : q ∈ accs.zipIdx) : q.1.WF batch.numRows :=
  h.matched.accessor_wf batch.wf q.1 (List.fst_mem_of_mem_zipIdx hq)

/-- What a row adds to a block, column by column. -/
theorem filterMap_cells (h : Made ext batch cols accs p) {α : Type} {pick : WireCell → Option α}
    {cells : ColAccessor × Nat → List α} {r : Nat} (hr : r < batch.numRows)
    (hcell : ∀ q ∈ accs.zipIdx, (pick (p.cellAt ext r q)).toList = cells q) (rowNumber : UInt64) :
    (batchRow ext batch.columns accs rowNumber r).cells.filterMap pick
      = accs.zipIdx.flatMap cells := by
  rw [h.cells_eq rowNumber hr, List.filterMap_map, List.filterMap_eq_flatMap_toList]
  exact List.flatMap_congr hcell

/-- The columns of a block are as long as the batch, and each row of the batch adds their cells. -/
theorem fixed_block (h : Made ext batch cols accs p) {α : Type} {pick : WireCell → Option α}
    {file : Option (List Bool) → ColAccessor → Option (FixedCol α)} {fixed : List (FixedCol α)}
    (hfixed : fixed = accs.zipIdx.flatMap fun q => (file (p.nulls.getD q.2 none) q.1).toList)
    (hnull : pick .null = none)
    (hnone : ∀ nulls acc, file nulls acc = none → ∀ r, pick (acc.cell ext r) = none)
    (hsome : ∀ nulls acc col, acc.WF batch.numRows → file nulls acc = some col →
      col.nulls = nulls ∧ col.values.length = batch.numRows ∧
        ∀ r < batch.numRows, pick (acc.cell ext r) = col.values[r]?) :
    (∀ col ∈ fixed, col.WF batch.numRows) ∧
      ∀ r < batch.numRows, ∀ rowNumber,
        (batchRow ext batch.columns accs rowNumber r).cells.filterMap pick
          = fixed.flatMap (FixedCol.cellsAt r) := by
  constructor
  · intro col hcol
    rw [hfixed, List.mem_flatMap] at hcol
    obtain ⟨q, hq, hcol⟩ := hcol
    obtain ⟨hnulls, hvalues, -⟩ := hsome _ _ _ (h.mem_zipIdx_wf hq) (Option.mem_toList.mp hcol)
    exact ⟨hvalues, fun bits hbits => h.length_nulls (hnulls ▸ hbits)⟩
  · intro r hr rowNumber
    rw [hfixed, List.flatMap_assoc]
    refine h.filterMap_cells hr (fun q hq => ?_) rowNumber
    rw [cellAt]
    -- A column is filed under the block exactly if its cells belong there.
    cases hfile : file (p.nulls.getD q.2 none) q.1 with
    | none =>
      have hcell := hnone _ _ hfile r
      split_ifs
      · rw [hnull]; rfl
      · rw [hcell]; rfl
    | some col =>
      obtain ⟨hnulls, -, hcell⟩ := hsome _ _ _ (h.mem_zipIdx_wf hq) hfile
      rw [Option.toList_some, List.flatMap_singleton, FixedCol.cellsAt, hnulls, ← hcell r hr]
      split_ifs
      · rw [hnull]; rfl
      · rfl

theorem getD_eq_getElem? {α : Type} {xs : List α} {n r : Nat} (hlen : xs.length = n) (hr : r < n)
    (d : α) : some (xs.getD r d) = xs[r]? := by
  rw [List.getD_eq_getElem?_getD, List.getElem?_eq_getElem (by omega), Option.getD_some]

theorem int32_block (h : Made ext batch cols accs p) :
    (∀ col ∈ p.int32, col.WF batch.numRows) ∧
      ∀ r < batch.numRows, ∀ rowNumber,
        (batchRow ext batch.columns accs rowNumber r).cells.filterMap WireCell.int32?
          = p.int32.flatMap (FixedCol.cellsAt r) := by
  refine h.fixed_block h.int32_eq rfl ?_ ?_
  · intro nulls acc hfile r
    cases acc <;> first | rfl | cases hfile
  · intro nulls acc col hwf hfile
    cases acc <;> cases hfile
    exact ⟨rfl, hwf, fun r hr => getD_eq_getElem? hwf hr 0⟩

theorem int64_block (h : Made ext batch cols accs p) :
    (∀ col ∈ p.int64, col.WF batch.numRows) ∧
      ∀ r < batch.numRows, ∀ rowNumber,
        (batchRow ext batch.columns accs rowNumber r).cells.filterMap WireCell.int64?
          = p.int64.flatMap (FixedCol.cellsAt r) := by
  refine h.fixed_block h.int64_eq rfl ?_ ?_
  · intro nulls acc hfile r
    cases acc <;> first | rfl | cases hfile
  · intro nulls acc col hwf hfile
    cases acc <;> cases hfile
    exact ⟨rfl, hwf, fun r hr => getD_eq_getElem? hwf hr 0⟩

theorem doubles_block (h : Made ext batch cols accs p) :
    (∀ col ∈ p.doubles, col.WF batch.numRows) ∧
      ∀ r < batch.numRows, ∀ rowNumber,
        (batchRow ext batch.columns accs rowNumber r).cells.filterMap WireCell.double?
          = p.doubles.flatMap (FixedCol.cellsAt r) := by
  refine h.fixed_block h.doubles_eq rfl ?_ ?_
  · intro nulls acc hfile r
    cases acc <;> first | rfl | cases hfile
  · intro nulls acc col hwf hfile
    cases acc <;> cases hfile
    exact ⟨rfl, hwf, fun r hr => getD_eq_getElem? hwf hr ⟨0⟩⟩

theorem bools_block (h : Made ext batch cols accs p) :
    (∀ col ∈ p.bools, col.WF batch.numRows) ∧
      ∀ r < batch.numRows, ∀ rowNumber,
        (batchRow ext batch.columns accs rowNumber r).cells.filterMap WireCell.bool?
          = p.bools.flatMap (FixedCol.cellsAt r) := by
  refine h.fixed_block h.bools_eq rfl ?_ ?_
  · intro nulls acc hfile r
    cases acc <;> first | rfl | cases hfile
  · intro nulls acc col hwf hfile
    cases acc <;> cases hfile
    exact ⟨rfl, hwf, fun r hr => getD_eq_getElem? hwf hr false⟩

end Made

/-! ### NULL bits -/

theorem setNulls_eq (base nCols c : Nat) (bits : List Bool) (nulls : List Bool) :
    setNulls base nCols c bits nulls
      = RowMajor.setAll (bits.zipIdx.flatMap fun q =>
          if q.1 then [] else [base + q.2 * nCols + c]) true nulls := by
  rw [setNulls]
  induction bits.zipIdx generalizing nulls with
  | nil => rfl
  | cons q qs ih =>
    rw [List.foldl_cons, ih, List.flatMap_cons, RowMajor.setAll_append]
    cases q.1 <;> rfl

/-- The positions of the NULLs of rows `start..stop`, column by column. -/
def nullPositions (p : BatchPacker) (base start stop : Nat) : List Nat :=
  p.nulls.zipIdx.flatMap fun q =>
    (q.1.elim [] fun bits => (sliceRows bits start stop).zipIdx).flatMap fun b =>
      if b.1 then [] else [base + b.2 * p.accessors.length + q.2]

theorem packNulls_eq_setAll (p : BatchPacker) (start stop : Nat) (out : EmitTable) :
    p.packNulls start stop out =
      { out with
        nulls := RowMajor.setAll (p.nullPositions out.nulls.length start stop) true
          (out.nulls ++ List.replicate ((stop - start) * p.accessors.length) false) } := by
  rw [packNulls, nullPositions]
  congr 1
  generalize out.nulls ++ List.replicate ((stop - start) * p.accessors.length) false = cleared
  induction p.nulls.zipIdx generalizing cleared with
  | nil => rfl
  | cons q qs ih =>
    rw [List.foldl_cons, ih, List.flatMap_cons, RowMajor.setAll_append]
    cases q.1 with
    | none => rfl
    | some bits => exact congrArg _ (setNulls_eq _ _ _ _ _)

theorem mem_nullPositions {p : BatchPacker} {base start stop k : Nat} :
    k ∈ p.nullPositions base start stop ↔
      ∃ c bits i, p.nulls[c]? = some (some bits) ∧ (sliceRows bits start stop)[i]? = some false ∧
        k = base + i * p.accessors.length + c := by
  simp only [nullPositions, List.mem_flatMap, Prod.exists, List.mem_zipIdx_iff_getElem?]
  constructor
  · rintro ⟨nulls, c, hnulls, bit, i, hbit, hk⟩
    obtain - | bits := nulls
    · cases hbit
    · obtain - | - := bit
      · exact ⟨c, bits, i, hnulls, List.mem_zipIdx_iff_getElem?.mp hbit, List.mem_singleton.mp hk⟩
      · cases hk
  · rintro ⟨c, bits, i, hnulls, hbit, rfl⟩
    exact ⟨some bits, c, hnulls, false, i, List.mem_zipIdx_iff_getElem?.mpr hbit,
      List.mem_singleton.mpr rfl⟩

theorem getElem?_sliceRows {α : Type} (xs : List α) {start stop i : Nat} (hi : i < stop - start) :
    (sliceRows xs start stop)[i]? = xs[start + i]? := by
  rw [sliceRows, List.getElem?_take_of_lt hi, List.getElem?_drop]

theorem nullAt_eq_true {nulls : Option (List Bool)} {r : Nat} :
    nullAt nulls r = true ↔ ∃ bits, nulls = some bits ∧ bits[r]? = some false := by
  cases nulls with
  | none => simp [nullAt]
  | some bits =>
    rw [nullAt, Option.any_some, isNullAt, List.getD_eq_getElem?_getD]
    cases hbit : bits[r]? with
    | none => simp [hbit]
    | some bit => cases bit <;> simp [hbit]

theorem isNull_cell (ext : Extern) (acc : ColAccessor) (r : Nat) :
    (acc.cell ext r).isNull = false := by
  cases acc <;> rfl

theorem isNull_cellAt (ext : Extern) (p : BatchPacker) (r : Nat) (q : ColAccessor × Nat) :
    (p.cellAt ext r q).isNull = nullAt (p.nulls.getD q.2 none) r := by
  rw [cellAt]
  split_ifs with hnull
  · rw [hnull]; rfl
  · rw [isNull_cell]
    exact (Bool.not_eq_true _ ▸ hnull).symm

/-- **The NULL bits** of the rows are set, row by row. -/
theorem Made.packNulls_eq {ext : Extern} {batch : RecordBatch} {cols : List ColumnInfo}
    {accs : List ColAccessor} {p : BatchPacker} (h : Made ext batch cols accs p)
    (start stop : Nat) (out : EmitTable) :
    p.packNulls start stop out =
      { out with
        nulls := out.nulls ++ (List.range' start (stop - start)).flatMap fun r =>
          accs.zipIdx.map fun q => (p.cellAt ext r q).isNull } := by
  have hlen : p.nulls.length = accs.length := by
    rw [h.nulls_eq, List.length_map, h.matched.length_accessors]
  rw [packNulls_eq_setAll]
  congr 1
  have hlength : ∀ r ∈ List.range' start (stop - start),
      (accs.zipIdx.map fun q => (p.cellAt ext r q).isNull).length = accs.length := by simp
  -- Setting bits in a matrix of clear bits, whatever the order in which they are set.
  have hmatrix := RowMajor.setAll_eq_flatMap hlength out.nulls
    (p.nullPositions out.nulls.length start stop) ?_ ?_
  · rw [List.length_range'] at hmatrix
    rw [h.accessors_eq, hmatrix]
  · intro k hk
    obtain ⟨c, bits, i, -, -, rfl⟩ := mem_nullPositions.mp hk
    omega
  · intro i c r hc hr
    obtain ⟨hi, rfl⟩ := List.getElem?_eq_some_iff.mp hr
    rw [List.length_range'] at hi
    rw [List.getElem_range', Nat.one_mul, mem_nullPositions, List.getElem?_map,
      List.getElem?_zipIdx, List.getElem?_eq_getElem hc, Option.map_some, Option.map_some,
      isNull_cellAt, Nat.zero_add, Option.some_inj, nullAt_eq_true, h.accessors_eq]
    constructor
    · rintro ⟨c', bits, i', hnulls, hbit, hk⟩
      have hc' : c' < accs.length := by
        rw [← hlen]
        exact (List.getElem?_eq_some_iff.mp hnulls).1
      -- An index of the matrix says which row and column it is.
      have hindex : i * accs.length + c = i' * accs.length + c' := by omega
      obtain ⟨rfl, rfl⟩ := RowMajor.index_inj hc hc' hindex
      rw [getElem?_sliceRows _ hi] at hbit
      exact ⟨bits, by rw [List.getD_eq_getElem?_getD, hnulls, Option.getD_some], hbit⟩
    · rintro ⟨bits, hnulls, hbit⟩
      rw [List.getD_eq_getElem?_getD, List.getElem?_eq_getElem (by omega), Option.getD_some]
        at hnulls
      refine ⟨c, bits, i, ?_, ?_, (Nat.add_assoc _ _ _).symm⟩
      · rw [List.getElem?_eq_getElem (by omega), hnulls]
      · rw [getElem?_sliceRows _ hi, hbit]

/-! ### String cells -/

section

variable {ext : Extern} (hext : ext.Documented)

include hext

/-- Where the packer writes a date itself, it is the text of the row path's value. -/
theorem writeDate32_slow {years : YearCache} (hyears : years.WF) (arr : List Int32) (r : Nat)
    (buf : List UInt8) :
    (writeDate32 buf (arr.getD r 0) years).1.getD
        (buf ++ blockText ext (accessorValue ext (.date32 arr) r))
      = buf ++ blockText ext (accessorValue ext (.date32 arr) r) := by
  rcases writeDate32_spec hyears buf (arr.getD r 0) with hnone | ⟨d, hrange, hnumber, hsome⟩
  · rw [hnone, Option.getD_none]
  · -- In the common years the day number does not wrap.
    have hbounds := numDaysFromCe_bounds hrange
    have hsum : (arr.getD r 0 + arrowEpochCeDay).toInt = d.numDaysFromCe := by
      rw [Int32.toInt_add, show arrowEpochCeDay.toInt = 719163 from rfl, hnumber]
      exact Int.bmod_eq_of_le (by omega) (by omega)
    have hvalue : accessorValue ext (.date32 arr) r = .date d := by
      rw [accessorValue, hsum, hext.fromNumDaysFromCeOpt d hrange, Option.getD_some]
    rw [hsome, Option.getD_some, hvalue, blockText, writeBlockValue, writeFastDate_common hrange,
      Option.getD_some]

/-- Each timestamp accessor hands the date library the parts that the packer computes. -/
theorem accessorValue_timestamp {acc : ColAccessor} {unit : TimeUnit} {values : List Int64}
    (h : stringKind? acc = some (.timestamp unit values)) (r : Nat) :
    accessorValue ext acc r
      = .timestamp ((ext.fromTimestamp (timestampParts unit (values.getD r 0)).1
          (timestampParts unit (values.getD r 0)).2).getD .epoch) := by
  cases acc <;> cases h
  · rfl
  · rw [accessorValue, hext.fromTimestampMillis]; rfl
  · rw [accessorValue, hext.fromTimestampMicros]; rfl
  · rfl

omit hext in
theorem timestampParts_nanos_lt (unit : TimeUnit) (v : Int64) :
    (timestampParts unit v).2 < 1000000000 := by
  cases unit <;> simp only [timestampParts] <;> omega

/-- Where the packer writes a timestamp itself, it is the text of the row path's value. -/
theorem writeTimestamp_slow {years : YearCache} (hyears : years.WF) {acc : ColAccessor}
    {unit : TimeUnit} {values : List Int64} (h : stringKind? acc = some (.timestamp unit values))
    (r : Nat) (buf : List UInt8) :
    (writeTimestamp buf (timestampParts unit (values.getD r 0)).1
        (timestampParts unit (values.getD r 0)).2 years).1.getD
          (buf ++ blockText ext (accessorValue ext acc r))
      = buf ++ blockText ext (accessorValue ext acc r) := by
  have hnanos := timestampParts_nanos_lt unit (values.getD r 0)
  rw [accessorValue_timestamp hext h]
  rcases writeTimestamp_spec hyears buf _ hnanos with hnone | ⟨ts, hrange, hsecs, hns, hsome⟩
  · rw [hnone, Option.getD_none]
  · rw [hsome, Option.getD_some, ← hsecs, ← hns, hext.fromTimestamp ts hrange, Option.getD_some,
      blockText, writeBlockValue, writeFastTimestamp_common hrange, Option.getD_some]

end

/-- The string cells that a column has in row `r`: one, or none for NULL. -/
def stringCellsAt (ext : Extern) (p : BatchPacker) (r : Nat) (sc : StringCol) :
    List (List UInt8) :=
  if nullAt sc.nulls r then []
  else [blockText ext (accessorValue ext (p.accessors.getD sc.col .unsupported) r)]

/-- The column is filed under the kind of its accessor, which holds `n` rows. -/
structure StringWF (p : BatchPacker) (n : Nat) (sc : StringCol) : Prop where
  wf : (p.accessors.getD sc.col .unsupported).WF n
  kind : stringKind? (p.accessors.getD sc.col .unsupported) = some sc.kind

theorem slowCell_eq (ext : Extern) (p : BatchPacker) (buf : List UInt8) (c r : Nat) :
    p.slowCell ext buf c r
      = buf ++ blockText ext (accessorValue ext (p.accessors.getD c .unsupported) r) :=
  writeBlockValue_eq ext buf _

theorem pushString_stringAt (ext : Extern) {n : Nat} {offsets : List Nat} {data : List UInt8}
    (h : OffsetsWF n offsets data) {r : Nat} (hr : r < n) (out : EmitTable) :
    out.pushString (stringAt offsets data r) =
      { out with strings := out.strings ++ cellBlock [blockText ext
          (.string ((Utf8.text? (stringAt offsets data r)).getD ""))] } := by
  have htext : blockText ext (.string ((Utf8.text? (stringAt offsets data r)).getD ""))
      = stringAt offsets data r := bytes_stringAt h hr
  rw [EmitTable.pushString_eq, htext]

/-- **A string cell** has the text of the row path, and the year cache stays sound. -/
theorem packString_eq {ext : Extern} (hext : ext.Documented) {p : BatchPacker} {n r : Nat}
    (hr : r < n) {sc : StringCol} (h : p.StringWF n sc) (out : EmitTable) {years : YearCache}
    (hyears : years.WF) :
    (p.packString ext r sc (out, years)).1
        = { out with strings := out.strings ++ cellBlock (p.stringCellsAt ext r sc) } ∧
      (p.packString ext r sc (out, years)).2.WF := by
  obtain ⟨hwf, hkind⟩ := h
  have hslow := fun buf => p.slowCell_eq ext buf sc.col r
  unfold packString stringCellsAt nullAt
  split_ifs with hnull
  · exact ⟨by rw [cellBlock_nil, List.append_nil], hyears⟩
  -- From here on only the accessor of the column matters.
  generalize p.accessors.getD sc.col .unsupported = acc at hwf hkind hslow
  cases hcase : sc.kind with
  | utf8 offsets data | largeUtf8 offsets data =>
    rw [hcase] at hkind
    cases acc <;> cases hkind
    exact ⟨pushString_stringAt ext hwf hr out, hyears⟩
  | date32 values =>
    rw [hcase] at hkind
    cases acc <;> cases hkind
    have hwrite : ∀ buf, (writeDate32 buf (values.getD r 0) years).1.getD
        (p.slowCell ext buf sc.col r)
          = buf ++ blockText ext (accessorValue ext (.date32 values) r) := fun buf => by
      rw [hslow buf]
      exact writeDate32_slow hext hyears values r buf
    exact ⟨EmitTable.pushStringWith_eq out hwrite, writeDate32_wf hyears [] _⟩
  | timestamp unit values =>
    rw [hcase] at hkind
    have hwrite : ∀ buf, (writeTimestamp buf (timestampParts unit (values.getD r 0)).1
        (timestampParts unit (values.getD r 0)).2 years).1.getD (p.slowCell ext buf sc.col r)
          = buf ++ blockText ext (accessorValue ext acc r) := fun buf => by
      rw [hslow buf]
      exact writeTimestamp_slow hext hyears hkind r buf
    exact ⟨EmitTable.pushStringWith_eq out hwrite,
      writeTimestamp_wf hyears [] _ (timestampParts unit (values.getD r 0)).2⟩
  | decimal values scale =>
    rw [hcase] at hkind
    cases acc <;> cases hkind
    exact ⟨EmitTable.pushStringWith_eq out fun buf => writeDecimal_eq buf _, hyears⟩
  | widened => exact ⟨EmitTable.pushStringWith_eq out hslow, hyears⟩

/-- The string cells of one row. -/
theorem foldl_packString {ext : Extern} (hext : ext.Documented) {p : BatchPacker} {n r : Nat}
    (hr : r < n) {scs : List StringCol} (h : ∀ sc ∈ scs, p.StringWF n sc) (out : EmitTable)
    {years : YearCache} (hyears : years.WF) :
    (scs.foldl (fun st sc => p.packString ext r sc st) (out, years)).1
        = { out with strings := out.strings ++ cellBlock (scs.flatMap (p.stringCellsAt ext r)) } ∧
      (scs.foldl (fun st sc => p.packString ext r sc st) (out, years)).2.WF := by
  -- The cache is carried from cell to cell and stays sound.
  induction scs generalizing out years with
  | nil => exact ⟨by simp, hyears⟩
  | cons sc scs ih =>
    obtain ⟨hcell, hnext⟩ := packString_eq hext hr (h sc List.mem_cons_self) out hyears
    obtain ⟨hcells, hlast⟩ := ih (fun s hs => h s (List.mem_cons_of_mem sc hs))
      (p.packString ext r sc (out, years)).1 hnext
    rw [List.foldl_cons]
    refine ⟨hcells.trans ?_, hlast⟩
    rw [hcell, List.flatMap_cons, cellBlock_append, List.append_assoc]

/-- The string cells of a range of rows. -/
theorem foldl_packStrings {ext : Extern} (hext : ext.Documented) {p : BatchPacker} {n : Nat}
    (h : ∀ sc ∈ p.strings, p.StringWF n sc) {rows : List Nat} (hrows : ∀ r ∈ rows, r < n)
    (out : EmitTable) {years : YearCache} (hyears : years.WF) :
    (rows.foldl (fun st r => p.strings.foldl (fun st sc => p.packString ext r sc st) st)
        (out, years)).1
      = { out with strings := out.strings ++ cellBlock (rows.flatMap fun r =>
            p.strings.flatMap (p.stringCellsAt ext r)) } := by
  induction rows generalizing out years with
  | nil => simp
  | cons r rows ih =>
    obtain ⟨hrow, hnext⟩ := foldl_packString hext (hrows r List.mem_cons_self) h out hyears
    have hrest := ih (fun s hs => hrows s (List.mem_cons_of_mem r hs))
      (p.strings.foldl (fun st sc => p.packString ext r sc st) (out, years)).1 hnext
    rw [List.foldl_cons]
    refine hrest.trans ?_
    rw [hrow, List.flatMap_cons, cellBlock_append, List.append_assoc]

theorem packStrings_eq {ext : Extern} (hext : ext.Documented) {p : BatchPacker} {n : Nat}
    (h : ∀ sc ∈ p.strings, p.StringWF n sc) {start stop : Nat} (hstop : stop ≤ n)
    (out : EmitTable) :
    p.packStrings ext start stop out =
      { out with
        strings := out.strings ++ cellBlock ((List.range' start (stop - start)).flatMap fun r =>
          p.strings.flatMap (p.stringCellsAt ext r)) } := by
  unfold packStrings
  split_ifs with hnone
  · have hcells : ((List.range' start (stop - start)).flatMap fun r =>
        p.strings.flatMap (p.stringCellsAt ext r)) = [] :=
      List.flatMap_eq_nil_iff.mpr fun r _ => by rw [hnone]; rfl
    rw [hcells, cellBlock_nil, List.append_nil]
  · refine foldl_packStrings hext h (fun r hr => ?_) out YearCache.default_wf
    obtain ⟨hlo, hhi⟩ := List.mem_range'_1.mp hr
    omega

namespace Made

variable {ext : Extern} {batch : RecordBatch} {cols : List ColumnInfo} {accs : List ColAccessor}
  {p : BatchPacker}

theorem getD_accessors (h : Made ext batch cols accs p) {q : ColAccessor × Nat}
    (hq : q ∈ accs.zipIdx) : p.accessors.getD q.2 .unsupported = q.1 := by
  rw [h.accessors_eq, List.getD_eq_getElem?_getD, List.mem_zipIdx_iff_getElem?.mp hq,
    Option.getD_some]

theorem string_block (h : Made ext batch cols accs p) :
    (∀ sc ∈ p.strings, p.StringWF batch.numRows sc) ∧
      ∀ r < batch.numRows, ∀ rowNumber,
        (batchRow ext batch.columns accs rowNumber r).cells.filterMap WireCell.string?
          = p.strings.flatMap (p.stringCellsAt ext r) := by
  constructor
  · intro sc hsc
    rw [h.strings_eq, List.mem_flatMap] at hsc
    obtain ⟨q, hq, hsc⟩ := hsc
    obtain ⟨kind, hkind, rfl⟩ := Option.map_eq_some_iff.mp (Option.mem_toList.mp hsc)
    have hacc := h.getD_accessors hq
    exact ⟨hacc.symm ▸ h.mem_zipIdx_wf hq, hacc.symm ▸ hkind⟩
  · intro r hr rowNumber
    rw [h.strings_eq, List.flatMap_assoc]
    refine h.filterMap_cells hr (fun q hq => ?_) rowNumber
    have hacc := h.getD_accessors hq
    rw [cellAt, stringCol?]
    cases hkind : stringKind? q.1 with
    | none =>
      -- An accessor without a text feeds no string column.
      have hcell : (q.1.cell ext r).string? = none := by
        revert hkind
        cases q.1 <;> intro hkind <;> first | rfl | cases hkind
      split_ifs
      · rfl
      · rw [hcell]; rfl
    | some kind =>
      have hcell : (q.1.cell ext r).string? = some (blockText ext (accessorValue ext q.1 r)) := by
        revert hkind
        cases q.1 <;> intro hkind <;> first | rfl | cases hkind
      rw [Option.map_some, Option.toList_some, List.flatMap_singleton, stringCellsAt, hacc]
      split_ifs
      · rfl
      · rw [hcell]; rfl

/-- **Packing a range of a batch appends its rows.** -/
theorem pack_eq (hext : ext.Documented) (h : Made ext batch cols accs p) {start stop : Nat}
    (hstop : stop ≤ batch.numRows) (rowNumber : UInt64) (out : EmitTable) :
    p.pack ext start stop rowNumber out
      = out.append ((List.range' start (stop - start)).map
          (batchRow ext batch.columns accs rowNumber)) := by
  unfold pack
  by_cases hn : stop - start = 0
  · rw [if_pos hn, hn]
    exact (EmitTable.append_nil out).symm
  · have hrow : ∀ r ∈ List.range' start (stop - start), r < batch.numRows := by
      intro r hr
      obtain ⟨hlo, hhi⟩ := List.mem_range'_1.mp hr
      omega
    -- A block gets the cells of the rows, if it does so in each row.
    have hblock : ∀ {α : Type} {pick : WireCell → Option α} {cells : Nat → List α},
        (∀ r < batch.numRows, ∀ rowNumber,
          (batchRow ext batch.columns accs rowNumber r).cells.filterMap pick = cells r) →
        (((List.range' start (stop - start)).map
            (batchRow ext batch.columns accs rowNumber)).flatMap WireRow.cells).filterMap pick
          = (List.range' start (stop - start)).flatMap cells := by
      intro α pick cells hcells
      rw [List.flatMap_map, List.filterMap_flatMap]
      exact List.flatMap_congr fun r hr => hcells r (hrow r hr) rowNumber
    have hnulls : (((List.range' start (stop - start)).map
          (batchRow ext batch.columns accs rowNumber)).flatMap WireRow.cells).map WireCell.isNull
        = (List.range' start (stop - start)).flatMap fun r =>
            accs.zipIdx.map fun q => (p.cellAt ext r q).isNull := by
      rw [List.flatMap_map, List.map_flatMap]
      refine List.flatMap_congr fun r hr => ?_
      rw [h.cells_eq rowNumber (hrow r hr), List.map_map]
      rfl
    have hnumbers : ((List.range' start (stop - start)).map
        (batchRow ext batch.columns accs rowNumber)).map WireRow.rowNumber
          = List.replicate (stop - start) rowNumber := by
      rw [List.map_map, show WireRow.rowNumber ∘ batchRow ext batch.columns accs rowNumber
        = Function.const Nat rowNumber from rfl, List.map_const, List.length_range']
    obtain ⟨hwf32, hcells32⟩ := h.int32_block
    obtain ⟨hwf64, hcells64⟩ := h.int64_block
    obtain ⟨hwfDouble, hcellsDouble⟩ := h.doubles_block
    obtain ⟨hwfBool, hcellsBool⟩ := h.bools_block
    obtain ⟨hwfString, hcellsString⟩ := h.string_block
    rw [if_neg hn]
    simp only [h.packNulls_eq, packFixed_eq hwf32 hstop, packFixed_eq hwf64 hstop,
      packFixed_eq hwfDouble hstop, packFixed_eq hwfBool hstop, packStrings_eq hext hwfString hstop]
    unfold EmitTable.append EmitTable.appendCells
    rw [hnulls, hblock hcells32, hblock hcells64, hblock hcellsDouble, hblock hcellsBool,
      hblock hcellsString, hnumbers, List.length_map, List.length_range']

end Made

end BatchPacker

/-! ### Pushing a batch -/

namespace EmitBuffer

/-- The row path over the rows of a batch: push a row, flush at the threshold, stop where a flush
fails. -/
def pushRows {σ : Type} (ext : Extern) (cols : List ColumnInfo) (rowNumber : UInt64)
    (flusher : EmitTable → σ → Except UdfError Unit × σ) :
    List (List Value) → EmitBuffer → σ → Except UdfError Unit × EmitBuffer × σ
  | [], buf, s => (.ok (), buf, s)
  | values :: rows, buf, s =>
    let buf := buf.push ext values rowNumber cols
    if buf.shouldFlush then
      match buf.flush flusher s with
      | (.error e, buf, s) => (.error e, buf, s)
      | (.ok (), buf, s) => pushRows ext cols rowNumber flusher rows buf s
    else pushRows ext cols rowNumber flusher rows buf s

section

variable {σ : Type} {ext : Extern} {batch : RecordBatch} {cols : List ColumnInfo}
  {accs : List ColAccessor} {p : BatchPacker} (rowNumber : UInt64)
  (flusher : EmitTable → σ → Except UdfError Unit × σ)

/-- The batch can be charged and packed like its rows. -/
structure RowLike (batch : RecordBatch) (cols : List ColumnInfo) : Prop where
  supported : ∀ col ∈ cols, col.typ ≠ .unsupported
  scales : ∀ a ∈ batch.columns, a.ScaleNonneg

theorem push_batchValues (h : BatchPacker.Made ext batch cols accs p) (hrow : RowLike batch cols)
    {r : Nat} (hr : r < batch.numRows) (buf : EmitBuffer) :
    buf.push ext (batchValues ext batch.columns accs r) rowNumber cols
      = { buf.account 1 ((batch.columns.map (cellCost · r)).sum + bytesRowNumber) with
          table := buf.table.append [batchRow ext batch.columns accs rowNumber r] } := by
  have hcost := sum_batchValues ext h.matched batch.wf hrow.scales hrow.supported hr
  have htable := pushCosted_table ext buf (batchValues ext batch.columns accs r) rowNumber cols
    (bytesRowNumber + (batch.columns.map (cellCost · r)).sum)
  rw [wireRow_batchValues ext h.matched hrow.supported] at htable
  unfold push
  rw [hcost, ← htable, Nat.add_comm]
  rfl

/-- Rows that stay below the threshold are pushed without a flush. -/
theorem pushRows_of_lt (h : BatchPacker.Made ext batch cols accs p) (hrow : RowLike batch cols)
    {rows : List Nat} (hrows : ∀ r ∈ rows, r < batch.numRows) {buf : EmitBuffer} {s : σ}
    (hlt : buf.byteEstimate
      + (rows.map fun r => (batch.columns.map (cellCost · r)).sum + bytesRowNumber).sum
        < emitBufferLimitBytes) :
    ∃ buf', pushRows ext cols rowNumber flusher (rows.map (batchValues ext batch.columns accs))
        buf s = (.ok (), buf', s) ∧
      buf'.table = buf.table.append (rows.map (batchRow ext batch.columns accs rowNumber)) := by
  -- After each row there is less left to add, so the estimate stays below the threshold.
  induction rows generalizing buf with
  | nil => exact ⟨buf, rfl, (EmitTable.append_nil _).symm⟩
  | cons r rows ih =>
    have hpush := push_batchValues rowNumber h hrow (hrows r List.mem_cons_self) buf
    rw [List.map_cons, List.sum_cons] at hlt
    have hbelow : (buf.push ext (batchValues ext batch.columns accs r) rowNumber cols).shouldFlush
        = false := by
      rw [hpush]
      exact decide_eq_false (by simp only [account]; omega)
    have hrest : (buf.push ext (batchValues ext batch.columns accs r) rowNumber cols).byteEstimate
        + (rows.map fun r => (batch.columns.map (cellCost · r)).sum + bytesRowNumber).sum
          < emitBufferLimitBytes := by
      rw [hpush]
      simp only [account]
      omega
    obtain ⟨buf', hrun, htable⟩ := ih (fun i hi => hrows i (List.mem_cons_of_mem r hi)) hrest
    refine ⟨buf', ?_, ?_⟩
    · rw [List.map_cons, pushRows, hbelow, if_neg Bool.false_ne_true, hrun]
    · rw [htable, hpush, EmitTable.append_append]
      rfl

/-- The loop packs late what the row path pushes at once; at every flush the buffers are equal. -/
theorem pushBatchLoop_eq (hext : ext.Documented) (h : BatchPacker.Made ext batch cols accs p)
    (hrow : RowLike batch cols) {start r n : Nat} (hstart : start ≤ r)
    (hn : r + n = batch.numRows) (buf : EmitBuffer) (s : σ) :
    (match pushBatchLoop ext p rowNumber flusher
        ((List.range' r n).map fun r => (batch.columns.map (cellCost · r)).sum) r start buf s with
      | (.error e, buf, s) => (.error e, buf, s)
      | (.ok start, buf, s) =>
        (.ok (), { buf with table := p.pack ext start batch.numRows rowNumber buf.table }, s))
      = pushRows ext cols rowNumber flusher
          ((List.range' r n).map (batchValues ext batch.columns accs))
          { buf with table := buf.table.append ((List.range' start (r - start)).map
              (batchRow ext batch.columns accs rowNumber)) } s := by
  -- Over the rows that are left; those from `start` to `r` are charged and wait to be packed.
  induction n generalizing start r buf s with
  | zero =>
    rw [show r = batch.numRows from hn] at hstart ⊢
    simp only [List.range'_zero, List.map_nil, pushBatchLoop, pushRows,
      h.pack_eq hext (Nat.le_refl _)]
  | succ n ih =>
    have hr : r < batch.numRows := by omega
    -- The rows up to `r` are those before `r` and row `r`.
    have hrows : (List.range' start (r + 1 - start)).map (batchRow ext batch.columns accs rowNumber)
        = (List.range' start (r - start)).map (batchRow ext batch.columns accs rowNumber)
          ++ [batchRow ext batch.columns accs rowNumber r] := by
      rw [show r + 1 - start = (r - start) + 1 by omega, List.range'_concat, List.map_append,
        Nat.one_mul, show start + (r - start) = r by omega]
      rfl
    have hpush : push ext
        { buf with
          table := buf.table.append ((List.range' start (r - start)).map
            (batchRow ext batch.columns accs rowNumber)) }
        (batchValues ext batch.columns accs r) rowNumber cols =
          { buf.account 1 ((batch.columns.map (cellCost · r)).sum + bytesRowNumber) with
            table := buf.table.append ((List.range' start (r + 1 - start)).map
              (batchRow ext batch.columns accs rowNumber)) } := by
      rw [push_batchValues rowNumber h hrow hr, EmitTable.append_append, ← hrows]
      rfl
    rw [List.range'_succ, List.map_cons, List.map_cons, pushBatchLoop, pushRows, hpush]
    have htable : buf.table
        = (buf.account 1 ((batch.columns.map (cellCost · r)).sum + bytesRowNumber)).table := rfl
    rw [htable]
    generalize buf.account 1 ((batch.columns.map (cellCost · r)).sum + bytesRowNumber) = buf
    dsimp only
    rw [h.pack_eq hext (show r + 1 ≤ batch.numRows from hr)]
    generalize hnext : (EmitBuffer.mk (buf.table.append ((List.range' start (r + 1 - start)).map
      (batchRow ext batch.columns accs rowNumber))) buf.byteEstimate buf.cumulativeBytes
        buf.cumulativeRows buf.flushCount) = next
    have hflag : buf.shouldFlush = next.shouldFlush := by rw [← hnext]; rfl
    rw [hflag]
    cases next.shouldFlush with
    | true =>
      rw [if_pos rfl, if_pos rfl]
      -- Both paths hand over the same buffer and go on with an empty one.
      rcases hsend : next.flush flusher s with ⟨result, buf', s'⟩
      cases result with
      | error e => rfl
      | ok =>
        have hempty : buf'.table = .default := by
          rw [← show (next.flush flusher s).2.1 = buf' by rw [hsend]]
          rfl
        have hrest := ih (Nat.le_refl (r + 1)) (by omega) buf' s'
        rw [Nat.sub_self, List.range'_zero, List.map_nil, EmitTable.append_nil] at hrest
        exact hrest
    | false =>
      rw [if_neg Bool.false_ne_true, if_neg Bool.false_ne_true, ← hnext]
      exact ih (by omega) (by omega) buf s

/-- A batch that stays below the threshold is packed in one go, with the same rows. -/
theorem pushRows_of_batchByteCost_lt (h : BatchPacker.Made ext batch cols accs p)
    (hrow : RowLike batch cols) {buf : EmitBuffer} (s : σ)
    (hlt : buf.byteEstimate + (p.byteCost + batch.numRows * bytesRowNumber)
      < emitBufferLimitBytes) :
    ∃ buf', pushRows ext cols rowNumber flusher
        ((List.range batch.numRows).map (batchValues ext batch.columns accs)) buf s
          = (.ok (), buf', s) ∧
      buf'.table = buf.table.append
        ((List.range batch.numRows).map (batchRow ext batch.columns accs rowNumber)) := by
  refine pushRows_of_lt rowNumber flusher h hrow (fun r hr => List.mem_range.mp hr) ?_
  have hcost := sum_le_batchByteCost h.matched.length_columns
  have hnumbers : ((List.range batch.numRows).map fun _ => bytesRowNumber).sum
      = batch.numRows * bytesRowNumber := by
    rw [List.map_const', List.sum_replicate_nat, List.length_range]
  rw [List.sum_map_add, hnumbers]
  rw [BatchPacker.byteCost, h.batch_eq, h.cols_eq] at hlt
  omega

/-- **The columnar path is the row path**, whatever the flusher answers. -/
theorem pushBatch_eq_pushRows (hext : ext.Documented) (hrow : RowLike batch cols)
    (hacc : buildAccessors ext batch cols = .ok accs) (buf : EmitBuffer) (s : σ) :
    ∃ buf', pushRows ext cols rowNumber flusher
        ((List.range batch.numRows).map (batchValues ext batch.columns accs)) buf s
          = ((buf.pushBatch ext batch cols rowNumber flusher s).1, buf',
            (buf.pushBatch ext batch cols rowNumber flusher s).2.2) ∧
      buf'.table = (buf.pushBatch ext batch cols rowNumber flusher s).2.1.table := by
  unfold pushBatch
  by_cases hempty : batch.numRows = 0
  · rw [if_pos hempty, hempty]
    exact ⟨buf, rfl, rfl⟩
  rw [if_neg hempty]
  cases hnew : BatchPacker.new ext batch cols with
  | error e =>
    rw [BatchPacker.new, hacc] at hnew
    cases hnew
  | ok p =>
    obtain ⟨accs', hacc', h⟩ := BatchPacker.new_eq_ok hnew
    obtain rfl : accs = accs' := Except.ok.inj (hacc.symm.trans hacc')
    dsimp only
    -- The two ways of the source: in one piece, or row by row.
    by_cases hlt : buf.byteEstimate + (p.byteCost + batch.numRows * bytesRowNumber)
        < emitBufferLimitBytes
    · rw [if_pos hlt]
      obtain ⟨buf', hrun, htable⟩ := pushRows_of_batchByteCost_lt rowNumber flusher h hrow s hlt
      refine ⟨buf', hrun, ?_⟩
      rw [htable, h.pack_eq hext (Nat.le_refl _), List.range_eq_range', Nat.sub_zero]
      rfl
    · rw [if_neg hlt]
      have hcosts : p.rowCosts = (List.range' 0 batch.numRows).map fun r =>
          (batch.columns.map (cellCost · r)).sum := by
        rw [BatchPacker.rowCosts, h.batch_eq, h.cols_eq,
          computeRowCosts_eq h.matched.length_columns, List.range_eq_range']
      have hloop := pushBatchLoop_eq rowNumber flusher hext h hrow (Nat.le_refl 0)
        (Nat.zero_add batch.numRows) buf s
      rw [Nat.sub_zero, List.range'_zero, List.map_nil, EmitTable.append_nil] at hloop
      rw [hcosts, List.range_eq_range', ← hloop]
      exact ⟨_, rfl, rfl⟩

end

/-- The row path reports no error of its own. -/
theorem pushRows_ok {σ : Type} (ext : Extern) (cols : List ColumnInfo) (rowNumber : UInt64)
    {flusher : EmitTable → σ → Except UdfError Unit × σ}
    (hflusher : ∀ t s, (flusher t s).1 = .ok ()) (rows : List (List Value)) (buf : EmitBuffer)
    (s : σ) : (pushRows ext cols rowNumber flusher rows buf s).1 = .ok () := by
  induction rows generalizing buf s with
  | nil => rfl
  | cons values rows ih =>
    unfold pushRows flush
    have hsend := hflusher (buf.push ext values rowNumber cols).table s
    dsimp only
    split_ifs
    · rw [hsend]
      exact ih _ _
    · exact ih _ _

/-- **Columnar pushes.**  A batch that the accessors accept is pushed as its rows one at a time
would be, with a flush after each row that reaches the threshold: the flusher goes through the same
states, so it was handed the same tables in the same order, and the same rows stay buffered.  A
batch that they reject changes nothing. -/
theorem pushBatch_spec {σ : Type} {ext : Extern} (hext : ext.Documented) {cols : List ColumnInfo}
    (hcols : ∀ col ∈ cols, col.typ ≠ .unsupported) (batch : RecordBatch)
    (hscale : ∀ a ∈ batch.columns, a.ScaleNonneg) (buf : EmitBuffer) (rowNumber : UInt64)
    {flusher : EmitTable → σ → Except UdfError Unit × σ}
    (hflusher : ∀ t s, (flusher t s).1 = .ok ()) (s : σ) :
    match buildAccessors ext batch cols with
    | .ok accs =>
      let rows := (List.range batch.numRows).map (batchValues ext batch.columns accs)
      (buf.pushBatch ext batch cols rowNumber flusher s).1 = .ok () ∧
        (buf.pushBatch ext batch cols rowNumber flusher s).2.2
          = (pushRows ext cols rowNumber flusher rows buf s).2.2 ∧
        (buf.pushBatch ext batch cols rowNumber flusher s).2.1.table
          = (pushRows ext cols rowNumber flusher rows buf s).2.1.table
    | .error e =>
      (buf.pushBatch ext batch cols rowNumber flusher s).2 = (buf, s) ∧
        (0 < batch.numRows → (buf.pushBatch ext batch cols rowNumber flusher s).1 = .error e) := by
  cases hacc : buildAccessors ext batch cols with
  | ok accs =>
    obtain ⟨buf', hrun, htable⟩ := pushBatch_eq_pushRows rowNumber flusher hext
      ⟨hcols, hscale⟩ hacc buf s
    have hok := pushRows_ok ext cols rowNumber hflusher
      ((List.range batch.numRows).map (batchValues ext batch.columns accs)) buf s
    rw [hrun] at hok
    dsimp only
    rw [hrun]
    exact ⟨hok, rfl, htable.symm⟩
  | error e =>
    have hnew : BatchPacker.new ext batch cols = .error e := by rw [BatchPacker.new, hacc]; rfl
    unfold pushBatch
    -- A batch without rows is passed over before its columns are looked at.
    by_cases hempty : batch.numRows = 0
    · rw [if_pos hempty]
      exact ⟨rfl, fun hpos => absurd hempty (Nat.ne_of_gt hpos)⟩
    · rw [if_neg hempty, hnew]
      exact ⟨rfl, fun _ => rfl⟩

/-- Two rows, one of them with a NULL. -/
theorem pushBatch_spec_sample :
    let batch : RecordBatch :=
      { numRows := 2
        columns := [⟨.int32 [7, 8], some [true, false]⟩, ⟨.date32 [0, 19000], none⟩]
        wf := by
          intro a ha
          simp only [List.mem_cons, List.not_mem_nil, or_false] at ha
          obtain rfl | rfl := ha
          · exact ⟨rfl, fun bits hbits => by cases hbits; rfl⟩
          · exact ⟨rfl, fun bits hbits => by cases hbits⟩ }
    let cols : List ColumnInfo :=
      [⟨"A", .int32, "INTEGER", none, none, none⟩, ⟨"B", .date, "DATE", none, none, none⟩]
    let accs : List ColAccessor := [.int32 [7, 8], .date32 [0, 19000]]
    let flusher := fun (t : EmitTable) (sent : List EmitTable) =>
      ((.ok (), sent ++ [t]) : Except UdfError Unit × List EmitTable)
    let rows := (List.range 2).map (batchValues .reference batch.columns accs)
    (EmitBuffer.new.pushBatch .reference batch cols 5 flusher []).1 = .ok () ∧
      (EmitBuffer.new.pushBatch .reference batch cols 5 flusher []).2.2
        = (pushRows .reference cols 5 flusher rows EmitBuffer.new []).2.2 ∧
      (EmitBuffer.new.pushBatch .reference batch cols 5 flusher []).2.1.table
        = (pushRows .reference cols 5 flusher rows EmitBuffer.new []).2.1.table := by
  intro batch cols accs flusher rows
  have hcols : ∀ col ∈ cols, col.typ ≠ .unsupported := by decide
  have hscale : ∀ a ∈ batch.columns, a.ScaleNonneg := by
    intro a ha precision scale values hdata
    simp only [batch, List.mem_cons, List.not_mem_nil, or_false] at ha
    obtain rfl | rfl := ha <;> cases hdata
  have hflusher : ∀ t s, (flusher t s).1 = .ok () := fun _ _ => rfl
  exact pushBatch_spec Extern.reference_documented hcols batch hscale EmitBuffer.new 5 hflusher []

end EmitBuffer

end ExaUdf
