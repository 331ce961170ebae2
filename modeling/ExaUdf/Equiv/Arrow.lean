import ExaUdf.Arrow
import ExaUdf.Equiv.RowSet
import Mathlib.Algebra.Order.BigOperators.Group.List

/-!
# The rows of a record batch, and what they cost

`batchValues` is a row of a batch as the row path would carry it and `batchRow` is the row on the
wire; they agree unless a column is unsupported (`wireRow_batchValues`).

The two cost estimates of a batch are the cost of these rows: `computeRowCosts_eq` is exact, and
`sum_le_batchByteCost` says that the estimate in constant time is never too small.
-/

namespace ExaUdf

/-! ### Columns matched with their types -/

/-- Each column has the accessor of its declared type. -/
inductive Matched : List ArrowArray → List ColumnInfo → List ColAccessor → Prop where
  | nil : Matched [] [] []
  | cons {a : ArrowArray} {col : ColumnInfo} {acc : ColAccessor} {as : List ArrowArray}
    {cols : List ColumnInfo} {accs : List ColAccessor} :
    accessor? a.data col.typ = some acc → Matched as cols accs →
    Matched (a :: as) (col :: cols) (acc :: accs)

namespace Matched

variable {as : List ArrowArray} {cols : List ColumnInfo} {accs : List ColAccessor}

theorem length_columns (h : Matched as cols accs) : as.length = cols.length := by
  induction h with
  | nil => rfl
  | cons _ _ ih => rw [List.length_cons, List.length_cons, ih]

theorem length_accessors (h : Matched as cols accs) : accs.length = as.length := by
  induction h with
  | nil => rfl
  | cons _ _ ih => rw [List.length_cons, List.length_cons, ih]

end Matched

theorem buildAccessorsFrom_matched {ext : Extern} {as : List ArrowArray} {cols : List ColumnInfo}
    (hlen : as.length = cols.length) {c : Nat} {accs : List ColAccessor}
    (h : buildAccessorsFrom ext c as cols = .ok accs) : Matched as cols accs := by
  induction as generalizing cols c accs with
  | nil =>
    obtain rfl := List.length_eq_zero_iff.mp hlen.symm
    cases h
    exact .nil
  | cons a as ih =>
    obtain - | ⟨col, cols⟩ := cols
    · cases hlen
    · rw [buildAccessorsFrom] at h
      cases hacc : accessor? a.data col.typ with
      | none => rw [hacc] at h; cases h
      | some acc =>
        rw [hacc] at h
        cases hrest : buildAccessorsFrom ext (c + 1) as cols with
        | error e => rw [hrest] at h; cases h
        | ok accs =>
          rw [hrest] at h
          cases h
          exact .cons hacc (ih (Nat.succ.inj hlen) hrest)

theorem buildAccessors_matched {ext : Extern} {batch : RecordBatch} {cols : List ColumnInfo}
    {accs : List ColAccessor} (h : buildAccessors ext batch cols = .ok accs) :
    Matched batch.columns cols accs := by
  rw [buildAccessors] at h
  split_ifs at h with hlen
  exact buildAccessorsFrom_matched (not_ne_iff.mp hlen) h

/-! ### Rows of a batch -/

/-- The cell on the wire for a cell that is not NULL. -/
def ColAccessor.cell (ext : Extern) (acc : ColAccessor) (r : Nat) : WireCell :=
  match acc with
  | .int32 arr => .int32 (arr.getD r 0)
  | .int64 arr => .int64 (arr.getD r 0)
  | .float64 arr => .double (arr.getD r ⟨0⟩)
  | .boolean arr => .bool (arr.getD r false)
  | .unsupported => .skipped
  | acc => .string (blockText ext (accessorValue ext acc r))

/-- The null buffer, if there is one, has a NULL in row `r`. -/
def nullAt (nulls : Option (List Bool)) (r : Nat) : Bool :=
  nulls.any (isNullAt · r)

def batchCell (ext : Extern) (r : Nat) (a : ArrowArray) (acc : ColAccessor) : WireCell :=
  if nullAt a.nulls r then .null else acc.cell ext r

def batchValue (ext : Extern) (r : Nat) (a : ArrowArray) (acc : ColAccessor) : Value :=
  if nullAt a.nulls r then .null else accessorValue ext acc r

/-- Row `r` of a batch on the wire. -/
def batchRow (ext : Extern) (as : List ArrowArray) (accs : List ColAccessor) (rowNumber : UInt64)
    (r : Nat) : WireRow :=
  ⟨rowNumber, List.zipWith (batchCell ext r) as accs⟩

/-- Row `r` of a batch as the row path would carry it. -/
def batchValues (ext : Extern) (as : List ArrowArray) (accs : List ColAccessor) (r : Nat) :
    List Value :=
  List.zipWith (batchValue ext r) as accs

theorem wireCell_accessorValue (ext : Extern) {data : ArrowData} {typ : ExaType}
    {acc : ColAccessor} (h : accessor? data typ = some acc) (htyp : typ ≠ .unsupported) (r : Nat) :
    wireCell ext typ (some (accessorValue ext acc r)) = acc.cell ext r := by
  cases data with
  | int32 values =>
    cases typ with
    | int32 =>
      cases h
      exact congrArg WireCell.int32 (Int32.toInt32_toInt64 (values.getD r 0))
    | _ => first
      | exact absurd rfl htyp
      | cases h <;> rfl
  | timestamp unit =>
    cases unit <;> cases typ <;> first
      | exact absurd rfl htyp
      | cases h <;> rfl
  | _ =>
    cases typ <;> first
      | exact absurd rfl htyp
      | cases h <;> rfl

theorem wireCell_batchValue (ext : Extern) {a : ArrowArray} {typ : ExaType} {acc : ColAccessor}
    (h : accessor? a.data typ = some acc) (htyp : typ ≠ .unsupported) (r : Nat) :
    wireCell ext typ (some (batchValue ext r a acc)) = batchCell ext r a acc := by
  rw [batchValue, batchCell]
  split_ifs
  · rfl
  · exact wireCell_accessorValue ext h htyp r

/-- **The row path's values become the row on the wire.** -/
theorem wireRow_batchValues (ext : Extern) {as : List ArrowArray} {cols : List ColumnInfo}
    {accs : List ColAccessor} (h : Matched as cols accs)
    (htyp : ∀ col ∈ cols, col.typ ≠ .unsupported) (rowNumber : UInt64) (r : Nat) :
    wireRow ext cols rowNumber (batchValues ext as accs r) = batchRow ext as accs rowNumber r := by
  -- The cells from column `k` on, whatever stands before them.
  have hcells : ∀ front : List Value,
      ((cols.zipIdx front.length).map fun p =>
          wireCell ext p.1.typ (front ++ batchValues ext as accs r)[p.2]?)
        = List.zipWith (batchCell ext r) as accs := by
    induction h with
    | nil => exact fun _ => rfl
    | @cons a col acc as cols accs hacc _ ih =>
      intro front
      have hcol := htyp col List.mem_cons_self
      have hhead : (front ++ batchValues ext (a :: as) (acc :: accs) r)[front.length]?
          = some (batchValue ext r a acc) := by
        rw [List.getElem?_append_right (Nat.le_refl _), Nat.sub_self]
        rfl
      have htail := ih (fun c hc => htyp c (List.mem_cons_of_mem col hc))
        (front ++ [batchValue ext r a acc])
      rw [List.append_assoc, List.length_append] at htail
      rw [List.zipIdx_cons, List.map_cons, List.zipWith_cons_cons]
      refine congr (congrArg List.cons ?_) htail
      rw [hhead]
      exact wireCell_batchValue ext hacc hcol r
  rw [wireRow, batchRow]
  exact congrArg _ (hcells [])

/-! ### Costs -/

/-- The cost of a cell: NULL is free, and a string costs its length. -/
def cellCost (a : ArrowArray) (r : Nat) : Nat :=
  if nullAt a.nulls r then 0
  else
    match fixedCellCost a.data.dataType with
    | some fixed => fixed
    | none =>
      match a.data with
      | .utf8 offsets _ => offsetsDelta offsets r
      | .largeUtf8 offsets _ => offsetsDelta offsets r
      | _ => 0

/-- A scale below 0 would be charged as a huge unsigned number. -/
def ArrowArray.ScaleNonneg (a : ArrowArray) : Prop :=
  ∀ precision scale values, a.data = .decimal128 precision scale values → 0 ≤ scale.toInt

theorem stringAt_length {n : Nat} {offsets : List Nat} {data : List UInt8}
    (h : OffsetsWF n offsets data) {r : Nat} (hr : r < n) :
    (stringAt offsets data r).length = offsetsDelta offsets r := by
  have hle := h.le (r + 1) hr
  rw [stringAt, slice, List.length_take, List.length_drop, offsetsDelta]
  omega

/-- The text of a string cell has the bytes of the cell. -/
theorem bytes_stringAt {n : Nat} {offsets : List Nat} {data : List UInt8}
    (h : OffsetsWF n offsets data) {r : Nat} (hr : r < n) :
    Utf8.bytes ((Utf8.text? (stringAt offsets data r)).getD "") = stringAt offsets data r := by
  obtain ⟨s, hs⟩ := Option.isSome_iff_exists.mp (h.utf8 r hr)
  have hs' : Utf8.text? (stringAt offsets data r) = some s := hs
  rw [hs', Option.getD_some, Utf8.bytes_of_text? hs']

theorem decimalCost {scale : Int8} (h : 0 ≤ scale.toInt) :
    (numericCostBase + scale.toInt64.toUInt64.toNat) % 2 ^ 64
      = numericCostBase + scale.toUInt8.toNat := by
  have hall : ∀ bits : BitVec 8, 0 ≤ (Int8.ofBitVec bits).toInt →
      (numericCostBase + (Int8.ofBitVec bits).toInt64.toUInt64.toNat) % 2 ^ 64
        = numericCostBase + (Int8.ofBitVec bits).toUInt8.toNat := by decide +kernel
  exact hall scale.toBitVec h

theorem valueByteCost_accessorValue (ext : Extern) {n : Nat} {a : ArrowArray} (hwf : a.WF n)
    (hscale : a.ScaleNonneg) {typ : ExaType} {acc : ColAccessor}
    (h : accessor? a.data typ = some acc) (htyp : typ ≠ .unsupported) {r : Nat} (hr : r < n)
    (hnull : nullAt a.nulls r = false) :
    valueByteCost (accessorValue ext acc r) = cellCost a r := by
  have hdata := hwf.data
  have hdecimal := hscale
  rw [cellCost, hnull, if_neg Bool.false_ne_true]
  rw [ArrowArray.ScaleNonneg] at hdecimal
  generalize a.data = data at h hdata hdecimal
  cases data with
  -- A text costs its bytes, which are those between two offsets.
  | utf8 offsets bytes | largeUtf8 offsets bytes =>
    have hstring : valueByteCost (.string ((Utf8.text? (stringAt offsets bytes r)).getD ""))
        = offsetsDelta offsets r := by
      rw [valueByteCost, bytes_stringAt hdata hr, stringAt_length hdata hr]
    cases typ <;> first
      | exact absurd rfl htyp
      | (cases h <;> exact hstring)
  -- Here a negative scale would be charged as a large one.
  | decimal128 precision scale values =>
    cases typ <;> first
      | exact absurd rfl htyp
      | (cases h <;> exact (decimalCost (hdecimal _ _ _ rfl)).symm)
  | timestamp unit =>
    cases unit <;> cases typ <;> first
      | exact absurd rfl htyp
      | cases h <;> rfl
  | _ =>
    cases typ <;> first
      | exact absurd rfl htyp
      | cases h <;> rfl

theorem valueByteCost_batchValue (ext : Extern) {n : Nat} {a : ArrowArray} (hwf : a.WF n)
    (hscale : a.ScaleNonneg) {typ : ExaType} {acc : ColAccessor}
    (h : accessor? a.data typ = some acc) (htyp : typ ≠ .unsupported) {r : Nat} (hr : r < n) :
    valueByteCost (batchValue ext r a acc) = cellCost a r := by
  cases hnull : nullAt a.nulls r with
  | true => rw [batchValue, cellCost, hnull]; rfl
  | false =>
    rw [batchValue, hnull]
    exact valueByteCost_accessorValue ext hwf hscale h htyp hr hnull

theorem sum_batchValues (ext : Extern) {n : Nat} {as : List ArrowArray} {cols : List ColumnInfo}
    {accs : List ColAccessor} (h : Matched as cols accs) (hwf : ∀ a ∈ as, a.WF n)
    (hscale : ∀ a ∈ as, a.ScaleNonneg) (htyp : ∀ col ∈ cols, col.typ ≠ .unsupported) {r : Nat}
    (hr : r < n) :
    ((batchValues ext as accs r).map valueByteCost).sum = (as.map (cellCost · r)).sum := by
  induction h with
  | nil => rfl
  | @cons a col acc as cols accs hacc _ ih =>
    have hhead := valueByteCost_batchValue ext (hwf a List.mem_cons_self)
      (hscale a List.mem_cons_self) hacc (htyp col List.mem_cons_self) hr
    have htail := ih (fun b hb => hwf b (List.mem_cons_of_mem a hb))
      (fun b hb => hscale b (List.mem_cons_of_mem a hb))
      (fun c hc => htyp c (List.mem_cons_of_mem col hc))
    rw [batchValues] at htail ⊢
    rw [List.zipWith_cons_cons, List.map_cons, List.sum_cons, hhead, htail, List.map_cons,
      List.sum_cons]

theorem accumulateCosts_eq (n : Nat) (f : Nat → Nat) (nulls : Option (List Bool))
    (cost : Nat → Nat) :
    accumulateCosts ((List.range n).map f) nulls cost
      = (List.range n).map fun r => f r + if nullAt nulls r then 0 else cost r := by
  apply List.ext_getElem
  · simp [accumulateCosts]
  · intro r h1 h2
    simp only [accumulateCosts, List.getElem_mapIdx, List.getElem_map, List.getElem_range, nullAt]
    split_ifs <;> rfl

theorem addColumnCosts_eq (n : Nat) (f : Nat → Nat) (a : ArrowArray) :
    addColumnCosts ((List.range n).map f) a
      = (List.range n).map fun r => f r + cellCost a r := by
  cases hfixed : fixedCellCost a.data.dataType with
  | some fixed => simp only [addColumnCosts, cellCost, hfixed, accumulateCosts_eq]
  | none =>
    rw [addColumnCosts, hfixed]
    simp only [cellCost, hfixed]
    cases a.data <;> simp only [accumulateCosts_eq, ite_self, Nat.add_zero]

theorem foldl_addColumnCosts (n : Nat) (as : List ArrowArray) (f : Nat → Nat) :
    as.foldl addColumnCosts ((List.range n).map f)
      = (List.range n).map fun r => f r + (as.map (cellCost · r)).sum := by
  induction as generalizing f with
  | nil => rfl
  | cons a as ih =>
    rw [List.foldl_cons, addColumnCosts_eq, ih]
    simp only [List.map_cons, List.sum_cons, Nat.add_assoc]

/-- **The costs of the rows** are the sums of their cells' costs. -/
theorem computeRowCosts_eq {batch : RecordBatch} {cols : List ColumnInfo}
    (hlen : batch.columns.length = cols.length) :
    computeRowCosts batch cols
      = (List.range batch.numRows).map fun r => (batch.columns.map (cellCost · r)).sum := by
  have hzero : List.replicate batch.numRows 0 = (List.range batch.numRows).map fun _ => 0 := by
    rw [List.map_const', List.length_range]
  rw [computeRowCosts, ← hlen, List.take_length, hzero, foldl_addColumnCosts]
  simp only [Nat.zero_add]

/-! ### The estimate in constant time -/

theorem sum_valid (k : Nat) (bits : List Bool) :
    ((List.range bits.length).map fun r => if isNullAt bits r then 0 else k).sum
      = k * (bits.length - bits.count false) := by
  induction bits with
  | nil => rfl
  | cons bit bits ih =>
    have hcount := List.count_le_length (a := false) (l := bits)
    rw [List.length_cons, List.range_succ_eq_map, List.map_cons, List.sum_cons, List.map_map]
    have htail : ((fun r => if isNullAt (bit :: bits) r then 0 else k) ∘ Nat.succ)
        = fun r => if isNullAt bits r then 0 else k := by
      funext r
      simp [isNullAt]
    rw [htail, ih]
    cases bit with
    | true =>
      rw [List.count_cons_of_ne (by decide), Nat.succ_sub hcount, Nat.mul_succ]
      simp [isNullAt, Nat.add_comm]
    | false =>
      rw [List.count_cons_self, Nat.add_sub_add_right]
      simp [isNullAt]

theorem sum_notNull {n : Nat} {a : ArrowArray} (hwf : a.WF n) (k : Nat) :
    ((List.range n).map fun r => if nullAt a.nulls r then 0 else k).sum
      = k * (n - a.nullCount) := by
  have hnulls := hwf.nulls
  rw [ArrowArray.nullCount]
  cases h : a.nulls with
  | none =>
    rw [show (fun r => if nullAt none r then 0 else k) = fun _ : Nat => k from rfl,
      List.map_const', List.sum_replicate_nat, List.length_range, Nat.mul_comm]
    rfl
  | some bits =>
    rw [← hnulls bits h]
    exact sum_valid k bits

theorem sum_offsetsDelta {n : Nat} {offsets : List Nat} {data : List UInt8}
    (h : OffsetsWF n offsets data) :
    ((List.range n).map (offsetsDelta offsets)).sum = offsetsSpan offsets := by
  have hupTo : ∀ m ≤ n, offsets.getD 0 0 ≤ offsets.getD m 0 ∧
      ((List.range m).map (offsetsDelta offsets)).sum
        = offsets.getD m 0 - offsets.getD 0 0 := by
    intro m
    induction m with
    | zero => exact fun _ => ⟨Nat.le_refl _, (Nat.sub_self _).symm⟩
    | succ m ih =>
      intro hm
      obtain ⟨hle, hsum⟩ := ih (by omega)
      have hmono := h.mono m hm
      refine ⟨by omega, ?_⟩
      rw [List.range_succ, List.map_append, List.sum_append, hsum, List.map_singleton,
        List.sum_singleton, offsetsDelta]
      omega
  rw [(hupTo n (Nat.le_refl n)).2, offsetsSpan, h.length, Nat.add_sub_cancel]

theorem sum_cellCost_le {n : Nat} {a : ArrowArray} (hwf : a.WF n) :
    ((List.range n).map (cellCost a)).sum ≤ columnByteCost n a := by
  have hdata := hwf.data
  cases hfixed : fixedCellCost a.data.dataType with
  | some fixed =>
    have hcell : cellCost a = fun r => if nullAt a.nulls r then 0 else fixed :=
      funext fun r => by rw [cellCost, hfixed]
    have hcolumn : columnByteCost n a = fixed * (n - a.nullCount) := by rw [columnByteCost, hfixed]
    rw [hcell, hcolumn, sum_notNull hwf fixed]
  | none =>
    have hle : ∀ delta : Nat → Nat, ((List.range n).map fun r =>
        if nullAt a.nulls r then 0 else delta r).sum ≤ ((List.range n).map delta).sum := by
      intro delta
      refine List.sum_le_sum fun r _ => ?_
      split_ifs
      · exact Nat.zero_le _
      · exact Nat.le_refl _
    rw [columnByteCost, hfixed, show cellCost a = _ from funext fun r => by rw [cellCost, hfixed]]
    cases hcase : a.data with
    | utf8 offsets bytes | largeUtf8 offsets bytes =>
      rw [hcase] at hdata
      exact (hle _).trans (sum_offsetsDelta hdata).le
    | _ => exact (hle fun _ => 0).trans (by simp)

theorem sum_le_columnByteCost {n : Nat} {as : List ArrowArray} (hwf : ∀ a ∈ as, a.WF n) :
    ((List.range n).map fun r => (as.map (cellCost · r)).sum).sum
      ≤ (as.map (columnByteCost n)).sum := by
  induction as with
  | nil => simp
  | cons a as ih =>
    simp only [List.map_cons, List.sum_cons, List.sum_map_add]
    exact Nat.add_le_add (sum_cellCost_le (hwf a List.mem_cons_self))
      (ih fun b hb => hwf b (List.mem_cons_of_mem a hb))

/-- The estimate adds up the columns. -/
theorem batchByteCost_eq {batch : RecordBatch} {cols : List ColumnInfo}
    (hlen : batch.columns.length = cols.length) :
    batchByteCost batch cols = (batch.columns.map (columnByteCost batch.numRows)).sum := by
  have hfold : ∀ (as : List ArrowArray) (total : Nat),
      as.foldl (fun total a => total + columnByteCost batch.numRows a) total
        = total + (as.map (columnByteCost batch.numRows)).sum := by
    intro as
    induction as with
    | nil => exact fun _ => rfl
    | cons a as ih =>
      intro total
      rw [List.foldl_cons, ih, List.map_cons, List.sum_cons, Nat.add_assoc]
  rw [batchByteCost, ← hlen, List.take_length, hfold, Nat.zero_add]

/-- **The estimate in constant time** is at least the cost of the rows. -/
theorem sum_le_batchByteCost {batch : RecordBatch} {cols : List ColumnInfo}
    (hlen : batch.columns.length = cols.length) :
    ((List.range batch.numRows).map fun r => (batch.columns.map (cellCost · r)).sum).sum
      ≤ batchByteCost batch cols := by
  rw [batchByteCost_eq hlen]
  exact sum_le_columnByteCost batch.wf

end ExaUdf
