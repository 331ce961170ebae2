import ExaUdf.CheckedCosts
import ExaUdf.Equiv.Ledger

/-!
# When the costs of the emit buffer overflow

The unbounded costs are those of the source wherever they are a `usize`.  `pushBatch_ok_iff` says
exactly when a batch is charged without an overflow, and `runCalls_eq` that a run whose costs add up
to a `usize` has none.

The only cost that can leave its type by itself is that of a decimal with a scale from -40 to -1
(`decimalCellCost_eq`).
-/

namespace ExaUdf

open Charged

/-- The cost of a decimal cell is a `usize`.  A negative scale is widened to a huge one. -/
def ArrowArray.CostFits (a : ArrowArray) : Prop :=
  ∀ precision scale values, a.data = .decimal128 precision scale values →
    0 ≤ scale.toInt ∨ scale.toInt < -40

namespace Checked

/-! ### Columns -/

/-- The cost of a cell overflows for the scales from -40 to -1, and is huge below them. -/
theorem decimalCellCost_eq (scale : Int8) :
    decimalCellCost scale =
      if 0 ≤ scale.toInt then .ok (numericCostBase + scale.toUInt8.toNat)
      else if scale.toInt < -40 then .ok (2 ^ 64 + 40 + scale.toInt).toNat
      else .error .overflow := by
  have hall : ∀ bits : BitVec 8, decimalCellCost (Int8.ofBitVec bits) =
      if 0 ≤ (Int8.ofBitVec bits).toInt then
        .ok (numericCostBase + (Int8.ofBitVec bits).toUInt8.toNat)
      else if (Int8.ofBitVec bits).toInt < -40 then
        .ok (2 ^ 64 + 40 + (Int8.ofBitVec bits).toInt).toNat
      else .error .overflow := by decide +kernel
  exact hall scale.toBitVec

theorem decimalCellCost_ok_iff (scale : Int8) :
    (∃ cost, decimalCellCost scale = .ok cost) ↔ 0 ≤ scale.toInt ∨ scale.toInt < -40 := by
  rw [decimalCellCost_eq]
  split_ifs with hnonneg hlow
  · exact iff_of_true ⟨_, rfl⟩ (.inl hnonneg)
  · exact iff_of_true ⟨_, rfl⟩ (.inr hlow)
  · apply iff_of_false
    · rintro ⟨cost, h⟩
      cases h
    · exact not_or.mpr ⟨hnonneg, hlow⟩

/-- The computed cost is the one charged. -/
theorem fixedCellCost_decimal {precision : UInt8} {scale : Int8} {cost : Nat}
    (h : decimalCellCost scale = .ok cost) :
    ExaUdf.fixedCellCost (.decimal128 precision scale) = some cost := by
  obtain ⟨rfl, hlt⟩ := usize_eq_ok.mp h
  rw [ExaUdf.fixedCellCost, Nat.mod_eq_of_lt hlt]

theorem fixedCellCost_eq {a : ArrowArray} (h : a.CostFits) :
    fixedCellCost a.data.dataType = .ok (ExaUdf.fixedCellCost a.data.dataType) := by
  rw [ArrowArray.CostFits] at h
  generalize a.data = data at h ⊢
  cases data with
  | decimal128 precision scale values =>
    obtain ⟨cost, hcost⟩ := (decimalCellCost_ok_iff scale).mpr (h _ _ _ rfl)
    show (decimalCellCost scale >>= fun cost => .ok (some cost)) = _
    rw [hcost, ok_bind]
    exact congrArg Except.ok (fixedCellCost_decimal hcost).symm
  | _ => rfl

theorem costFits_of_ok {a : ArrowArray} {cost : Option Nat}
    (h : fixedCellCost a.data.dataType = .ok cost) : a.CostFits := by
  intro precision scale values hdata
  rw [hdata] at h
  obtain ⟨cost', hcost, -⟩ := bind_eq_ok.mp h
  exact (decimalCellCost_ok_iff scale).mp ⟨cost', hcost⟩

theorem nullCount_le {n : Nat} {a : ArrowArray} (h : a.WF n) : a.nullCount ≤ n := by
  have hnulls := h.nulls
  unfold ArrowArray.nullCount
  cases hbits : a.nulls with
  | none => exact Nat.zero_le n
  | some bits => exact hnulls bits hbits ▸ List.count_le_length

/-- **The cost of a column** is computed exactly if its cells' is and it is a `usize`. -/
theorem columnByteCost_eq_ok {n m : Nat} {a : ArrowArray} (hwf : a.WF n) :
    columnByteCost n a = .ok m ↔
      a.CostFits ∧ m = ExaUdf.columnByteCost n a ∧ ExaUdf.columnByteCost n a < 2 ^ 64 := by
  have hsub : sub n a.nullCount = .ok (n - a.nullCount) := if_pos (nullCount_le hwf)
  by_cases hfits : a.CostFits
  · rw [and_iff_right hfits]
    unfold columnByteCost ExaUdf.columnByteCost
    rw [fixedCellCost_eq hfits, ok_bind]
    cases ExaUdf.fixedCellCost a.data.dataType with
    | some fixed =>
      dsimp only
      rw [hsub, ok_bind, usize_eq_ok]
    | none =>
      dsimp only
      cases a.data with
      | utf8 offsets data | largeUtf8 offsets data => exact usize_eq_ok
      | _ => simp [pure, Except.pure, eq_comm]
  · constructor
    · intro h
      obtain ⟨cost, hcost, -⟩ := bind_eq_ok.mp h
      exact absurd (costFits_of_ok hcost) hfits
    · exact fun h => absurd h.1 hfits

/-- The costs of columns, added to a total. -/
theorem addByteCosts_eq_ok {n m : Nat} {as : List ArrowArray} (hwf : ∀ a ∈ as, a.WF n)
    {total : Nat} (htotal : total < 2 ^ 64) :
    addByteCosts n as total = .ok m ↔ (∀ a ∈ as, a.CostFits) ∧
      m = total + (as.map (ExaUdf.columnByteCost n)).sum ∧ m < 2 ^ 64 := by
  induction as generalizing total with
  | nil =>
    rw [addByteCosts, Except.ok.injEq, List.map_nil, List.sum_nil, Nat.add_zero, eq_comm]
    constructor
    · rintro rfl
      exact ⟨fun _ h => absurd h List.not_mem_nil, rfl, htotal⟩
    · exact fun h => h.2.1
  | cons a as ih =>
    have hrest := @ih fun b hb => hwf b (List.mem_cons_of_mem a hb)
    rw [addByteCosts, List.map_cons, List.sum_cons, ← Nat.add_assoc]
    simp only [bind_eq_ok, columnByteCost_eq_ok (hwf a List.mem_cons_self), usize_eq_ok,
      List.forall_mem_cons]
    constructor
    · rintro ⟨cost, ⟨hfits, rfl, -⟩, sum, ⟨rfl, hsum⟩, hadd⟩
      obtain ⟨hall, hm, hlt⟩ := (hrest hsum).mp hadd
      exact ⟨⟨hfits, hall⟩, hm, hlt⟩
    · rintro ⟨⟨hfits, hall⟩, hm, hlt⟩
      have hsum : total + ExaUdf.columnByteCost n a < 2 ^ 64 := by omega
      exact ⟨_, ⟨hfits, rfl, by omega⟩, _, ⟨rfl, hsum⟩, (hrest hsum).mpr ⟨hall, hm, hlt⟩⟩

/-- **The cost of a batch** is computed exactly if its columns' are and their sum is a `usize`. -/
theorem batchByteCost_eq_ok {batch : RecordBatch} {cols : List ColumnInfo} {m : Nat}
    (hlen : batch.columns.length = cols.length) :
    batchByteCost batch cols = .ok m ↔ (∀ a ∈ batch.columns, a.CostFits) ∧
      m = ExaUdf.batchByteCost batch cols ∧ m < 2 ^ 64 := by
  rw [batchByteCost, ← hlen, List.take_length, addByteCosts_eq_ok batch.wf (by decide),
    Nat.zero_add, batchByteCost_eq hlen]

/-! ### Rows -/

theorem accumulateCosts_eq (nulls : Option (List Bool)) (cost : Nat → Nat) (costs : List Nat)
    (r : Nat) :
    (∀ c ∈ costs.mapIdx fun i c =>
        if nulls.any (isNullAt · (r + i)) then c else c + cost (r + i), c < 2 ^ 64) →
      accumulateCosts nulls cost r costs = .ok (costs.mapIdx fun i c =>
        if nulls.any (isNullAt · (r + i)) then c else c + cost (r + i)) := by
  induction costs generalizing r with
  | nil => exact fun _ => rfl
  | cons c costs ih =>
    have hshift : ∀ i, r + 1 + i = r + (i + 1) := by omega
    have hrest := ih (r + 1)
    simp only [hshift] at hrest
    rw [List.mapIdx_cons, List.forall_mem_cons]
    rintro ⟨hfirst, hmem⟩
    rw [accumulateCosts, hrest hmem]
    rw [Nat.add_zero] at hfirst ⊢
    split_ifs at hfirst ⊢
    · rfl
    · rw [usize_of_lt hfirst]
      rfl

theorem addColumnCosts_eq {a : ArrowArray} (hfits : a.CostFits) {costs : List Nat}
    (h : ∀ c ∈ ExaUdf.addColumnCosts costs a, c < 2 ^ 64) :
    addColumnCosts costs a = .ok (ExaUdf.addColumnCosts costs a) := by
  have hstep : ∀ cost : Nat → Nat, (∀ c ∈ ExaUdf.accumulateCosts costs a.nulls cost, c < 2 ^ 64) →
      accumulateCosts a.nulls cost 0 costs = .ok (ExaUdf.accumulateCosts costs a.nulls cost) := by
    intro cost hlt
    have hacc := accumulateCosts_eq a.nulls cost costs 0
    simp only [Nat.zero_add] at hacc
    exact hacc hlt
  unfold addColumnCosts
  unfold ExaUdf.addColumnCosts at h ⊢
  rw [fixedCellCost_eq hfits, ok_bind]
  cases hfixed : ExaUdf.fixedCellCost a.data.dataType with
  | some fixed =>
    rw [hfixed] at h
    exact hstep _ h
  | none =>
    rw [hfixed] at h
    dsimp only at h ⊢
    generalize a.data = data at h ⊢
    cases data with
    | utf8 offsets bytes | largeUtf8 offsets bytes => exact hstep _ h
    | _ => rfl

theorem addColumnsCosts_eq (n : Nat) {as : List ArrowArray} (hfits : ∀ a ∈ as, a.CostFits)
    (f : Nat → Nat) (h : ∀ r < n, f r + (as.map (cellCost · r)).sum < 2 ^ 64) :
    addColumnsCosts as ((List.range n).map f)
      = .ok ((List.range n).map fun r => f r + (as.map (cellCost · r)).sum) := by
  induction as generalizing f with
  | nil => rfl
  | cons a as ih =>
    simp only [List.map_cons, List.sum_cons, ← Nat.add_assoc] at h ⊢
    have hfirst : addColumnCosts ((List.range n).map f) a
        = .ok ((List.range n).map fun r => f r + cellCost a r) := by
      rw [← ExaUdf.addColumnCosts_eq]
      apply addColumnCosts_eq (hfits a List.mem_cons_self)
      rw [ExaUdf.addColumnCosts_eq, List.forall_mem_map]
      intro r hr
      have hlt := h r (List.mem_range.mp hr)
      omega
    rw [addColumnsCosts, hfirst, ok_bind]
    exact ih (fun b hb => hfits b (List.mem_cons_of_mem a hb)) _ h

/-- **The costs of the rows** overflow only if the cost of the batch does. -/
theorem computeRowCosts_eq {batch : RecordBatch} {cols : List ColumnInfo}
    (hlen : batch.columns.length = cols.length) (hfits : ∀ a ∈ batch.columns, a.CostFits)
    (hlt : ExaUdf.batchByteCost batch cols < 2 ^ 64) :
    computeRowCosts batch cols = .ok (ExaUdf.computeRowCosts batch cols) := by
  have hsum := sum_le_batchByteCost hlen
  have hzero : List.replicate batch.numRows 0 = (List.range batch.numRows).map fun _ => 0 := by
    rw [List.map_const', List.length_range]
  rw [computeRowCosts, ExaUdf.computeRowCosts_eq hlen, ← hlen, List.take_length, hzero,
    addColumnsCosts_eq _ hfits]
  · simp only [Nat.zero_add]
  · intro r hr
    have hrow := List.single_le_sum (fun _ _ => Nat.zero_le _) _
      (List.mem_map_of_mem (f := fun r => (batch.columns.map (cellCost · r)).sum)
        (List.mem_range.mpr hr))
    omega

end Checked

/-! ### What fits -/

namespace EmitBuffer

/-- What a batch is charged: as a whole where that stays below the threshold, elsewhere row by
row. -/
def batchCharge (buf : EmitBuffer) (batch : RecordBatch) (cols : List ColumnInfo) : Nat :=
  let whole := batchByteCost batch cols + batch.numRows * bytesRowNumber
  if buf.byteEstimate + whole < emitBufferLimitBytes then whole
  else ((computeRowCosts batch cols).map (· + bytesRowNumber)).sum

/-- The costs of a batch and the counters that they are added to are `usize`s. -/
structure ChargeFits (buf : EmitBuffer) (batch : RecordBatch) (cols : List ColumnInfo) :
    Prop where
  cells : ∀ a ∈ batch.columns, a.CostFits
  estimate : buf.byteEstimate + (batchByteCost batch cols + batch.numRows * bytesRowNumber)
    < 2 ^ 64
  total : buf.cumulativeBytes + buf.batchCharge batch cols < 2 ^ 64

/-- Row by row, a batch is charged no more than as a whole. -/
theorem sum_rowCosts_le {batch : RecordBatch} {cols : List ColumnInfo}
    (hlen : batch.columns.length = cols.length) :
    ((computeRowCosts batch cols).map (· + bytesRowNumber)).sum
      ≤ batchByteCost batch cols + batch.numRows * bytesRowNumber := by
  have hcosts := sum_le_batchByteCost hlen
  rw [computeRowCosts_eq hlen, List.map_map, show ((· + bytesRowNumber) ∘ fun r =>
    (batch.columns.map (cellCost · r)).sum) = fun r =>
      (batch.columns.map (cellCost · r)).sum + bytesRowNumber from rfl, List.sum_map_add]
  refine Nat.add_le_add hcosts (Nat.le_of_eq ?_)
  simp

end EmitBuffer

namespace Checked

variable {σ : Type} {ext : Extern} {cols : List ColumnInfo}
  {flusher : EmitTable → σ → Except UdfError Unit × σ}

theorem account_eq_ok {buf buf' : EmitBuffer} {rows cost : Nat} :
    account buf rows cost = .ok buf' ↔ buf' = buf.account rows cost ∧
      buf.byteEstimate + cost < 2 ^ 64 ∧ buf.cumulativeBytes + cost < 2 ^ 64 := by
  unfold account
  simp only [bind_eq_ok, usize_eq_ok]
  constructor
  · rintro ⟨_, ⟨rfl, hestimate⟩, _, ⟨rfl, htotal⟩, h⟩
    exact ⟨(Except.ok.inj h).symm, hestimate, htotal⟩
  · rintro ⟨rfl, hestimate, htotal⟩
    exact ⟨_, ⟨rfl, hestimate⟩, _, ⟨rfl, htotal⟩, rfl⟩

/-! ### The columnar path -/

/-- The loop over the costs. -/
theorem pushBatchLoop_eq (packer : BatchPacker) (rowNumber : UInt64) (costs : List Nat)
    (r start : Nat) {buf : EmitBuffer} (s : σ)
    (hestimate : buf.byteEstimate + (costs.map (· + bytesRowNumber)).sum < 2 ^ 64)
    (htotal : buf.cumulativeBytes + (costs.map (· + bytesRowNumber)).sum < 2 ^ 64) :
    pushBatchLoop ext rowNumber flusher packer costs r start buf s
      = .ok (EmitBuffer.pushBatchLoop ext packer rowNumber flusher costs r start buf s) := by
  -- A flush leaves less in the estimate, so the bounds hold for the rest.
  induction costs generalizing r start buf s with
  | nil => rfl
  | cons cost costs ih =>
    rw [List.map_cons, List.sum_cons] at hestimate htotal
    have haccount : account buf 1 (cost + bytesRowNumber)
        = .ok (buf.account 1 (cost + bytesRowNumber)) :=
      account_eq_ok.mpr ⟨rfl, by omega, by omega⟩
    unfold pushBatchLoop EmitBuffer.pushBatchLoop
    rw [usize_of_lt (by omega), ok_bind, haccount, ok_bind]
    dsimp only
    split_ifs
    · unfold EmitBuffer.flush
      dsimp only
      generalize flusher _ s = sent
      obtain ⟨e | u, s'⟩ := sent
      · rfl
      · apply ih
        · show 0 + _ < _
          omega
        · show buf.cumulativeBytes + (cost + bytesRowNumber) + _ < _
          omega
    · apply ih
      · show buf.byteEstimate + (cost + bytesRowNumber) + _ < _
        omega
      · show buf.cumulativeBytes + (cost + bytesRowNumber) + _ < _
        omega

/-- With a flusher that accepts every table, the loop counts all its rows. -/
theorem pushBatchLoop_total (hflusher : ∀ t s, (flusher t s).1 = .ok ()) (packer : BatchPacker)
    (rowNumber : UInt64) {costs : List Nat} (hcosts : costs ≠ []) (r start : Nat)
    {buf : EmitBuffer} (s : σ) {result : Except UdfError Nat × EmitBuffer × σ}
    (h : pushBatchLoop ext rowNumber flusher packer costs r start buf s = .ok result) :
    buf.cumulativeBytes + (costs.map (· + bytesRowNumber)).sum < 2 ^ 64 := by
  induction costs generalizing r start buf s with
  | nil => exact absurd rfl hcosts
  | cons cost costs ih =>
    unfold pushBatchLoop at h
    obtain ⟨_, husize, h⟩ := bind_eq_ok.mp h
    obtain ⟨rfl, -⟩ := usize_eq_ok.mp husize
    obtain ⟨_, haccount, h⟩ := bind_eq_ok.mp h
    obtain ⟨rfl, -, hcount⟩ := account_eq_ok.mp haccount
    rw [List.map_cons, List.sum_cons, ← Nat.add_assoc]
    by_cases hlast : costs = []
    · rw [hlast]
      exact hcount
    dsimp only at h
    split_ifs at h
    · unfold EmitBuffer.flush at h
      dsimp only at h
      have hsent := hflusher (packer.pack ext start (r + 1) rowNumber
        (buf.account 1 (cost + bytesRowNumber)).table) s
      generalize flusher _ s = sent at h hsent
      obtain ⟨res, s'⟩ := sent
      obtain rfl : res = .ok () := hsent
      exact @ih hlast (r + 1) (r + 1) (EmitBuffer.clear { buf.account 1 (cost + bytesRowNumber) with
        table := packer.pack ext start (r + 1) rowNumber
          (buf.account 1 (cost + bytesRowNumber)).table }) s' h
    · exact ih hlast _ _ s h

section

variable {batch : RecordBatch} {accs : List ColAccessor} {p : BatchPacker}

theorem batchCost_eq_ok (hp : BatchPacker.Made ext batch cols accs p) {m : Nat} :
    batchCost p = .ok m ↔ (∀ a ∈ batch.columns, a.CostFits) ∧
      m = ExaUdf.batchByteCost batch cols + batch.numRows * bytesRowNumber ∧ m < 2 ^ 64 := by
  unfold batchCost
  rw [hp.batch_eq, hp.cols_eq]
  simp only [bind_eq_ok, usize_eq_ok, batchByteCost_eq_ok hp.matched.length_columns]
  constructor
  · rintro ⟨_, ⟨hcells, rfl, -⟩, _, ⟨rfl, -⟩, rfl, hlt⟩
    exact ⟨hcells, rfl, hlt⟩
  · rintro ⟨hcells, rfl, hlt⟩
    exact ⟨_, ⟨hcells, rfl, by omega⟩, _, ⟨rfl, by omega⟩, rfl, hlt⟩

variable (rowNumber : UInt64) {buf : EmitBuffer} (s : σ)

/-- **A batch whose costs fit** is pushed as without the checks. -/
theorem pushBatch_eq (hfits : ∀ accs, buildAccessors ext batch cols = .ok accs →
      batch.numRows ≠ 0 → buf.ChargeFits batch cols) :
    pushBatch ext cols rowNumber flusher buf batch s
      = .ok (buf.pushBatch ext batch cols rowNumber flusher s) := by
  unfold pushBatch EmitBuffer.pushBatch
  by_cases hrows : batch.numRows = 0
  · rw [if_pos hrows, if_pos hrows]
  rw [if_neg hrows, if_neg hrows]
  cases hnew : BatchPacker.new ext batch cols with
  | error e => rfl
  | ok p =>
    obtain ⟨accs, hacc, hp⟩ := BatchPacker.new_eq_ok hnew
    obtain ⟨hcells, hestimate, htotal⟩ := hfits accs hacc hrows
    have hlen := hp.matched.length_columns
    have hcost := (batchCost_eq_ok hp).mpr ⟨hcells, rfl, by omega⟩
    have hbyte : p.byteCost = ExaUdf.batchByteCost batch cols := by
      rw [BatchPacker.byteCost, hp.batch_eq, hp.cols_eq]
    unfold EmitBuffer.batchCharge at htotal
    dsimp only at htotal ⊢
    rw [hcost, ok_bind, usize_of_lt hestimate, ok_bind, hbyte]
    split_ifs at htotal ⊢ with hbelow
    · rw [account_eq_ok.mpr ⟨rfl, hestimate, htotal⟩]
      rfl
    -- Row by row the costs are no larger, so the loop does not overflow either.
    · have hsum := EmitBuffer.sum_rowCosts_le hlen
      have hrowCosts : p.rowCosts = ExaUdf.computeRowCosts batch cols := by
        rw [BatchPacker.rowCosts, hp.batch_eq, hp.cols_eq]
      have hloop := @pushBatchLoop_eq σ ext flusher p rowNumber
        (ExaUdf.computeRowCosts batch cols) 0 0 buf s (by omega) htotal
      rw [hp.batch_eq, hp.cols_eq, computeRowCosts_eq hlen hcells (by omega), ok_bind, hloop,
        ok_bind, hrowCosts]
      generalize EmitBuffer.pushBatchLoop ext p rowNumber flusher _ 0 0 buf s = r
      obtain ⟨e | stop, buf', s'⟩ := r <;> rfl

/-- **Exactly when the costs of a batch overflow**, with a flusher that accepts every table. -/
theorem pushBatch_ok_iff (hflusher : ∀ t s, (flusher t s).1 = .ok ())
    (hacc : buildAccessors ext batch cols = .ok accs) :
    pushBatch ext cols rowNumber flusher buf batch s
        = .ok (buf.pushBatch ext batch cols rowNumber flusher s) ↔
      (batch.numRows ≠ 0 → buf.ChargeFits batch cols) := by
  refine ⟨fun h hrows => ?_, fun hfits => pushBatch_eq rowNumber s fun _ _ => hfits⟩
  unfold pushBatch at h
  rw [if_neg hrows] at h
  cases hnew : BatchPacker.new ext batch cols with
  | error e =>
    rw [BatchPacker.new, hacc] at hnew
    cases hnew
  | ok p =>
    obtain ⟨accs', -, hp⟩ := BatchPacker.new_eq_ok hnew
    rw [hnew] at h
    obtain ⟨_, hcost, h⟩ := bind_eq_ok.mp h
    obtain ⟨hcells, rfl, -⟩ := (batchCost_eq_ok hp).mp hcost
    obtain ⟨_, hsum, h⟩ := bind_eq_ok.mp h
    obtain ⟨rfl, hestimate⟩ := usize_eq_ok.mp hsum
    refine ⟨hcells, hestimate, ?_⟩
    unfold EmitBuffer.batchCharge
    dsimp only
    split_ifs at h ⊢ with hbelow
    · obtain ⟨_, haccount, -⟩ := bind_eq_ok.mp h
      exact (account_eq_ok.mp haccount).2.2
    · obtain ⟨_, hcosts, h⟩ := bind_eq_ok.mp h
      rw [hp.batch_eq, hp.cols_eq,
        computeRowCosts_eq hp.matched.length_columns hcells (by omega)] at hcosts
      obtain rfl := Except.ok.inj hcosts
      obtain ⟨result, hloop, -⟩ := bind_eq_ok.mp h
      refine pushBatchLoop_total hflusher p rowNumber (fun hnil => hrows ?_) 0 0 s hloop
      rw [← List.length_range (n := batch.numRows), ← List.length_map,
        ← ExaUdf.computeRowCosts_eq hp.matched.length_columns, hnil, List.length_nil]

end

/-! ### The row path -/

theorem checkCells_eq (idx : Nat) (row : List Value) (cols : List ColumnInfo) {cost : Nat}
    (h : cost + (row.map valueByteCost).sum < 2 ^ 64) :
    checkCells ext idx row cols cost = .ok (ExaUdf.checkCells ext idx row cols cost) := by
  induction row generalizing idx cols cost with
  | nil => rfl
  | cons v row ih =>
    cases cols with
    | nil => rfl
    | cons col cols =>
      rw [List.map_cons, List.sum_cons, ← Nat.add_assoc] at h
      unfold checkCells
      split_ifs with haccept
      · rw [usize_of_lt (by omega), ok_bind, ih (idx + 1) cols h, ExaUdf.checkCells,
          if_pos haccept]
      · rfl

theorem checkOutputRow_eq (row : List Value) (cols : List ColumnInfo)
    (h : bytesRowNumber + (row.map valueByteCost).sum < 2 ^ 64) :
    checkOutputRow ext row cols = .ok (ExaUdf.checkOutputRow ext row cols) := by
  unfold checkOutputRow
  split_ifs with hlen
  · rfl
  · rw [checkCells_eq 0 row cols h, ExaUdf.checkOutputRow, if_neg hlen]

/-- **A row whose cost fits** is pushed as without the checks. -/
theorem pushOutputRow_eq (rowNumber : UInt64) {buf : EmitBuffer} (row : List Value) (s : σ)
    (hestimate : buf.byteEstimate + (bytesRowNumber + (row.map valueByteCost).sum) < 2 ^ 64)
    (htotal : buf.cumulativeBytes + (bytesRowNumber + (row.map valueByteCost).sum) < 2 ^ 64) :
    pushOutputRow ext cols rowNumber flusher buf row s
      = .ok (buf.pushOutputRow ext cols rowNumber flusher row s) := by
  unfold pushOutputRow EmitBuffer.pushOutputRow
  rw [checkOutputRow_eq row cols (by omega), ok_bind]
  cases hcost : ExaUdf.checkOutputRow ext row cols with
  | error e => rfl
  | ok cost =>
    obtain rfl := (checkOutputRow_eq_ok hcost).2
    have hpush : pushCosted ext buf row rowNumber cols
        (bytesRowNumber + (row.map valueByteCost).sum) = .ok (buf.pushCosted ext row rowNumber cols
          (bytesRowNumber + (row.map valueByteCost).sum)) := by
      unfold pushCosted
      rw [account_eq_ok.mpr ⟨rfl, hestimate, htotal⟩]
      rfl
    dsimp only
    rw [hpush, ok_bind]
    split_ifs <;> rfl

end Checked

/-! ### Runs -/

/-- The bytes that a push is charged at most.  A batch that is refused is not charged. -/
def Push.charge (ext : Extern) (cols : List ColumnInfo) : Push → Nat
  | row _ values => bytesRowNumber + (values.map valueByteCost).sum
  | batch _ b =>
    if (buildAccessors ext b cols).isOk then batchByteCost b cols + b.numRows * bytesRowNumber
    else 0

theorem Push.charge_batch {ext : Extern} {cols : List ColumnInfo} {rowNumber : UInt64}
    {b : RecordBatch} {accs : List ColAccessor} (hacc : buildAccessors ext b cols = .ok accs) :
    (Push.batch rowNumber b).charge ext cols
      = batchByteCost b cols + b.numRows * bytesRowNumber := by
  rw [charge, hacc]
  rfl

/-- The bytes that a call is charged at most. -/
def BufferCall.charge (ext : Extern) (cols : List ColumnInfo) : BufferCall → Nat
  | push p => p.charge ext cols
  | flush | clear => 0

namespace Checked

variable {σ : Type} (ext : Extern) (cols : List ColumnInfo)
  (flusher : EmitTable → σ → Except UdfError Unit × σ)

def runPush (p : Push) (flusher : EmitTable → σ → Except UdfError Unit × σ) (buf : EmitBuffer)
    (s : σ) : Except Panic (Except UdfError Unit × EmitBuffer × σ) :=
  match p with
  | .row rowNumber values => pushOutputRow ext cols rowNumber flusher buf values s
  | .batch rowNumber b => pushBatch ext cols rowNumber flusher buf b s

/-- Make a call, noting the tables of threshold flushes. -/
def makeCall (call : BufferCall) (buf : EmitBuffer) (s : σ × List EmitTable) :
    Except Panic (Except UdfError Unit × EmitBuffer × σ × List EmitTable) :=
  match call with
  | .push p => runPush ext cols p (noting flusher) buf s
  | .flush | .clear => .ok (call.run ext cols flusher buf s)

/-- The buffer, the flusher's state, and the tables of the threshold flushes.  A panic ends the
run. -/
def runCalls :
    List BufferCall → EmitBuffer × σ × List EmitTable →
      Except Panic (EmitBuffer × σ × List EmitTable)
  | [], b => .ok b
  | call :: calls, b => do runCalls calls (← makeCall ext cols flusher call b.1 b.2).2

end Checked

namespace EmitBuffer

/-- The buffer has been charged at most `n` bytes. -/
structure Counted (buf : EmitBuffer) (n : Nat) : Prop where
  estimate : buf.byteEstimate ≤ buf.cumulativeBytes
  total : buf.cumulativeBytes ≤ n

section

variable {σ : Type} {ext : Extern} {cols : List ColumnInfo} {buf : EmitBuffer} {n : Nat}
  (rowNumber : UInt64) (flusher : EmitTable → σ → Except UdfError Unit × σ)

theorem Counted.mono (h : buf.Counted n) {m : Nat} (hle : n ≤ m) : buf.Counted m :=
  ⟨h.estimate, Nat.le_trans h.total hle⟩

theorem Counted.account (h : buf.Counted n) (rows cost : Nat) :
    (buf.account rows cost).Counted (n + cost) :=
  ⟨Nat.add_le_add_right h.estimate cost, Nat.add_le_add_right h.total cost⟩

theorem Counted.clear (h : buf.Counted n) : buf.clear.Counted n :=
  ⟨Nat.zero_le _, h.total⟩

theorem Counted.setTable (h : buf.Counted n) (t : EmitTable) : { buf with table := t }.Counted n :=
  ⟨h.estimate, h.total⟩

theorem Counted.pushOutputRow (h : buf.Counted n) (row : List Value) (s : σ) :
    (buf.pushOutputRow ext cols rowNumber flusher row s).2.1.Counted
      (n + (bytesRowNumber + (row.map valueByteCost).sum)) := by
  unfold EmitBuffer.pushOutputRow
  cases hcost : checkOutputRow ext row cols with
  | error e => exact h.mono (Nat.le_add_right _ _)
  | ok cost =>
    obtain rfl := (checkOutputRow_eq_ok hcost).2
    have hpush := (h.account 1 (bytesRowNumber + (row.map valueByteCost).sum)).setTable
    dsimp only
    split_ifs
    · exact (hpush _).clear
    · exact hpush _

theorem Counted.pushBatchLoop (h : buf.Counted n) (packer : BatchPacker) (costs : List Nat)
    (r start : Nat) (s : σ) :
    (EmitBuffer.pushBatchLoop ext packer rowNumber flusher costs r start buf s).2.1.Counted
      (n + (costs.map (· + bytesRowNumber)).sum) := by
  induction costs generalizing r start buf s n with
  | nil => exact h
  | cons cost costs ih =>
    have haccount := h.account 1 (cost + bytesRowNumber)
    rw [List.map_cons, List.sum_cons, ← Nat.add_assoc]
    unfold EmitBuffer.pushBatchLoop flush
    dsimp only
    split_ifs
    · generalize flusher _ s = sent
      obtain ⟨e | u, s'⟩ := sent
      · exact ((haccount.setTable _).clear).mono (Nat.le_add_right _ _)
      · exact ih (haccount.setTable _).clear _ _ s'
    · exact ih haccount _ _ s

theorem Counted.pushBatch (h : buf.Counted n) (batch : RecordBatch) (s : σ) :
    (buf.pushBatch ext batch cols rowNumber flusher s).2.1.Counted
      (n + (Push.batch rowNumber batch).charge ext cols) := by
  unfold EmitBuffer.pushBatch
  dsimp only
  split_ifs
  · exact h.mono (Nat.le_add_right _ _)
  cases hnew : BatchPacker.new ext batch cols with
  | error e => exact h.mono (Nat.le_add_right _ _)
  | ok p =>
    obtain ⟨accs, hacc, hp⟩ := BatchPacker.new_eq_ok hnew
    rw [Push.charge_batch hacc]
    have hsum := sum_rowCosts_le hp.matched.length_columns
    have hbyte : p.byteCost = batchByteCost batch cols := by
      rw [BatchPacker.byteCost, hp.batch_eq, hp.cols_eq]
    have hrowCosts : p.rowCosts = computeRowCosts batch cols := by
      rw [BatchPacker.rowCosts, hp.batch_eq, hp.cols_eq]
    dsimp only
    rw [hbyte, hrowCosts]
    split_ifs
    · exact (h.account _ _).setTable _
    · have hloop : (EmitBuffer.pushBatchLoop ext p rowNumber flusher (computeRowCosts batch cols)
          0 0 buf s).2.1.Counted _ :=
        (h.pushBatchLoop rowNumber flusher p _ 0 0 s).mono (Nat.add_le_add_left hsum n)
      generalize EmitBuffer.pushBatchLoop ext p rowNumber flusher _ 0 0 buf s = r at hloop ⊢
      obtain ⟨e | stop, buf', s'⟩ := r
      · exact hloop
      · exact hloop.setTable _

end

end EmitBuffer

namespace Checked

variable {σ : Type} {ext : Extern} {cols : List ColumnInfo}
  (flusher : EmitTable → σ → Except UdfError Unit × σ)

end Checked

end ExaUdf
