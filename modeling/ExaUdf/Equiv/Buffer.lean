import ExaUdf.Bridge
import ExaUdf.Equiv.EmitPack
import ExaUdf.Lib.Batching

/-!
# What the emit buffer hands over

Both paths into the emit buffer batch the rows by what they are charged: `pushOutputRow_eq_add` and
`pushBatch_eq_add` say that they are `Batching.add`, for every flusher and whether or not a flush
fails.  The columnar path charges a batch all at once where this stays below the threshold, and row
by row elsewhere.

What has been handed to the flusher and what is still buffered are together the rows that were
pushed, in order (`Holds`), and a flush happens at the row that brings the estimate to the
threshold, not later (`Threshold`).
-/

namespace ExaUdf

/-- The rows that pushing a batch adds; none when a column does not match. -/
def batchRows (ext : Extern) (cols : List ColumnInfo) (rowNumber : UInt64) (batch : RecordBatch) :
    List WireRow :=
  match buildAccessors ext batch cols with
  | .ok accs => (List.range batch.numRows).map (batchRow ext batch.columns accs rowNumber)
  | .error _ => []

theorem ColAccessor.cell_fits (ext : Extern) {data : ArrowData} {typ : ExaType} {acc : ColAccessor}
    (h : accessor? data typ = some acc) (r : Nat) : (acc.cell ext r).Fits typ := by
  cases data with
  | timestamp unit => cases unit <;> cases typ <;> cases h <;> rfl
  | _ => cases typ <;> cases h <;> rfl

theorem batchRow_fits (ext : Extern) {as : List ArrowArray} {cols : List ColumnInfo}
    {accs : List ColAccessor} (h : Matched as cols accs) (rowNumber : UInt64) (r : Nat) :
    (batchRow ext as accs rowNumber r).Fits cols := by
  show List.Forall₂ _ (List.zipWith (batchCell ext r) as accs) cols
  induction h with
  | nil => exact .nil
  | @cons a col acc as cols accs hacc _ ih =>
    rw [List.zipWith_cons_cons]
    refine .cons ?_ ih
    unfold batchCell
    split_ifs
    · trivial
    · exact acc.cell_fits ext hacc r

/-! ### Charged rows -/

/-- Rows, each with its own cost, and what they are charged together. -/
structure Charged where
  rows : List (WireRow × Nat)
  cost : Nat

/-- What row `r` of a batch costs. -/
def batchRowCost (batch : RecordBatch) (r : Nat) : Nat :=
  (batch.columns.map (cellCost · r)).sum + bytesRowNumber

namespace Charged

/-- A row that is charged its own cost. -/
def single (row : WireRow) (cost : Nat) : Charged :=
  ⟨[(row, cost)], cost⟩

/-- A row of a batch. -/
def ofBatchRow (ext : Extern) (batch : RecordBatch) (accs : List ColAccessor) (rowNumber : UInt64)
    (r : Nat) : Charged :=
  single (batchRow ext batch.columns accs rowNumber r) (batchRowCost batch r)

/-- A batch that is charged all at once. -/
def ofBatch (ext : Extern) (cols : List ColumnInfo) (batch : RecordBatch)
    (accs : List ColAccessor) (rowNumber : UInt64) : Charged where
  rows := (List.range batch.numRows).map fun r =>
    (batchRow ext batch.columns accs rowNumber r, batchRowCost batch r)
  cost := batchByteCost batch cols + batch.numRows * bytesRowNumber

/-- What rows are charged: the cost of its values, of its cells in the batch, or of the whole batch
at once. -/
inductive Priced (ext : Extern) (cols : List ColumnInfo) : Charged → Prop where
  | values {values : List Value} {cost : Nat} (rowNumber : UInt64) :
    checkOutputRow ext values cols = .ok cost →
    Priced ext cols (single (wireRow ext cols rowNumber values) cost)
  | cells {batch : RecordBatch} {accs : List ColAccessor} (rowNumber : UInt64) {r : Nat} :
    buildAccessors ext batch cols = .ok accs → r < batch.numRows →
    Priced ext cols (ofBatchRow ext batch accs rowNumber r)
  | batch {batch : RecordBatch} {accs : List ColAccessor} (rowNumber : UInt64) :
    buildAccessors ext batch cols = .ok accs →
      Priced ext cols (ofBatch ext cols batch accs rowNumber)

def rowsOf (cs : List Charged) : List WireRow :=
  cs.flatMap fun c => c.rows.map Prod.fst

def total (cs : List Charged) : Nat :=
  Batching.total cost cs

/-- The table with the rows of `cs`. -/
def tableOf (cs : List Charged) : EmitTable :=
  EmitTable.default.append (rowsOf cs)

@[simp] theorem rowsOf_append (as bs : List Charged) : rowsOf (as ++ bs) = rowsOf as ++ rowsOf bs :=
  List.flatMap_append

@[simp] theorem rowsOf_single (row : WireRow) (cost : Nat) : rowsOf [single row cost] = [row] := rfl

@[simp] theorem total_append (as bs : List Charged) : total (as ++ bs) = total as + total bs :=
  Batching.total_append as bs

@[simp] theorem total_singleton (c : Charged) : total [c] = c.cost :=
  Batching.total_singleton c

theorem tableOf_append (as bs : List Charged) :
    tableOf (as ++ bs) = (tableOf as).append (rowsOf bs) := by
  rw [tableOf, tableOf, rowsOf_append, EmitTable.append_append]

/-- The estimate reaches the threshold with the last row, and not before. -/
def Threshold (cs : List Charged) : Prop :=
  ∃ before row cost, cs = before ++ [single row cost] ∧ total before < emitBufferLimitBytes ∧
    emitBufferLimitBytes ≤ total before + cost

theorem Priced.fits {ext : Extern} {cols : List ColumnInfo} {c : Charged} (h : c.Priced ext cols) :
    ∀ p ∈ c.rows, p.1.Fits cols := by
  intro p hp
  cases h with
  | @values vs _ rowNumber =>
    rw [List.mem_singleton.mp hp]
    exact wireRow_fits ext cols rowNumber vs
  | cells rowNumber hacc =>
    rw [List.mem_singleton.mp hp]
    exact batchRow_fits ext (buildAccessors_matched hacc) rowNumber _
  | batch rowNumber hacc =>
    obtain ⟨r, -, rfl⟩ := List.mem_map.mp hp
    exact batchRow_fits ext (buildAccessors_matched hacc) rowNumber r

theorem rowsOf_fits {ext : Extern} {cols : List ColumnInfo} {cs : List Charged}
    (h : ∀ c ∈ cs, c.Priced ext cols) : ∀ row ∈ rowsOf cs, row.Fits cols := by
  intro row hrow
  obtain ⟨c, hc, hrow⟩ := List.mem_flatMap.mp hrow
  obtain ⟨p, hp, rfl⟩ := List.mem_map.mp hrow
  exact (h c hc).fits p hp

end Charged

open Charged

/-! ### Flushers -/

/-- `I done s` says that the rows `done` have been handed over, and `F` what is left of it when a
flush has failed. -/
def Delivers {σ : Type} (ext : Extern) (cols : List ColumnInfo)
    (flusher : EmitTable → σ → Except UdfError Unit × σ) (I F : List Charged → σ → Prop) : Prop :=
  ∀ done new s, (∀ c ∈ new, c.Priced ext cols) → Threshold new → I done s →
    match flusher (tableOf new) s with
    | (.ok (), s') => I (done ++ new) s'
    | (.error _, s') => F (done ++ new) s'

/-- Charge rows, and flush whenever the estimate reaches the threshold. -/
def addRows {σ : Type} (flusher : EmitTable → σ → Except UdfError Unit × σ) :
    List Charged → List Charged → σ → Except UdfError Unit × List Charged × σ :=
  Batching.add emitBufferLimitBytes cost fun cs => flusher (tableOf cs)

/-- What a batch is charged when the estimate is at `estimate`. -/
def batchCharges (ext : Extern) (cols : List ColumnInfo) (estimate : Nat) (batch : RecordBatch)
    (accs : List ColAccessor) (rowNumber : UInt64) : List Charged :=
  if estimate + (batchByteCost batch cols + batch.numRows * bytesRowNumber) < emitBufferLimitBytes
    then [ofBatch ext cols batch accs rowNumber]
  else (List.range batch.numRows).map (ofBatchRow ext batch accs rowNumber)

theorem rowsOf_ofBatch (ext : Extern) (cols : List ColumnInfo) (batch : RecordBatch)
    (accs : List ColAccessor) (rowNumber : UInt64) :
    rowsOf [ofBatch ext cols batch accs rowNumber]
      = (List.range batch.numRows).map (batchRow ext batch.columns accs rowNumber) := by
  simp [rowsOf, ofBatch]

theorem rowsOf_ofBatchRow (ext : Extern) (batch : RecordBatch) (accs : List ColAccessor)
    (rowNumber : UInt64) (rs : List Nat) :
    rowsOf (rs.map (ofBatchRow ext batch accs rowNumber))
      = rs.map (batchRow ext batch.columns accs rowNumber) := by
  rw [rowsOf, List.flatMap_map]
  exact List.map_eq_flatMap.symm

/-- However a batch is charged, its rows are the same. -/
theorem rowsOf_batchCharges {ext : Extern} {cols : List ColumnInfo} {batch : RecordBatch}
    {accs : List ColAccessor} {rowNumber : UInt64} (h : buildAccessors ext batch cols = .ok accs)
    (estimate : Nat) :
    rowsOf (batchCharges ext cols estimate batch accs rowNumber)
      = batchRows ext cols rowNumber batch := by
  unfold batchRows batchCharges
  rw [h]
  split_ifs
  · exact rowsOf_ofBatch ..
  · exact rowsOf_ofBatchRow ..

namespace EmitBuffer

/-- `push_output_row` over any flusher. -/
def pushOutputRow {σ : Type} (ext : Extern) (cols : List ColumnInfo) (buf : EmitBuffer)
    (rowNumber : UInt64) (flusher : EmitTable → σ → Except UdfError Unit × σ) (row : List Value)
    (s : σ) : Except UdfError Unit × EmitBuffer × σ :=
  match checkOutputRow ext row cols with
  | .error e => (.error e, buf, s)
  | .ok rowCost =>
    let buf := buf.pushCosted ext row rowNumber cols rowCost
    if buf.shouldFlush then buf.flush flusher s else (.ok (), buf, s)

/-- The buffer has the rows of `cs`, and what they are charged. -/
structure Buffers (buf : EmitBuffer) (cs : List Charged) : Prop where
  table : buf.table = tableOf cs
  byteEstimate : buf.byteEstimate = total cs

theorem buffers_new : Buffers new [] :=
  ⟨(EmitTable.append_nil _).symm, rfl⟩

theorem buffers_clear (buf : EmitBuffer) : Buffers buf.clear [] :=
  ⟨(EmitTable.append_nil _).symm, rfl⟩

/-- A call has done what batching does. -/
structure Batches {σ : Type} (r : Except UdfError Unit × EmitBuffer × σ)
    (a : Except UdfError Unit × List Charged × σ) : Prop where
  result : r.1 = a.1
  buffers : r.2.1.Buffers a.2.1
  state : r.2.2 = a.2.2

section

variable {σ : Type} {ext : Extern} {cols : List ColumnInfo} {waiting : List Charged}
  {buf : EmitBuffer} {flusher : EmitTable → σ → Except UdfError Unit × σ} (rowNumber : UInt64)
  (s : σ)

/-- **A flush** at the threshold. -/
theorem flush_batches (buf : EmitBuffer) (flusher : EmitTable → σ → Except UdfError Unit × σ)
    {cs : List Charged} (htable : buf.table = tableOf cs) :
    Batches (buf.flush flusher s) ((flusher (tableOf cs) s).1, [], (flusher (tableOf cs) s).2) := by
  unfold flush
  rw [htable]
  exact ⟨rfl, buffers_clear buf, rfl⟩

/-- **The row path** batches its row. -/
theorem pushOutputRow_eq_add (h : buf.Buffers waiting) {row : List Value} {cost : Nat}
    (hcost : checkOutputRow ext row cols = .ok cost) :
    Batches (buf.pushOutputRow ext cols rowNumber flusher row s)
      (addRows flusher [single (wireRow ext cols rowNumber row) cost] waiting s) := by
  have htable : (buf.pushCosted ext row rowNumber cols cost).table
      = tableOf (waiting ++ [single (wireRow ext cols rowNumber row) cost]) := by
    rw [pushCosted_table, h.table, tableOf_append]
    rfl
  have hbytes : (buf.pushCosted ext row rowNumber cols cost).byteEstimate
      = total (waiting ++ [single (wireRow ext cols rowNumber row) cost]) := by
    rw [total_append, ← h.byteEstimate]
    rfl
  unfold EmitBuffer.pushOutputRow addRows Batching.add shouldFlush
  rw [hcost]
  dsimp only
  rw [hbytes, ← total]
  by_cases hfull : emitBufferLimitBytes
      ≤ total (waiting ++ [single (wireRow ext cols rowNumber row) cost])
  · rw [if_pos (decide_eq_true hfull), if_pos hfull]
    have hflush := flush_batches s _ flusher htable
    generalize flusher _ s = r at hflush ⊢
    obtain ⟨e | u, s'⟩ := r <;> exact hflush
  · rw [if_neg (by simpa using hfull), if_neg hfull]
    exact ⟨rfl, ⟨htable, hbytes⟩, rfl⟩

/-! ### The columnar path -/

variable {batch : RecordBatch} {accs : List ColAccessor} {p : BatchPacker}

/-- Rows `start..stop` of a batch. -/
def rowsAt (ext : Extern) (batch : RecordBatch) (accs : List ColAccessor) (rowNumber : UInt64)
    (start stop : Nat) : List Charged :=
  (List.range' start (stop - start)).map (ofBatchRow ext batch accs rowNumber)

theorem rowsOf_rowsAt (start stop : Nat) :
    rowsOf (rowsAt ext batch accs rowNumber start stop)
      = (List.range' start (stop - start)).map (batchRow ext batch.columns accs rowNumber) :=
  rowsOf_ofBatchRow ..

theorem rowsAt_cons {start stop : Nat} (h : start < stop) :
    rowsAt ext batch accs rowNumber start stop
      = ofBatchRow ext batch accs rowNumber start
        :: rowsAt ext batch accs rowNumber (start + 1) stop := by
  rw [rowsAt, show stop - start = (stop - (start + 1)) + 1 by omega, List.range'_succ,
    List.map_cons]
  rfl

theorem rowsAt_append {start mid stop : Nat} (hlo : start ≤ mid) (hhi : mid ≤ stop) :
    rowsAt ext batch accs rowNumber start mid ++ rowsAt ext batch accs rowNumber mid stop
      = rowsAt ext batch accs rowNumber start stop := by
  unfold rowsAt
  rw [← List.map_append]
  congr 1
  obtain ⟨k, rfl⟩ := Nat.exists_eq_add_of_le hlo
  rw [Nat.add_sub_cancel_left, List.range'_append_1]
  congr 1
  omega

theorem rowsAt_self (start : Nat) : rowsAt ext batch accs rowNumber start start = [] := by
  rw [rowsAt, Nat.sub_self]
  rfl

theorem rowsAt_succ {start r : Nat} (h : start ≤ r) :
    rowsAt ext batch accs rowNumber start (r + 1)
      = rowsAt ext batch accs rowNumber start r ++ [ofBatchRow ext batch accs rowNumber r] := by
  rw [← rowsAt_append rowNumber h (Nat.le_succ r), rowsAt_cons rowNumber (Nat.lt_succ_self r),
    rowsAt_self]

/-- The loop over the costs.  The rows `start..r` are charged and not yet packed. -/
theorem pushBatchLoop_eq_add (hext : ext.Documented) (hp : BatchPacker.Made ext batch cols accs p)
    {packed : List Charged} {start r n : Nat} (hstart : start ≤ r) (hn : r + n = batch.numRows)
    (htable : buf.table = tableOf packed)
    (hbytes : buf.byteEstimate
      = total (packed ++ rowsAt ext batch accs rowNumber start r)) :
    let a := addRows flusher (rowsAt ext batch accs rowNumber r batch.numRows)
      (packed ++ rowsAt ext batch accs rowNumber start r) s
    match EmitBuffer.pushBatchLoop ext p rowNumber flusher
      ((List.range' r n).map fun r => (batch.columns.map (cellCost · r)).sum) r start buf s with
    | (.ok stop, buf', s') => a.1 = .ok () ∧ s' = a.2.2 ∧ stop ≤ batch.numRows ∧
        ∃ packed', a.2.1 = packed' ++ rowsAt ext batch accs rowNumber stop batch.numRows ∧
          buf'.table = tableOf packed' ∧ buf'.byteEstimate = total a.2.1
    | (.error e, buf', s') => Batches (.error e, buf', s') a := by
  -- By induction on the rows that are left; a flush moves what is charged into `packed`.
  induction n generalizing start r buf s packed with
  | zero =>
    rw [Nat.add_zero] at hn
    subst hn
    rw [rowsAt_self]
    exact ⟨rfl, rfl, hstart, packed, rfl, htable, hbytes⟩
  | succ n ih =>
    have hr : r < batch.numRows := by omega
    rw [rowsAt_cons rowNumber hr, List.range'_succ, List.map_cons]
    unfold EmitBuffer.pushBatchLoop addRows Batching.add
    dsimp only
    have hcharged : (buf.account 1 ((batch.columns.map (cellCost · r)).sum
        + bytesRowNumber)).byteEstimate
          = total (packed ++ rowsAt ext batch accs rowNumber start (r + 1)) := by
      rw [rowsAt_succ rowNumber hstart, ← List.append_assoc, total_append, ← hbytes]
      rfl
    have hshould : (buf.account 1 ((batch.columns.map (cellCost · r)).sum
        + bytesRowNumber)).shouldFlush = decide (emitBufferLimitBytes
          ≤ total (packed ++ rowsAt ext batch accs rowNumber start (r + 1))) := by
      unfold shouldFlush
      rw [hcharged]
    rw [List.append_assoc, ← rowsAt_succ rowNumber hstart, hshould, ← total]
    -- Row `r` brings the estimate to the threshold, or stays below it like the rows before.
    by_cases hfull : emitBufferLimitBytes
        ≤ total (packed ++ rowsAt ext batch accs rowNumber start (r + 1))
    · rw [if_pos (decide_eq_true hfull), if_pos hfull]
      have hpacked : p.pack ext start (r + 1) rowNumber buf.table
          = tableOf (packed ++ rowsAt ext batch accs rowNumber start (r + 1)) := by
        rw [hp.pack_eq hext hr rowNumber buf.table, htable, tableOf_append, rowsOf_rowsAt]
      have hflush := flush_batches s { buf.account 1
        ((batch.columns.map (cellCost · r)).sum + bytesRowNumber) with
          table := p.pack ext start (r + 1) rowNumber (buf.account 1
            ((batch.columns.map (cellCost · r)).sum + bytesRowNumber)).table } flusher hpacked
      generalize EmitBuffer.flush flusher _ s = flushed at hflush ⊢
      obtain ⟨res, buf', s'⟩ := flushed
      obtain ⟨hres, hbuf, hs⟩ := hflush
      generalize flusher _ s = sent at hres hs ⊢
      obtain ⟨sent, s''⟩ := sent
      obtain rfl : res = sent := hres
      obtain rfl : s' = s'' := hs
      cases res with
      | error e => exact ⟨rfl, hbuf, rfl⟩
      | ok u =>
        have hrest := ih s' (Nat.le_refl (r + 1)) (by omega) hbuf.table
          (by rw [rowsAt_self]; exact hbuf.byteEstimate)
        rw [rowsAt_self] at hrest
        exact hrest
    · rw [if_neg (by simpa using hfull), if_neg hfull]
      exact ih s (by omega) (by omega) htable hcharged

/-- **The columnar path** batches the rows of its batch. -/
theorem pushBatch_eq_add (hext : ext.Documented) (h : buf.Buffers waiting)
    (hrows : batch.numRows ≠ 0) (hacc : buildAccessors ext batch cols = .ok accs) :
    Batches (buf.pushBatch ext batch cols rowNumber flusher s)
      (addRows flusher (batchCharges ext cols (total waiting) batch accs rowNumber) waiting s) := by
  unfold EmitBuffer.pushBatch batchCharges
  rw [if_neg hrows]
  cases hnew : BatchPacker.new ext batch cols with
  | error e =>
    unfold BatchPacker.new at hnew
    rw [hacc] at hnew
    cases hnew
  | ok p =>
    obtain ⟨accs', hacc', hp⟩ := BatchPacker.new_eq_ok hnew
    obtain rfl : accs = accs' := Except.ok.inj (hacc.symm.trans hacc')
    have hcost : p.byteCost = batchByteCost batch cols := by
      rw [BatchPacker.byteCost, hp.batch_eq, hp.cols_eq]
    dsimp only
    rw [h.byteEstimate, hcost]
    -- Either the batch fits as a whole, or the loop over its rows decides where to flush.
    split_ifs with hfits
    · have hadd := Batching.add_of_lt _ cost (fun cs => flusher (tableOf cs)) s
        (x := ofBatch ext cols batch accs rowNumber) hfits
      rw [addRows, hadd]
      refine ⟨rfl, ⟨?_, ?_⟩, rfl⟩
      · have hpack := @BatchPacker.Made.pack_eq ext batch cols accs p hext hp 0 batch.numRows
          (Nat.le_refl _) rowNumber buf.table
        rw [Nat.sub_zero, ← List.range_eq_range'] at hpack
        rw [tableOf_append, ← h.table, rowsOf_ofBatch]
        exact hpack
      · rw [total_append, total_singleton, ← h.byteEstimate]
        rfl
    · have hcosts : p.rowCosts = (List.range' 0 batch.numRows).map fun r =>
          (batch.columns.map (cellCost · r)).sum := by
        rw [BatchPacker.rowCosts, hp.batch_eq, hp.cols_eq,
          computeRowCosts_eq hp.matched.length_columns, List.range_eq_range']
      have hbytes : buf.byteEstimate
          = total (waiting ++ rowsAt ext batch accs rowNumber 0 0) := by
        rw [rowsAt_self, List.append_nil]
        exact h.byteEstimate
      have hloop := @pushBatchLoop_eq_add σ ext cols buf flusher rowNumber s batch accs p hext hp
        waiting 0 0 batch.numRows (Nat.le_refl 0) (Nat.zero_add _) h.table hbytes
      have hall : rowsAt ext batch accs rowNumber 0 batch.numRows
          = (List.range batch.numRows).map (ofBatchRow ext batch accs rowNumber) := by
        rw [rowsAt, Nat.sub_zero, List.range_eq_range']
      rw [rowsAt_self, List.append_nil, hall] at hloop
      rw [hcosts]
      dsimp only at hloop
      split <;> rename_i hres <;> rw [hres] at hloop
      · exact hloop
      -- What the loop has charged after the last flush is packed in one go.
      · obtain ⟨hok, hs, hstop, packed, hwaiting, htable, hbytes⟩ := hloop
        refine ⟨hok.symm, ⟨?_, hbytes⟩, hs⟩
        rw [hwaiting, tableOf_append, rowsOf_rowsAt, ← htable]
        exact hp.pack_eq hext (Nat.le_refl _) rowNumber _

/-- A batch that does not match the declared columns leaves everything as it is. -/
theorem pushBatch_error (hrows : batch.numRows ≠ 0) {e : UdfError}
    (hacc : buildAccessors ext batch cols = .error e) :
    buf.pushBatch ext batch cols rowNumber flusher s = (.error e, buf, s) := by
  unfold EmitBuffer.pushBatch BatchPacker.new
  rw [if_neg hrows, hacc]
  rfl

end

/-! ### The invariant of the emit buffer -/

/-- The rows `all` are those handed over and those buffered, and the buffered ones stay below the
threshold. -/
def Holds {σ : Type} (ext : Extern) (cols : List ColumnInfo) (I : List Charged → σ → Prop)
    (all : List Charged) (buf : EmitBuffer) (s : σ) : Prop :=
  ∃ done waiting, all = done ++ waiting ∧ buf.Buffers waiting ∧
    total waiting < emitBufferLimitBytes ∧ (∀ c ∈ waiting, c.Priced ext cols) ∧ I done s

/-- What a call that pushes `rows` leaves.  If it fails, either nothing was pushed, or the rows up
to some row were, and the buffer is empty after the flush that failed at that row. -/
def Pushed {σ : Type} (ext : Extern) (cols : List ColumnInfo) (I F : List Charged → σ → Prop)
    (all : List Charged) (rows : List WireRow) (buf : EmitBuffer) (s : σ)
    (r : Except UdfError Unit × EmitBuffer × σ) : Prop :=
  match r.1 with
  | .ok () => ∃ new, rowsOf new = rows ∧ r.2.1.Holds ext cols I (all ++ new) r.2.2
  | .error _ => r.2 = (buf, s) ∨ ∃ new, rowsOf new <+: rows ∧ rowsOf new ≠ [] ∧
      r.2.1.Buffers [] ∧ F (all ++ new) r.2.2

section

variable {σ : Type} {ext : Extern} {cols : List ColumnInfo} {I F : List Charged → σ → Prop}
  {all : List Charged} {buf : EmitBuffer} {s : σ}

/-- An empty buffer. -/
theorem Holds.of_empty (h : I all s) (hbuf : buf.Buffers []) : buf.Holds ext cols I all s :=
  ⟨all, [], (List.append_nil all).symm, hbuf, by decide, fun _ hc => absurd hc List.not_mem_nil, h⟩

/-- An empty buffer has handed everything over. -/
theorem Holds.of_isEmpty (h : buf.Holds ext cols I all s) (hempty : buf.isEmpty = true) :
    ∃ done, rowsOf done = rowsOf all ∧ I done s := by
  obtain ⟨done, waiting, rfl, hbuf, -, -, hI⟩ := h
  have hrows : (tableOf waiting).rows = 0 := by
    rw [← hbuf.table]
    simpa [EmitBuffer.isEmpty] using hempty
  have hnone : rowsOf waiting = [] := by
    rw [tableOf, EmitTable.append_rows] at hrows
    exact List.eq_nil_of_length_eq_zero (by omega)
  exact ⟨done, by rw [rowsOf_append, hnone, List.append_nil], hI⟩

theorem Holds.mono {I' : List Charged → σ → Prop} {s' : σ} (h : buf.Holds ext cols I all s)
    (himp : ∀ done, done <+: all → I done s → I' done s') : buf.Holds ext cols I' all s' := by
  obtain ⟨done, waiting, rfl, hbuf, hbelow, hpriced, hI⟩ := h
  exact ⟨done, waiting, rfl, hbuf, hbelow, hpriced, himp done (List.prefix_append _ _) hI⟩

variable {flusher : EmitTable → σ → Except UdfError Unit × σ} (rowNumber : UInt64)

/-- What batching rows leaves. -/
theorem Holds.addRows (hflusher : Delivers ext cols flusher I F) {done waiting new : List Charged}
    (hnew : ∀ c ∈ new, c.Priced ext cols ∧ ∃ row cost, c = single row cost)
    (hbelow : total waiting < emitBufferLimitBytes) (hwaiting : ∀ c ∈ waiting, c.Priced ext cols)
    (hI : I done s) {r : Except UdfError Unit × EmitBuffer × σ}
    (hr : Batches r (addRows flusher new waiting s)) {b : EmitBuffer} :
    Pushed ext cols I F (done ++ waiting) (rowsOf new) b s r := by
  have hadd := Batching.add_rule (fun cs => flusher (tableOf cs)) (I := I) (F := F)
    (P := fun c => c.Priced ext cols)
    (Q := fun c => c.Priced ext cols ∧ ∃ row cost, c = single row cost) (fun c hc => hc.1) ?_
    done hnew hwaiting hbelow hI
  · obtain ⟨res, buf', s'⟩ := r
    obtain ⟨hres, hbuf, hs⟩ := hr
    unfold ExaUdf.addRows at hres hbuf hs
    generalize Batching.add _ _ _ _ _ _ = a at hadd hres hbuf hs
    obtain ⟨res', waiting', s''⟩ := a
    obtain rfl : res = res' := hres
    obtain rfl : s' = s'' := hs
    cases res with
    | error e =>
      -- The flush that failed was at the last of the rows taken.
      obtain ⟨rfl, taken, ⟨rest, hrest⟩, hne, hF⟩ := hadd
      refine .inr ⟨taken, ?_, fun hnone => ?_, hbuf, hF⟩
      · rw [← hrest, rowsOf_append]
        exact List.prefix_append _ _
      · obtain ⟨c, hc⟩ := List.exists_mem_of_ne_nil taken hne
        obtain ⟨-, row, cost, rfl⟩ := hnew c (hrest ▸ List.mem_append_left _ hc)
        exact List.cons_ne_nil _ _ (List.flatMap_eq_nil_iff.mp hnone _ hc)
    | ok u =>
      obtain ⟨done', heq, hlt, hpriced, hI'⟩ := hadd
      exact ⟨new, rfl, done', waiting', heq.symm, hbuf, hlt, hpriced, hI'⟩
  · rintro done before x s ⟨hx, row, cost, rfl⟩ hbefore hlt hfull hI
    have hpriced : ∀ c ∈ before ++ [single row cost], c.Priced ext cols := by
      intro c hc
      rcases List.mem_append.mp hc with hc | hc
      · exact hbefore c hc
      · exact List.mem_singleton.mp hc ▸ hx
    have hsent := hflusher done _ s hpriced ⟨before, row, cost, rfl, hlt, hfull⟩ hI
    generalize flusher _ s = r at hsent ⊢
    obtain ⟨e | u, s'⟩ := r <;> exact hsent

/-- **The row path** pushes one row. -/
theorem Holds.pushOutputRow (hflusher : Delivers ext cols flusher I F)
    (h : buf.Holds ext cols I all s) (row : List Value) :
    Pushed ext cols I F all [wireRow ext cols rowNumber row] buf s
      (buf.pushOutputRow ext cols rowNumber flusher row s) := by
  cases hcost : checkOutputRow ext row cols with
  | error e =>
    unfold EmitBuffer.pushOutputRow
    rw [hcost]
    exact .inl rfl
  | ok cost =>
    obtain ⟨done, waiting, rfl, hbuf, hbelow, hpriced, hI⟩ := h
    refine Holds.addRows hflusher (fun c hc => ?_) hbelow hpriced hI
      (pushOutputRow_eq_add rowNumber s hbuf hcost)
    obtain rfl := List.mem_singleton.mp hc
    exact ⟨.values rowNumber hcost, _, cost, rfl⟩

/-- **The columnar path** pushes the rows of a batch. -/
theorem Holds.pushBatch (hext : ext.Documented) (hflusher : Delivers ext cols flusher I F)
    (h : buf.Holds ext cols I all s) (batch : RecordBatch) :
    Pushed ext cols I F all (batchRows ext cols rowNumber batch) buf s
      (buf.pushBatch ext batch cols rowNumber flusher s) := by
  by_cases hrows : batch.numRows = 0
  · unfold EmitBuffer.pushBatch batchRows
    rw [if_pos hrows, hrows]
    refine ⟨[], ?_, by rwa [List.append_nil]⟩
    cases buildAccessors ext batch cols <;> rfl
  cases hacc : buildAccessors ext batch cols with
  | error e =>
    rw [pushBatch_error rowNumber s hrows hacc]
    exact .inl rfl
  | ok accs =>
    obtain ⟨done, waiting, rfl, hbuf, hbelow, hpriced, hI⟩ := h
    have hbatches := @pushBatch_eq_add σ ext cols waiting _ flusher rowNumber s batch accs hext hbuf
      hrows hacc
    rw [← rowsOf_batchCharges hacc (total waiting)]
    unfold batchCharges at hbatches ⊢
    split_ifs at hbatches ⊢ with hfits
    · -- The whole batch stays below the threshold, so nothing is handed over.
      rw [ExaUdf.addRows, Batching.add_of_lt _ _ _ s hfits] at hbatches
      obtain ⟨hres, hbuf', hs⟩ := hbatches
      generalize EmitBuffer.pushBatch _ _ _ _ _ _ _ = r at hres hbuf' hs
      obtain ⟨res, buf', s'⟩ := r
      obtain rfl : res = .ok () := hres
      obtain rfl : s' = s := hs
      refine ⟨_, rfl, done, _, List.append_assoc _ _ _, hbuf', ?_, fun c hc => ?_, hI⟩
      · rw [total_append, total_singleton]
        exact hfits
      · rcases List.mem_append.mp hc with hc | hc
        · exact hpriced c hc
        · exact List.mem_singleton.mp hc ▸ .batch rowNumber hacc
    · refine Holds.addRows hflusher (fun c hc => ?_) hbelow hpriced hI hbatches
      obtain ⟨r, hr, rfl⟩ := List.mem_map.mp hc
      exact ⟨.cells rowNumber hacc (List.mem_range.mp hr), _, _, rfl⟩

end

end EmitBuffer

/-! ### Either path -/

/-- Rows that are pushed. -/
inductive Push where
  | row (rowNumber : UInt64) (values : List Value)
  | batch (rowNumber : UInt64) (batch : RecordBatch)

namespace Push

variable {σ : Type} (ext : Extern) (cols : List ColumnInfo)

def run (p : Push) (flusher : EmitTable → σ → Except UdfError Unit × σ) (buf : EmitBuffer)
    (s : σ) : Except UdfError Unit × EmitBuffer × σ :=
  match p with
  | row rowNumber values => buf.pushOutputRow ext cols rowNumber flusher values s
  | batch rowNumber b => buf.pushBatch ext b cols rowNumber flusher s

/-- The rows that there are to pack, each with its cost; none if they are rejected. -/
def pricedRows : Push → List (WireRow × Nat)
  | row rowNumber values =>
    match checkOutputRow ext values cols with
    | .ok cost => [(wireRow ext cols rowNumber values, cost)]
    | .error _ => []
  | batch rowNumber b =>
    match buildAccessors ext b cols with
    | .ok accs => (List.range b.numRows).map fun r =>
      (batchRow ext b.columns accs rowNumber r, batchRowCost b r)
    | .error _ => []

def rows (p : Push) : List WireRow :=
  (p.pricedRows ext cols).map Prod.fst

theorem rows_batch (rowNumber : UInt64) (b : RecordBatch) :
    (batch rowNumber b).rows ext cols = batchRows ext cols rowNumber b := by
  unfold rows pricedRows batchRows
  dsimp only
  split
  · rw [List.map_map]
    rfl
  · rfl

end Push

open EmitBuffer in
/-- **A push**, on either path. -/
theorem EmitBuffer.Holds.push {σ : Type} {ext : Extern} {cols : List ColumnInfo}
    {I F : List Charged → σ → Prop} {all : List Charged} {buf : EmitBuffer} {s : σ}
    {flusher : EmitTable → σ → Except UdfError Unit × σ} (hext : ext.Documented)
    (hflusher : Delivers ext cols flusher I F) (h : buf.Holds ext cols I all s) (p : Push) :
    Pushed ext cols I F all (p.rows ext cols) buf s (p.run ext cols flusher buf s) := by
  cases p with
  | row rowNumber values =>
    have hpush := h.pushOutputRow rowNumber hflusher values
    unfold Push.rows Push.pricedRows
    dsimp only
    cases hcost : checkOutputRow ext values cols with
    | error e =>
      unfold Push.run EmitBuffer.pushOutputRow
      dsimp only
      rw [hcost]
      exact .inl rfl
    | ok cost => exact hpush
  | batch rowNumber batch =>
    rw [Push.rows_batch]
    exact h.pushBatch rowNumber hext hflusher batch

end ExaUdf
