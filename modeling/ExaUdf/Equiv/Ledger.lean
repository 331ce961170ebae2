import ExaUdf.Equiv.Buffer

/-!
# The books of the emit buffer

A ledger says what the emit buffer is for, without blocks: rows wait with what they are charged
until a threshold is reached, and are then handed over together.  `runCalls_refines` says that every
sequence of calls does to the buffer what it does to the ledger, for every flusher.

`runCalls_sound` reads the invariant of the buffer off its ledger: how long each block is, that the
byte estimate covers the cost of each row and stays below the threshold, and that every table of a
threshold flush reaches the threshold with its last row.
-/

namespace ExaUdf

open Charged

/-! ### What a table has -/

/-- The number of entries in a block. -/
def EmitTable.entries (t : EmitTable) : Block → Option Nat
  | .string => t.stringCells.map List.length
  | .bool => some t.bools.length
  | .int32 => some t.int32.length
  | .int64 => some t.int64.length
  | .double => some t.doubles.length
  | .none => some 0

/-- The number of cells, in columns of a block, that the bitmap does not say are NULL. -/
def EmitTable.present (cols : List ColumnInfo) (t : EmitTable) (block : Block) : Nat :=
  ((List.range t.rows).map fun r => cols.zipIdx.countP fun p =>
    decide (p.1.typ.block = block) && t.nulls[nullIndex r p.2 cols.length]? == some false).sum

/-- The block that has an entry for the cell. -/
def WireCell.block? : WireCell → Option Block
  | .null => none
  | .string _ => some .string
  | .bool _ => some .bool
  | .int32 _ => some .int32
  | .int64 _ => some .int64
  | .double _ => some .double
  | .skipped => some .none

theorem WireCell.block?_of_fits {typ : ExaType} {cell : WireCell} (h : cell.Fits typ) :
    cell.block? = if cell.isNull then none else some typ.block := by
  cases cell with
  | null => rfl
  | _ => exact congrArg some h.symm

theorem WireRow.Fits.length_cells {cols : List ColumnInfo} {row : WireRow} (h : row.Fits cols) :
    row.cells.length = cols.length :=
  List.Forall₂.length_eq h

/-- The entries of a block are its cells. -/
theorem entries_append (rows : List WireRow) {block : Block} (hblock : block ≠ .none) :
    (EmitTable.default.append rows).entries block
      = some ((rows.flatMap WireRow.cells).countP (·.block? == some block)) := by
  have hcount : ∀ {α : Type} (pick : WireCell → Option α) (cells : List WireCell),
      (∀ cell, (pick cell).isSome = (cell.block? == some block)) →
      (cells.filterMap pick).length = cells.countP (·.block? == some block) := by
    intro α pick cells hpick
    rw [List.length_filterMap_eq_countP]
    exact List.countP_congr fun cell _ => by rw [hpick]
  cases block with
  | none => exact absurd rfl hblock
  | string =>
    rw [EmitTable.entries, EmitTable.stringCells_append, Option.map_some]
    exact congrArg some (hcount _ _ fun cell => by cases cell <;> rfl)
  | bool => exact congrArg some (hcount _ _ fun cell => by cases cell <;> rfl)
  | int32 => exact congrArg some (hcount _ _ fun cell => by cases cell <;> rfl)
  | int64 => exact congrArg some (hcount _ _ fun cell => by cases cell <;> rfl)
  | double => exact congrArg some (hcount _ _ fun cell => by cases cell <;> rfl)

/-- The cells of a row that are not NULL, column by column. -/
theorem countP_zipIdx_of_fits {cols : List ColumnInfo} {cells : List WireCell}
    (h : List.Forall₂ (fun cell col => WireCell.Fits col.typ cell) cells cols) (block : Block)
    (null? : Nat → Option Bool) {k : Nat}
    (hnull : ∀ c < cells.length, null? (k + c) = cells[c]?.map WireCell.isNull) :
    (cols.zipIdx k).countP (fun p => decide (p.1.typ.block = block) && null? p.2 == some false)
      = cells.countP (·.block? == some block) := by
  induction h generalizing k with
  | nil => rfl
  | @cons cell col cells cols hcell _ ih =>
    have hrest := @ih (k + 1) fun c hc => by
      have hnext := hnull (c + 1) (Nat.succ_lt_succ hc)
      rwa [Nat.add_left_comm, Nat.add_comm c, List.getElem?_cons_succ] at hnext
    have hfirst := hnull 0 (Nat.succ_pos _)
    rw [Nat.add_zero, List.getElem?_cons_zero, Option.map_some] at hfirst
    rw [List.zipIdx_cons, List.countP_cons, List.countP_cons, hrest, hfirst,
      WireCell.block?_of_fits hcell]
    congr 1
    cases cell.isNull <;> simp

/-- The cells of a table that are not NULL. -/
theorem present_append {cols : List ColumnInfo} {rows : List WireRow}
    (h : ∀ row ∈ rows, row.Fits cols) (block : Block) :
    (EmitTable.default.append rows).present cols block
      = (rows.flatMap WireRow.cells).countP (·.block? == some block) := by
  have hlen : ∀ row ∈ rows, (row.cells.map WireCell.isNull).length = cols.length := by
    intro row hrow
    rw [List.length_map, (h row hrow).length_cells]
  have hnulls : (EmitTable.default.append rows).nulls
      = rows.flatMap fun row => row.cells.map WireCell.isNull := by
    show [] ++ (rows.flatMap WireRow.cells).map WireCell.isNull = _
    rw [List.nil_append, List.map_flatMap]
  rw [List.countP_flatMap, EmitTable.present, hnulls, EmitTable.append_rows]
  congr 1
  apply List.ext_getElem
  · simp [EmitTable.default]
  · intro r hr hr'
    rw [List.length_map] at hr'
    have hrow := h rows[r] (List.getElem_mem hr')
    rw [List.getElem_map, List.getElem_range, List.getElem_map]
    refine countP_zipIdx_of_fits hrow block
      (fun c => (rows.flatMap fun row => row.cells.map WireCell.isNull)[nullIndex r c cols.length]?)
      fun c hc => ?_
    rw [hrow.length_cells] at hc
    rw [Nat.zero_add, nullIndex, RowMajor.getElem?_flatMap hlen r hc, List.getElem?_eq_getElem hr',
      Option.bind_some, List.getElem?_map]

/-! ### Calls -/

/-- A call of the emit buffer. -/
inductive BufferCall where
  | push (p : Push)
  | flush
  | clear

/-- A receiver that notes what it is given. -/
def noting {α σ : Type} (send : α → σ → Except UdfError Unit × σ) (x : α) (s : σ × List α) :
    Except UdfError Unit × σ × List α :=
  let r := send x s.1
  (r.1, r.2, s.2 ++ [x])

variable {σ : Type} (ext : Extern) (cols : List ColumnInfo)
  (flusher : EmitTable → σ → Except UdfError Unit × σ)

/-- What the rows are charged; an error if they are rejected. -/
def Push.charges (waiting : List Charged) : Push → Except UdfError (List Charged)
  | row rowNumber values => (checkOutputRow ext values cols).map fun cost =>
    [single (wireRow ext cols rowNumber values) cost]
  | batch rowNumber b =>
    if b.numRows = 0 then .ok []
    else (buildAccessors ext b cols).map fun accs =>
      batchCharges ext cols (total waiting) b accs rowNumber

namespace BufferCall

/-- Make a call, noting the tables of threshold flushes. -/
def run (call : BufferCall) (buf : EmitBuffer) (s : σ × List EmitTable) :
    Except UdfError Unit × EmitBuffer × σ × List EmitTable :=
  match call with
  | push p => p.run ext cols (noting flusher) buf s
  | flush =>
    let r := buf.flush flusher s.1
    (r.1, r.2.1, r.2.2, s.2)
  | clear => (.ok (), buf.clear, s)

/-- Enter a call in the ledger, noting the rows of threshold flushes. -/
def enter (call : BufferCall) (waiting : List Charged) (s : σ × List (List Charged)) :
    Except UdfError Unit × List Charged × σ × List (List Charged) :=
  match call with
  | push p =>
    match p.charges ext cols waiting with
    | .error e => (.error e, waiting, s)
    | .ok new => Batching.add emitBufferLimitBytes cost (noting fun cs => flusher (tableOf cs)) new
      waiting s
  | flush =>
    let r := flusher (tableOf waiting) s.1
    (r.1, [], r.2, s.2)
  | clear => (.ok (), [], s)

end BufferCall

/-- The buffer, the flusher's state, and the tables of the threshold flushes. -/
def runCalls (calls : List BufferCall) (b : EmitBuffer × σ × List EmitTable) :
    EmitBuffer × σ × List EmitTable :=
  calls.foldl (fun b call => (call.run ext cols flusher b.1 b.2).2) b

/-- The rows that wait, the flusher's state, and the rows of the threshold flushes. -/
def enterCalls (calls : List BufferCall) (l : List Charged × σ × List (List Charged)) :
    List Charged × σ × List (List Charged) :=
  calls.foldl (fun l call => (call.enter ext cols flusher l.1 l.2).2) l

/-! ### The ledger is right about the buffer -/

/-- The ledger agrees with the buffer, the flusher and the tables. -/
structure Agrees (b : EmitBuffer × σ × List EmitTable)
    (l : List Charged × σ × List (List Charged)) : Prop where
  buffers : b.1.Buffers l.1
  state : b.2.1 = l.2.1
  tables : b.2.2 = l.2.2.map tableOf

theorem agrees_new (s : σ) : Agrees (EmitBuffer.new, s, []) ([], s, []) :=
  ⟨EmitBuffer.buffers_new, rfl, rfl⟩

variable {ext cols} {b : EmitBuffer × σ × List EmitTable}
  {l : List Charged × σ × List (List Charged)}

theorem Agrees.of_batches (h : Agrees b l) {new : List Charged}
    {r : Except UdfError Unit × EmitBuffer × σ × List EmitTable}
    (hr : EmitBuffer.Batches r (addRows (noting flusher) new l.1 b.2)) :
    let a := Batching.add emitBufferLimitBytes cost (noting fun cs => flusher (tableOf cs)) new
      l.1 l.2
    r.1 = a.1 ∧ Agrees r.2 a.2 := by
  have hsim := Batching.add_sim emitBufferLimitBytes cost (fun cs => noting flusher (tableOf cs))
    (noting fun cs => flusher (tableOf cs))
    (S := fun s t => s.1 = t.1 ∧ s.2 = t.2.map tableOf) ?_ new l.1 (s := b.2) (t := l.2)
    ⟨h.state, h.tables⟩
  · obtain ⟨hres, hwaiting, hstate, htables⟩ := hsim
    exact ⟨hr.result.trans hres, hwaiting ▸ hr.buffers, (congrArg Prod.fst hr.state).trans hstate,
      (congrArg Prod.snd hr.state).trans htables⟩
  · rintro cs s t ⟨hstate, htables⟩
    unfold noting
    rw [hstate, htables]
    exact ⟨rfl, rfl, by simp⟩

/-- **A call does to the buffer what it does to the ledger.** -/
theorem BufferCall.run_refines (hext : ext.Documented) (call : BufferCall) (h : Agrees b l) :
    (call.run ext cols flusher b.1 b.2).1 = (call.enter ext cols flusher l.1 l.2).1 ∧
      Agrees (call.run ext cols flusher b.1 b.2).2 (call.enter ext cols flusher l.1 l.2).2 := by
  unfold run enter
  cases call with
  | push p =>
    unfold Push.run Push.charges
    cases p with
    | row rowNumber values =>
      dsimp only
      cases hcost : checkOutputRow ext values cols with
      | error e =>
        unfold EmitBuffer.pushOutputRow
        rw [hcost]
        exact ⟨rfl, h⟩
      | ok cost =>
        exact h.of_batches flusher (EmitBuffer.pushOutputRow_eq_add rowNumber b.2 h.buffers hcost)
    | batch rowNumber batch =>
      dsimp only
      split_ifs with hrows
      · unfold EmitBuffer.pushBatch
        rw [if_pos hrows]
        exact ⟨rfl, h⟩
      cases hacc : buildAccessors ext batch cols with
      | error e =>
        rw [EmitBuffer.pushBatch_error rowNumber b.2 hrows hacc]
        exact ⟨rfl, h⟩
      | ok accs =>
        exact h.of_batches flusher
          (EmitBuffer.pushBatch_eq_add rowNumber b.2 hext h.buffers hrows hacc)
  | flush =>
    unfold EmitBuffer.flush
    rw [h.buffers.table, h.state]
    exact ⟨rfl, EmitBuffer.buffers_clear b.1, rfl, h.tables⟩
  | clear => exact ⟨rfl, EmitBuffer.buffers_clear b.1, h.state, h.tables⟩

/-- **Every sequence of calls does to the buffer what it does to the ledger.** -/
theorem runCalls_refines (hext : ext.Documented) (calls : List BufferCall) (h : Agrees b l) :
    Agrees (runCalls ext cols flusher calls b) (enterCalls ext cols flusher calls l) := by
  induction calls generalizing b l with
  | nil => exact h
  | cons call calls ih => exact ih (call.run_refines flusher hext h).2

/-! ### The invariant -/

/-- A push charges single rows, or a batch at once that stays below the threshold. -/
theorem Push.charges_spec {p : Push} {waiting new : List Charged}
    (h : p.charges ext cols waiting = .ok new) :
    (∀ c ∈ new, c.Priced ext cols ∧ ∀ q ∈ c.rows, q ∈ p.pricedRows ext cols) ∧
      ((∀ c ∈ new, ∃ row cost, c = single row cost) ∨
        ∃ c, new = [c] ∧ total waiting + c.cost < emitBufferLimitBytes) := by
  unfold charges at h
  unfold pricedRows
  cases p with
  | row rowNumber values =>
    dsimp only at h ⊢
    cases hcost : checkOutputRow ext values cols with
    | error e =>
      rw [hcost] at h
      cases h
    | ok cost =>
      rw [hcost] at h
      obtain rfl := Except.ok.inj h
      refine ⟨fun c hc => ?_, .inl fun c hc => ⟨_, cost, List.mem_singleton.mp hc⟩⟩
      obtain rfl := List.mem_singleton.mp hc
      exact ⟨.values rowNumber hcost, fun q hq => hq⟩
  | batch rowNumber batch =>
    dsimp only at h ⊢
    split_ifs at h with hrows
    · cases h
      exact ⟨fun _ hc => absurd hc List.not_mem_nil, .inl fun _ hc => absurd hc List.not_mem_nil⟩
    cases hacc : buildAccessors ext batch cols with
    | error e =>
      rw [hacc] at h
      cases h
    | ok accs =>
      rw [hacc] at h
      obtain rfl := Except.ok.inj h
      unfold batchCharges
      -- The batch is charged at once only where that stays below the threshold.
      split_ifs with hfits
      · refine ⟨fun c hc => ?_, .inr ⟨_, rfl, hfits⟩⟩
        obtain rfl := List.mem_singleton.mp hc
        exact ⟨.batch rowNumber hacc, fun q hq => hq⟩
      · refine ⟨fun c hc => ?_, .inl fun c hc => ?_⟩
        · obtain ⟨r, hr, rfl⟩ := List.mem_map.mp hc
          refine ⟨.cells rowNumber hacc (List.mem_range.mp hr), fun q hq => ?_⟩
          obtain rfl := List.mem_singleton.mp hq
          exact List.mem_map.mpr ⟨r, hr, rfl⟩
        · obtain ⟨r, -, rfl⟩ := List.mem_map.mp hc
          exact ⟨_, _, rfl⟩

/-- The books are in order, and everything in them is as `P` says. -/
structure Balanced (P : Charged → Prop) (l : List Charged × σ × List (List Charged)) : Prop where
  below : total l.1 < emitBufferLimitBytes
  waiting : ∀ c ∈ l.1, P c
  handed : ∀ cs ∈ l.2.2, Threshold cs ∧ ∀ c ∈ cs, P c

variable {P : Charged → Prop}

theorem balanced_of_nil (s : σ × List (List Charged))
    (hhanded : ∀ cs ∈ s.2, Threshold cs ∧ ∀ c ∈ cs, P c) : Balanced P ([], s) :=
  ⟨show total [] < emitBufferLimitBytes by decide, fun _ h => absurd h List.not_mem_nil, hhanded⟩

/-- Charging single rows keeps the books in order. -/
theorem Balanced.add (h : Balanced P l) {new : List Charged}
    (hnew : ∀ c ∈ new, P c ∧ ∃ row cost, c = single row cost) :
    Balanced P (Batching.add emitBufferLimitBytes cost
      (noting fun cs => flusher (tableOf cs)) new l.1 l.2).2 := by
  have hadd := Batching.add_rule (noting fun cs => flusher (tableOf cs))
    (I := fun _ s => ∀ cs ∈ s.2, Threshold cs ∧ ∀ c ∈ cs, P c)
    (F := fun _ s => ∀ cs ∈ s.2, Threshold cs ∧ ∀ c ∈ cs, P c)
    (P := P) (Q := fun c => P c ∧ ∃ row cost, c = single row cost) (fun c hc => hc.1) ?_
    [] hnew h.waiting h.below h.handed
  · generalize Batching.add _ _ _ _ _ _ = a at hadd ⊢
    obtain ⟨res, waiting, s⟩ := a
    cases res with
    | error e =>
      obtain ⟨rfl, taken, -, -, hhanded⟩ := hadd
      exact balanced_of_nil s hhanded
    | ok u =>
      obtain ⟨done, -, hbelow, hwaiting, hhanded⟩ := hadd
      exact ⟨hbelow, hwaiting, hhanded⟩
  · rintro done before x s ⟨hx, row, cost, rfl⟩ hbefore hbelow hfull hhanded
    -- A table is noted before the flusher answers, so a failing flush is noted too.
    have hnoted : ∀ cs ∈ s.2 ++ [before ++ [single row cost]], Threshold cs ∧ ∀ c ∈ cs, P c := by
      intro cs hcs
      rcases List.mem_append.mp hcs with hcs | hcs
      · exact hhanded cs hcs
      obtain rfl := List.mem_singleton.mp hcs
      refine ⟨⟨before, row, cost, rfl, hbelow, hfull⟩, fun c hc => ?_⟩
      rcases List.mem_append.mp hc with hc | hc
      · exact hbefore c hc
      · exact List.mem_singleton.mp hc ▸ hx
    unfold noting
    dsimp only
    generalize flusher _ s.1 = r
    obtain ⟨e | u, s'⟩ := r <;> exact hnoted

/-- **A call keeps the books in order.** -/
theorem BufferCall.enter_balanced (call : BufferCall)
    (hcall : ∀ p new, call = .push p → p.charges ext cols l.1 = .ok new → ∀ c ∈ new, P c)
    (h : Balanced P l) : Balanced P (call.enter ext cols flusher l.1 l.2).2 := by
  cases call with
  | push p =>
    unfold enter
    dsimp only
    cases hnew : p.charges ext cols l.1 with
    | error e => exact h
    | ok new =>
      have hP := hcall p new rfl hnew
      rcases (Push.charges_spec hnew).2 with hsingle | ⟨c, rfl, hfits⟩
      · exact h.add flusher fun c hc => ⟨hP c hc, hsingle c hc⟩
      · dsimp only
        rw [Batching.add_of_lt _ _ _ l.2 hfits]
        refine ⟨?_, fun d hd => ?_, h.handed⟩
        · rw [total_append, total_singleton]
          exact hfits
        · rcases List.mem_append.mp hd with hd | hd
          · exact h.waiting d hd
          · exact hP d hd
  | flush => exact balanced_of_nil (_, l.2.2) h.handed
  | clear => exact balanced_of_nil l.2 h.handed

theorem enterCalls_balanced (calls : List BufferCall)
    (hcalls : ∀ p, .push p ∈ calls → ∀ waiting new, p.charges ext cols waiting = .ok new →
      ∀ c ∈ new, P c) (h : Balanced P l) : Balanced P (enterCalls ext cols flusher calls l) := by
  induction calls generalizing l with
  | nil => exact h
  | cons call calls ih =>
    refine ih (fun p hp => hcalls p (List.mem_cons_of_mem _ hp))
      (call.enter_balanced flusher (fun p new hcall => ?_) h)
    exact hcalls p (hcall ▸ List.mem_cons_self) l.1 new

/-- The cost of each row. -/
def costsOf (cs : List Charged) : List Nat :=
  cs.flatMap fun c => c.rows.map Prod.snd

/-- Rows are charged at least what they cost. -/
theorem Charged.Priced.sum_le {c : Charged} (h : c.Priced ext cols) :
    (c.rows.map Prod.snd).sum ≤ c.cost := by
  cases h with
  | values | cells => exact Nat.le_refl _
  | @batch batch accs rowNumber hacc =>
    have hcosts := sum_le_batchByteCost (buildAccessors_matched hacc).length_columns
    show (((List.range batch.numRows).map _).map Prod.snd).sum
      ≤ batchByteCost batch cols + batch.numRows * bytesRowNumber
    rw [List.map_map, show (Prod.snd ∘ fun r => (batchRow ext batch.columns accs rowNumber r,
      batchRowCost batch r)) = fun r => (batch.columns.map (cellCost · r)).sum + bytesRowNumber
      from rfl, List.sum_map_add]
    refine Nat.add_le_add hcosts (Nat.le_of_eq ?_)
    simp

theorem sum_costsOf_le {cs : List Charged} (h : ∀ c ∈ cs, c.Priced ext cols) :
    (costsOf cs).sum ≤ total cs := by
  induction cs with
  | nil => exact Nat.le_refl _
  | cons c cs ih =>
    have hrest := ih fun d hd => h d (List.mem_cons_of_mem c hd)
    rw [costsOf, List.flatMap_cons, List.sum_append]
    exact Nat.add_le_add (h c List.mem_cons_self).sum_le hrest

/-- What holds of the buffer between calls, given the rows that wait in it. -/
structure EmitBuffer.Sound (cols : List ColumnInfo) (buf : EmitBuffer) (waiting : List Charged) :
    Prop where
  rows : buf.table.wireRows cols = some (rowsOf waiting)
  nulls : buf.table.nulls.length = buf.table.rows * cols.length
  rowNumbers : buf.table.rowNumbers.length = buf.table.rows
  /-- Each block has an entry for each cell of its columns that is not NULL, and no other. -/
  entries : ∀ block, block ≠ .none →
    buf.table.entries block = some (buf.table.present cols block)
  /-- The estimate covers the rows. -/
  costs : (costsOf waiting).sum ≤ buf.byteEstimate
  /-- The estimate stays below the threshold. -/
  below : buf.byteEstimate < emitBufferLimitBytes

theorem Agrees.sound (h : Agrees b l) (hl : Balanced (Priced ext cols) l) :
    b.1.Sound cols l.1 := by
  have hfits := rowsOf_fits hl.waiting
  have hlen : ∀ row ∈ rowsOf l.1, row.cells.length = cols.length :=
    fun row hrow => (hfits row hrow).length_cells
  constructor
  · rw [h.buffers.table]
    exact EmitTable.wireRows_append hfits
  · rw [h.buffers.table, tableOf, EmitTable.append_rows]
    show ([] ++ ((rowsOf l.1).flatMap WireRow.cells).map WireCell.isNull).length
      = (0 + (rowsOf l.1).length) * cols.length
    rw [List.nil_append, List.length_map, RowMajor.length_flatMap hlen, Nat.zero_add]
  · rw [h.buffers.table]
    show ([] ++ (rowsOf l.1).map WireRow.rowNumber).length = 0 + (rowsOf l.1).length
    rw [List.nil_append, List.length_map, Nat.zero_add]
  · intro block hblock
    rw [h.buffers.table, tableOf, entries_append _ hblock, present_append hfits]
  · rw [h.buffers.byteEstimate]
    exact sum_costsOf_le hl.waiting
  · rw [h.buffers.byteEstimate]
    exact hl.below

/-- **The invariant of the emit buffer.**  After every sequence of calls the blocks fit the rows and
the estimate covers them and is below the threshold.  What the flusher was given by a threshold
flush is what the ledger says, and there the estimate reached the threshold with the last row. -/
theorem runCalls_sound (hext : ext.Documented) (cols : List ColumnInfo)
    (flusher : EmitTable → σ → Except UdfError Unit × σ) (calls : List BufferCall) (s : σ) :
    let b := runCalls ext cols flusher calls (EmitBuffer.new, s, [])
    let l := enterCalls ext cols flusher calls ([], s, [])
    b.1.Sound cols l.1 ∧ b.2.1 = l.2.1 ∧ b.2.2 = l.2.2.map tableOf ∧
      ∀ cs ∈ l.2.2, Threshold cs := by
  intro b l
  have hl : Balanced (Priced ext cols) l := enterCalls_balanced flusher calls
    (fun p _ waiting new hnew c hc => ((Push.charges_spec hnew).1 c hc).1)
    (balanced_of_nil (s, []) fun _ h => absurd h List.not_mem_nil)
  have h : Agrees b l := runCalls_refines flusher hext calls (agrees_new s)
  exact ⟨h.sound hl, h.state, h.tables, fun cs hcs => (hl.handed cs hcs).1⟩

/-- A row, a row that is rejected, and a flush that fails. -/
theorem runCalls_sound_sample :
    let cols : List ColumnInfo := [⟨"A", .string 10, "VARCHAR(10) UTF8", none, none, none⟩]
    let flusher := fun (_ : EmitTable) (flushes : Nat) =>
      ((.error (.user "closed"), flushes + 1) : Except UdfError Unit × Nat)
    let calls : List BufferCall := [.push (.row 7 [.string "abc"]), .push (.row 7 [.bool true]),
      .flush, .push (.row 8 [.null])]
    let b := runCalls .reference cols flusher calls (EmitBuffer.new, 0, [])
    let l := enterCalls .reference cols flusher calls ([], 0, [])
    b.1.Sound cols l.1 ∧ b.2.1 = l.2.1 ∧ b.2.2 = l.2.2.map tableOf ∧
      ∀ cs ∈ l.2.2, Threshold cs := by
  intro cols flusher calls
  exact runCalls_sound Extern.reference_documented cols flusher calls 0

end ExaUdf
