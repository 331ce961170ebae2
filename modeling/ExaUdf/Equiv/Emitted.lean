import ExaUdf.Equiv.Buffer

/-!
# The rows that a batch emits

With a flusher that keeps every table it is handed, the rows emitted so far are those of the kept
tables and those still buffered.  Pushing a batch adds its rows to them, or fails and adds none
(`EmitBuffer.pushBatch_emitted`), and each non-NULL cell of the new rows is the one its accessor
makes (`emitsCells`).
-/

namespace ExaUdf

open Charged

/-- The rows of tables, in order. -/
def tablesRows (cols : List ColumnInfo) (tables : List EmitTable) : List WireRow :=
  tables.flatMap fun t => (t.wireRows cols).getD []

/-- A flusher that keeps what it is handed. -/
def record (table : EmitTable) (sent : List EmitTable) :
    Except UdfError Unit × List EmitTable :=
  (.ok (), sent ++ [table])

theorem tablesRows_tableOf {ext : Extern} {cols : List ColumnInfo} {cs : List Charged}
    (h : ∀ c ∈ cs, c.Priced ext cols) : tablesRows cols [tableOf cs] = rowsOf cs := by
  rw [tablesRows, List.flatMap_singleton, tableOf, EmitTable.wireRows_append (rowsOf_fits h)]
  rfl

theorem tablesRows_append (cols : List ColumnInfo) (as bs : List EmitTable) :
    tablesRows cols (as ++ bs) = tablesRows cols as ++ tablesRows cols bs :=
  List.flatMap_append

namespace EmitBuffer

/-- The rows handed over and those still buffered. -/
def emitted (cols : List ColumnInfo) (buf : EmitBuffer) (sent : List EmitTable) : List WireRow :=
  tablesRows cols (sent ++ [buf.table])

/-- The tables that were kept hold the rows `done`. -/
def Recorded (cols : List ColumnInfo) (done : List Charged) (sent : List EmitTable) : Prop :=
  tablesRows cols sent = rowsOf done

section

variable {ext : Extern} {cols : List ColumnInfo}

theorem record_delivers :
    Delivers ext cols record (Recorded cols) fun _ _ => False := by
  intro done new sent hnew _ hdone
  show tablesRows cols (sent ++ [tableOf new]) = rowsOf (done ++ new)
  rw [tablesRows_append, tablesRows_tableOf hnew, rowsOf_append, hdone]

/-- Nothing is buffered or sent yet. -/
theorem holds_new : new.Holds ext cols (Recorded cols) [] [] :=
  Holds.of_empty rfl buffers_new

theorem Holds.emitted_eq {all : List Charged} {buf : EmitBuffer} {sent : List EmitTable}
    (h : buf.Holds ext cols (Recorded cols) all sent) : buf.emitted cols sent = rowsOf all := by
  obtain ⟨done, waiting, rfl, hbuf, -, hpriced, hdone⟩ := h
  rw [emitted, tablesRows_append, hbuf.table, tablesRows_tableOf hpriced, rowsOf_append, hdone]

/-- What pushing a batch emits: its rows, or nothing when it fails. -/
theorem pushBatch_emitted (hext : ext.Documented) {all : List Charged} {buf : EmitBuffer}
    {sent : List EmitTable} (h : buf.Holds ext cols (Recorded cols) all sent)
    (rowNumber : UInt64) (batch : RecordBatch) :
    let r := buf.pushBatch ext batch cols rowNumber record sent
    match r.1 with
    | .ok () => r.2.1.emitted cols r.2.2
        = buf.emitted cols sent ++ batchRows ext cols rowNumber batch
    | .error _ => r.2 = (buf, sent) := by
  have hpush := h.pushBatch rowNumber hext record_delivers batch
  dsimp only
  generalize buf.pushBatch ext batch cols rowNumber record sent = r at hpush ⊢
  unfold Pushed at hpush
  obtain ⟨e | u, buf', sent'⟩ := r
  · obtain hsame | ⟨new, -, -, -, hfalse⟩ := hpush
    · exact hsame
    · exact hfalse.elim
  · obtain ⟨new, hnew, hholds⟩ := hpush
    dsimp only at hholds ⊢
    rw [hholds.emitted_eq, h.emitted_eq, rowsOf_append, hnew]

/-- With a flusher that accepts every table, the loop over the rows ends. -/
theorem pushBatchLoop_ok (packer : BatchPacker) (rowNumber : UInt64) (costs : List Nat)
    (r start : Nat) (buf : EmitBuffer) (sent : List EmitTable) :
    ∃ stop, (pushBatchLoop ext packer rowNumber record costs r start buf sent).1 = .ok stop := by
  induction costs generalizing r start buf sent with
  | nil => exact ⟨start, rfl⟩
  | cons cost costs ih =>
    rw [pushBatchLoop]
    dsimp only
    split_ifs
    · exact ih _ _ _ _
    · exact ih _ _ _ _

/-- A batch whose columns match is accepted. -/
theorem pushBatch_ok {accs : List ColAccessor} {batch : RecordBatch}
    (hacc : buildAccessors ext batch cols = .ok accs) (rowNumber : UInt64) (buf : EmitBuffer)
    (sent : List EmitTable) :
    (buf.pushBatch ext batch cols rowNumber record sent).1 = .ok () := by
  unfold pushBatch BatchPacker.new
  rw [hacc]
  dsimp only [Except.map]
  split_ifs
  · rfl
  · rfl
  · generalize hloop : pushBatchLoop ext _ rowNumber record _ 0 0 buf sent = r
    obtain ⟨stop, hstop⟩ := @pushBatchLoop_ok ext _ rowNumber _ 0 0 buf sent
    rw [hloop] at hstop
    obtain ⟨res, buf', sent'⟩ := r
    obtain rfl : res = .ok stop := hstop
    rfl

end

end EmitBuffer

/-! ### Cells -/

theorem Matched.getElem? {as : List ArrowArray} {cols : List ColumnInfo} {accs : List ColAccessor}
    (h : Matched as cols accs) {c : Nat} {a : ArrowArray} {col : ColumnInfo}
    (ha : as[c]? = some a) (hcol : cols[c]? = some col) :
    ∃ acc, accs[c]? = some acc ∧ accessor? a.data col.typ = some acc := by
  induction h generalizing c with
  | nil => cases ha
  | @cons _ _ acc _ _ _ hacc _ ih =>
    cases c with
    | zero =>
      obtain rfl := Option.some.inj ha
      obtain rfl := Option.some.inj hcol
      exact ⟨acc, rfl, hacc⟩
    | succ c => exact ih ha hcol

/-- A cell that is not NULL is the one its accessor makes. -/
theorem batchRow_cell (ext : Extern) {as : List ArrowArray} {accs : List ColAccessor} {c : Nat}
    {a : ArrowArray} {acc : ColAccessor} (ha : as[c]? = some a) (hacc : accs[c]? = some acc)
    {k : Nat} (hnull : nullAt a.nulls k = false) (rowNumber : UInt64) :
    (batchRow ext as accs rowNumber k).cells[c]? = some (acc.cell ext k) := by
  show (List.zipWith (batchCell ext k) as accs)[c]? = _
  rw [List.getElem?_zipWith, ha, hacc]
  simp only [batchCell, hnull, Bool.false_eq_true, if_false]

/-- Pushing the batch onto `buf` fails and changes nothing, or emits a row for each of its rows
whose non-NULL cells meet `P`. -/
def EmitsCells (ext : Extern) (cols : List ColumnInfo) (buf : EmitBuffer) (sent : List EmitTable)
    (rowNumber : UInt64) (batch : RecordBatch)
    (P : ArrowArray → ColumnInfo → Nat → WireCell → Prop) : Prop :=
  let r := buf.pushBatch ext batch cols rowNumber record sent
  match r.1 with
  | .error _ => r.2 = (buf, sent)
  | .ok () => ∃ rows : List WireRow,
      r.2.1.emitted cols r.2.2 = buf.emitted cols sent ++ rows ∧ rows.length = batch.numRows ∧
        ∀ (c : Nat) (a : ArrowArray) (col : ColumnInfo) (k : Nat) (row : WireRow),
          batch.columns[c]? = some a → cols[c]? = some col → rows[k]? = some row →
            nullAt a.nulls k = false → ∃ cell, row.cells[c]? = some cell ∧ P a col k cell

/-- **The cells of a batch** are those that the accessors make. -/
theorem emitsCells {ext : Extern} (hext : ext.Documented) {cols : List ColumnInfo}
    {all : List Charged} {buf : EmitBuffer} {sent : List EmitTable}
    (h : buf.Holds ext cols (EmitBuffer.Recorded cols) all sent) (rowNumber : UInt64)
    (batch : RecordBatch) {P : ArrowArray → ColumnInfo → Nat → WireCell → Prop}
    (hP : ∀ (c : Nat) (a : ArrowArray) (col : ColumnInfo) acc, batch.columns[c]? = some a →
      cols[c]? = some col → accessor? a.data col.typ = some acc → ∀ k < batch.numRows,
        nullAt a.nulls k = false → P a col k (acc.cell ext k)) :
    EmitsCells ext cols buf sent rowNumber batch P := by
  have hpush := EmitBuffer.pushBatch_emitted hext h rowNumber batch
  unfold EmitsCells
  dsimp only at hpush ⊢
  generalize hr : buf.pushBatch ext batch cols rowNumber record sent = r at hpush ⊢
  obtain ⟨e | u, buf', sent'⟩ := r
  · exact hpush
  dsimp only at hpush ⊢
  unfold batchRows at hpush
  cases hacc : buildAccessors ext batch cols with
  | error e =>
    -- Only a batch without rows succeeds where a column does not match.
    have hempty : batch.numRows = 0 := by
      by_contra hrows
      have herr := @EmitBuffer.pushBatch_error _ _ _ buf record rowNumber sent _ hrows _ hacc
      rw [hr] at herr
      cases herr
    rw [hacc] at hpush
    refine ⟨[], hpush, hempty.symm, ?_⟩
    intro c a col k row _ _ hrow
    cases hrow
  | ok accs =>
    rw [hacc] at hpush
    refine ⟨_, hpush, by rw [List.length_map, List.length_range], ?_⟩
    intro c a col k row ha hcol hrow hnull
    obtain ⟨acc, haccs, hmatch⟩ := (buildAccessors_matched hacc).getElem? ha hcol
    rw [List.getElem?_map] at hrow
    obtain ⟨k', hk, rfl⟩ := Option.map_eq_some_iff.mp hrow
    obtain ⟨hlt, rfl⟩ := List.getElem?_eq_some_iff.mp hk
    rw [List.length_range] at hlt
    rw [List.getElem_range]
    exact ⟨acc.cell ext k, batchRow_cell ext ha haccs hnull rowNumber,
      hP c a col acc ha hcol hmatch k hlt hnull⟩

/-- What `EmitsCells` says about one cell. -/
theorem EmitsCells.cell {ext : Extern} (hext : ext.Documented) {cols : List ColumnInfo}
    {all : List Charged} {buf : EmitBuffer} {sent : List EmitTable}
    (h : buf.Holds ext cols (EmitBuffer.Recorded cols) all sent) {rowNumber : UInt64}
    {batch : RecordBatch} {P : ArrowArray → ColumnInfo → Nat → WireCell → Prop}
    (hcells : EmitsCells ext cols buf sent rowNumber batch P) {accs : List ColAccessor}
    (hacc : buildAccessors ext batch cols = .ok accs) {c : Nat} {a : ArrowArray} {col : ColumnInfo}
    (ha : batch.columns[c]? = some a) (hcol : cols[c]? = some col) {k : Nat}
    (hk : k < batch.numRows) (hnull : nullAt a.nulls k = false) :
    ∃ acc, accessor? a.data col.typ = some acc ∧ P a col k (acc.cell ext k) := by
  have hok := EmitBuffer.pushBatch_ok hacc rowNumber buf sent
  have hpush := EmitBuffer.pushBatch_emitted hext h rowNumber batch
  obtain ⟨acc, haccs, hmatch⟩ := (buildAccessors_matched hacc).getElem? ha hcol
  unfold EmitsCells at hcells
  dsimp only at hpush hcells
  generalize buf.pushBatch ext batch cols rowNumber record sent = r at hok hpush hcells
  obtain ⟨res, buf', sent'⟩ := r
  obtain rfl : res = .ok () := hok
  obtain ⟨rows, hrows, -, hcells⟩ := hcells
  -- The rows that `hcells` speaks of are those of the batch.
  obtain rfl : rows = batchRows ext cols rowNumber batch :=
    List.append_cancel_left (hrows.symm.trans hpush)
  have hrow : (batchRows ext cols rowNumber batch)[k]?
      = some (batchRow ext batch.columns accs rowNumber k) := by
    unfold batchRows
    rw [hacc]
    dsimp only
    rw [List.getElem?_map, List.getElem?_range hk]
    rfl
  obtain ⟨cell, hcell, hP⟩ := hcells c a col k _ ha hcol hrow hnull
  obtain rfl := Option.some.inj
    (hcell.symm.trans (batchRow_cell ext ha haccs hnull rowNumber))
  exact ⟨acc, hmatch, hP⟩

end ExaUdf
