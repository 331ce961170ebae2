import ExaUdf.Bridge
import ExaUdf.Equiv.Calendar

/-!
# The invariant of the input rows

`InputRowSet.WF` says that the cells fill the rows and that the cursor is on one of them, so that
no access is out of bounds (`WF.row_ne_panic`).  Decoding a batch and advancing keep it; a reload
that fails keeps it only where there are no cells to lose, so `InputRowSet.sound_iff` is exact.
-/

namespace ExaUdf

namespace InputRowSet

/-- The cells fill the rows, each row has its number, and the cursor is on a row if there is one. -/
structure WF (rs : InputRowSet) : Prop where
  cells : rs.cells.length = rs.nRows * rs.nCols
  rowNumbers : rs.rowNumbers.length = rs.nRows
  cursor : rs.nRows = 0 ∨ rs.currentRow < rs.nRows

/-- No row access is out of bounds. -/
theorem WF.row_ne_panic {rs : InputRowSet} (h : rs.WF) (idx : Nat) : rs.row idx ≠ some none := by
  unfold row
  split_ifs with hidx hcells
  · simp
  · apply absurd _ hcells
    rw [h.cells]
    calc idx * rs.nCols + rs.nCols = (idx + 1) * rs.nCols := by rw [Nat.add_mul, Nat.one_mul]
      _ ≤ rs.nRows * rs.nCols := Nat.mul_le_mul_right _ hidx
  · simp

theorem WF.currentRowCells_isSome {rs : InputRowSet} (h : rs.WF) :
    rs.currentRowCells.isSome = true := by
  have hrow := h.row_ne_panic rs.currentRow
  unfold currentRowCells
  rcases hr : rs.row rs.currentRow with - | - | cells
  · rfl
  · exact absurd hr hrow
  · rfl

/-- While the row set is consistent, reading a column does not panic. -/
theorem WF.get_ne_panic {b : HostContextBridge} (h : b.input.WF) (col : Nat) :
    b.get col ≠ .panic := by
  obtain ⟨cells, hcells⟩ := Option.isSome_iff_exists.mp h.currentRowCells_isSome
  unfold HostContextBridge.get
  rw [hcells]
  dsimp only
  split <;> simp

/-! ### Decoding -/

theorem decodeRow_length {ext : Extern} {table : ExascriptTableData} {nCols r c : Nat}
    {cols : List ColumnInfo} {st st' : List Value × Cursors}
    (h : decodeRow ext table nCols r c cols st = .ok st') :
    st'.1.length = st.1.length + cols.length := by
  induction cols generalizing c st with
  | nil =>
    cases h
    rfl
  | cons col cols ih =>
    obtain ⟨cells, cur⟩ := st
    unfold decodeRow at h
    split at h
    · cases h
    · rw [ih h, List.length_append, List.length_cons]
      simp only [List.length_cons, List.length_nil]
      omega

theorem decodeRows_length {ext : Extern} {table : ExascriptTableData} {cols : List ColumnInfo}
    {n r : Nat} {st st' : List Value × Cursors} (h : decodeRows ext table cols n r st = .ok st') :
    st'.1.length = st.1.length + n * cols.length := by
  induction n generalizing r st with
  | zero =>
    cases h
    rw [Nat.zero_mul, Nat.add_zero]
  | succ n ih =>
    unfold decodeRows at h
    split at h
    · cases h
    · rename_i st₁ hrow
      rw [ih h, decodeRow_length hrow, Nat.add_mul, Nat.one_mul]
      omega

theorem decode_wf {ext : Extern} {table : ExascriptTableData} {cols : List ColumnInfo}
    {rs : InputRowSet} (h : decode ext table cols = .ok rs) : rs.WF := by
  unfold decode at h
  split at h
  · cases h
  rename_i cells cur hcells
  obtain rfl := Except.ok.inj h
  refine ⟨?_, ?_, ?_⟩
  · show cells.length = table.rows * cols.length
    have hlen := decodeRows_length hcells
    simpa using hlen
  · show (if _ then _ else _ : List UInt64).length = table.rows
    split_ifs with hnumbers
    · rw [List.length_take, Nat.min_eq_left hnumbers]
    · rw [List.length_map, List.length_range]
  · show table.rows = 0 ∨ 0 < table.rows
    omega

theorem readCell_text {ext : Extern} {table : ExascriptTableData} {r c : Nat} {typ : ExaType}
    {cur : Cursors} (h : ∀ bs ∈ cur.strings, (Utf8.text? bs).isSome = true) :
    ∃ v cur', readCell ext table r c typ cur = .ok (v, cur') ∧
      ∀ bs ∈ cur'.strings, (Utf8.text? bs).isSome = true := by
  have hhead : ∃ s, Utf8.text? (cur.strings.headD []) = some s := by
    cases hs : cur.strings with
    | nil => exact ⟨"", by decide⟩
    | cons bs rest => exact Option.isSome_iff_exists.mp (h bs (hs ▸ List.mem_cons_self))
  obtain ⟨s, hs⟩ := hhead
  have htail : ∀ bs ∈ cur.strings.tail, (Utf8.text? bs).isSome = true := fun bs hbs =>
    h bs (List.mem_of_mem_tail hbs)
  unfold readCell
  cases typ <;> first
    | exact ⟨_, _, rfl, h⟩
    | (dsimp only; rw [hs]; exact ⟨_, _, rfl, htail⟩)

theorem decodeRow_text {ext : Extern} {table : ExascriptTableData} {nCols r c : Nat}
    {cols : List ColumnInfo} {st : List Value × Cursors}
    (h : ∀ bs ∈ st.2.strings, (Utf8.text? bs).isSome = true) :
    ∃ st', decodeRow ext table nCols r c cols st = .ok st' ∧
      ∀ bs ∈ st'.2.strings, (Utf8.text? bs).isSome = true := by
  induction cols generalizing c st with
  | nil => exact ⟨st, rfl, h⟩
  | cons col cols ih =>
    obtain ⟨cells, cur⟩ := st
    obtain ⟨v, cur', hcell, hcur⟩ : ∃ v cur',
        decodeCell ext table nCols r c col.typ cur = .ok (v, cur') ∧
          ∀ bs ∈ cur'.strings, (Utf8.text? bs).isSome = true := by
      unfold decodeCell
      split_ifs
      · exact ⟨_, _, rfl, h⟩
      · exact readCell_text h
    unfold decodeRow
    rw [hcell]
    exact ih hcur

theorem decodeRows_text {ext : Extern} {table : ExascriptTableData} {cols : List ColumnInfo}
    {n r : Nat} {st : List Value × Cursors}
    (h : ∀ bs ∈ st.2.strings, (Utf8.text? bs).isSome = true) :
    ∃ st', decodeRows ext table cols n r st = .ok st' := by
  induction n generalizing r st with
  | zero => exact ⟨st, rfl⟩
  | succ n ih =>
    obtain ⟨st', hrow, hst'⟩ : ∃ st', decodeRow ext table cols.length r 0 cols st = .ok st' ∧
        ∀ bs ∈ st'.2.strings, (Utf8.text? bs).isSome = true := decodeRow_text h
    unfold decodeRows
    rw [hrow]
    exact ih hst'

/-- A batch whose strings are UTF-8 decodes. -/
theorem decode_of_text {ext : Extern} {table : ExascriptTableData} {cols : List ColumnInfo}
    (h : ∀ bs ∈ table.dataString, (Utf8.text? bs).isSome = true) :
    ∃ rs, decode ext table cols = .ok rs := by
  obtain ⟨st', hrows⟩ : ∃ st', decodeRows ext table cols table.rows 0
      ([], ⟨table.dataString, 0, 0, 0, 0⟩) = .ok st' := decodeRows_text h
  unfold decode decodeCells
  rw [hrows]
  exact ⟨_, rfl⟩

theorem advance_wf {rs : InputRowSet} (h : rs.WF) : rs.advance.2.WF := by
  unfold advance
  split_ifs with hmore
  · exact ⟨h.cells, h.rowNumbers, .inr hmore⟩
  · exact h

/-- A failing reload leaves a consistent object exactly where there were no cells. -/
theorem reload_error_wf {ext : Extern} {rs : InputRowSet} {table : ExascriptTableData}
    {cols : List ColumnInfo} {e : UdfError} (h : rs.WF)
    (herror : decode ext table cols = .error e) :
    (rs.reload ext table cols).2.WF ↔ rs.nRows * rs.nCols = 0 := by
  unfold reload
  rw [herror]
  constructor
  · intro hwf
    exact hwf.cells.symm
  · intro hnone
    exact ⟨hnone.symm, h.rowNumbers, h.cursor⟩

/-! ### Runs -/

/-- An operation on a row set. -/
inductive Op where
  | reload (table : ExascriptTableData) (cols : List ColumnInfo)
  | advance

def Op.apply (ext : Extern) (rs : InputRowSet) : Op → InputRowSet
  | .reload table cols => (rs.reload ext table cols).2
  | .advance => rs.advance.2

/-- The row set after some operations. -/
def runOps (ext : Extern) (rs : InputRowSet) (ops : List Op) : InputRowSet :=
  ops.foldl (Op.apply ext) rs

/-- A reload of a batch that does not decode. -/
def Op.Fails (ext : Extern) : Op → Prop
  | .reload table cols => ∃ e, decode ext table cols = .error e
  | .advance => False

theorem apply_wf_iff {ext : Extern} {rs : InputRowSet} (h : rs.WF) (op : Op) :
    (op.apply ext rs).WF ↔ (op.Fails ext → rs.nRows * rs.nCols = 0) := by
  rcases op with ⟨table, cols⟩ | -
  · rcases hdecode : decode ext table cols with e | rs'
    · show (rs.reload ext table cols).2.WF ↔ _
      rw [reload_error_wf h hdecode]
      exact ⟨fun hnone _ => hnone, fun hfails => hfails ⟨e, hdecode⟩⟩
    · have hwf : (rs.reload ext table cols).2.WF := by
        unfold reload
        rw [hdecode]
        exact decode_wf hdecode
      refine iff_of_true hwf fun ⟨e, herror⟩ => ?_
      rw [hdecode] at herror
      cases herror
  · exact iff_of_true (advance_wf h) fun hfails => hfails.elim

/-- After every operation the row set is consistent, and no access is out of bounds: neither that
to a row, nor `get` in a context with these input rows. -/
def Sound (ext : Extern) (rs : InputRowSet) (ops : List Op) : Prop :=
  ∀ done, done <+: ops →
    (runOps ext rs done).WF ∧
      (∀ idx, (runOps ext rs done).row idx ≠ some none) ∧
      ∀ (b : HostContextBridge) (col : Nat), b.input = runOps ext rs done → b.get col ≠ .panic

/-- **The invariant of the input rows.**  From a decoded batch on, the row set stays consistent
after every operation exactly when each reload that fails finds no cells. -/
theorem sound_iff {ext : Extern} {table : ExascriptTableData} {cols : List ColumnInfo}
    {rs : InputRowSet} (h : fromProto ext table cols = .ok rs) (ops : List Op) :
    Sound ext rs ops ↔ ∀ done op, done ++ [op] <+: ops → op.Fails ext →
      (runOps ext rs done).nRows * (runOps ext rs done).nCols = 0 := by
  have hconcat : ∀ done op, runOps ext rs (done ++ [op]) = op.apply ext (runOps ext rs done) :=
    fun done op => List.foldl_append
  constructor
  · intro hsound done op hle
    have hbefore := (hsound done ((List.prefix_append _ _).trans hle)).1
    have hafter := (hsound (done ++ [op]) hle).1
    rw [hconcat] at hafter
    exact (apply_wf_iff hbefore op).mp hafter
  · intro hfails
    -- Induction over the operations done so far.
    have hwf : ∀ done, done <+: ops → (runOps ext rs done).WF := by
      intro done
      induction done using List.reverseRecOn with
      | nil => exact fun _ => decode_wf h
      | append_singleton done op ih =>
        intro hle
        rw [hconcat]
        exact (apply_wf_iff (ih ((List.prefix_append _ _).trans hle)) op).mpr (hfails done op hle)
    intro done hle
    refine ⟨hwf done hle, (hwf done hle).row_ne_panic, ?_⟩
    intro b col hinput
    have hb : b.input.WF := by
      rw [hinput]
      exact hwf done hle
    exact hb.get_ne_panic col

/-- A batch of two rows, read to its end. -/
theorem sound_iff_sample :
    let cols : List ColumnInfo := [⟨"A", .int32, "INTEGER", none, none, none⟩]
    let table : ExascriptTableData :=
      { ExascriptTableData.empty with rows := 2, dataNulls := [false, true], dataInt32 := [7] }
    let rs : InputRowSet := ⟨[.int32 7, .null], 2, 1, [0, 1], 0, 0⟩
    let ops : List Op := [.advance, .reload table cols, .advance]
    Sound .reference rs ops ↔ ∀ done op, done ++ [op] <+: ops → op.Fails .reference →
      (runOps .reference rs done).nRows * (runOps .reference rs done).nCols = 0 := by
  intro cols table rs ops
  have hrs : fromProto .reference table cols = .ok rs := by decide +kernel
  exact sound_iff hrs ops

/-- The second batch has a cell that is not UTF-8.  The rows of the first are lost, but not their
count. -/
theorem not_sound :
    ¬ ∀ (ext : Extern) (table : ExascriptTableData) (cols : List ColumnInfo) (rs : InputRowSet),
      fromProto ext table cols = .ok rs → ∀ ops, Sound ext rs ops := by
  intro hclaim
  let cols : List ColumnInfo := [⟨"A", .string 10, "VARCHAR(10) UTF8", none, none, none⟩]
  let table (bs : List UInt8) : ExascriptTableData :=
    { ExascriptTableData.empty with rows := 1, dataNulls := [false], dataString := [bs] }
  let rs : InputRowSet := ⟨[.string "A"], 1, 1, [0], 0, 0⟩
  have hrs : fromProto .reference (table [65]) cols = .ok rs := by decide +kernel
  have hlost : rs.reload .reference (table [255]) cols = (.error (.type
      "input row 0 column 0: string cell is not valid UTF-8"), { rs with cells := [] }) := by
    decide +kernel
  have hrow := (hclaim .reference (table [65]) cols rs hrs [.reload (table [255]) cols]
    [.reload (table [255]) cols] List.prefix_rfl).2.1 0
  apply hrow
  show (rs.reload .reference (table [255]) cols).2.row 0 = some none
  rw [hlost]
  decide

end InputRowSet

end ExaUdf
