import ExaUdf.Equiv.Frame

/-!
# The string block of a table

`stringCells_run`: whatever cells were pushed or written onto a table since it was last cleared,
walking its string block gives them back.  A written cell leaves the block that pushing its bytes
leaves (`EmitTable.pushStringWith_eq_pushString`).
-/

namespace ExaUdf

open Protobuf

namespace EmitTable

/-- What a writer appends to the block that `pushStringWith` hands it. -/
def appended (t : EmitTable) (write : List UInt8 → List UInt8) : List UInt8 :=
  let block := t.strings ++ encodeKey 2 2 ++ [0]
  (write block).drop block.length

/-- A writer that appends a fixed cell. -/
theorem appended_append (t : EmitTable) (cell : List UInt8) : t.appended (· ++ cell) = cell :=
  List.drop_left

/-- **Widening the reserved length byte** gives the block that a cell of known length gives. -/
theorem pushStringWith_eq_pushString (t : EmitTable) {write : List UInt8 → List UInt8}
    (h : Appends write) : t.pushStringWith write = t.pushString (t.appended write) := by
  obtain ⟨cell, hcell⟩ := h (t.strings ++ encodeKey 2 2 ++ [0])
  have happended : t.appended write = cell := by
    rw [appended, hcell, List.drop_left]
  have hstrings : (t.pushStringWith write).strings = (t.pushString cell).strings := by
    rw [pushStringWith_strings t hcell, pushString_strings]
  rw [happended]
  -- Neither of the two touches another block.
  exact congrArg (fun block => { t with strings := block }) hstrings

end EmitTable

/-- An operation on the string block. -/
inductive StringOp where
  | pushString (s : List UInt8)
  | pushStringWith (write : List UInt8 → List UInt8) (appends : EmitTable.Appends write)
  | clear

namespace StringOp

/-- The table after an operation. -/
def table (op : StringOp) (t : EmitTable) : EmitTable :=
  match op with
  | pushString s => t.pushString s
  | pushStringWith write _ => t.pushStringWith write
  | clear => t.clear

/-- The cells pushed since the last clear, after an operation on `t`. -/
def cells (op : StringOp) (t : EmitTable) (pushed : List (List UInt8)) : List (List UInt8) :=
  match op with
  | pushString s => pushed ++ [s]
  | pushStringWith write _ => pushed ++ [t.appended write]
  | clear => []

/-- Run operations on a fresh table, and note what they push. -/
def run (ops : List StringOp) : EmitTable × List (List UInt8) :=
  ops.foldl (fun s op => (op.table s.1, op.cells s.1 s.2)) (.default, [])

/-- One operation keeps the block in the form that the cells give it. -/
theorem table_strings (op : StringOp) {t : EmitTable} {pushed : List (List UInt8)}
    (h : t.strings = cellBlock pushed) :
    (op.table t).strings = cellBlock (op.cells t pushed) := by
  cases op with
  | pushString s =>
    rw [table, cells, EmitTable.pushString_strings, h, cellBlock_append_singleton]
  | pushStringWith write appends =>
    rw [table, cells, EmitTable.pushStringWith_eq_pushString t appends,
      EmitTable.pushString_strings, h, cellBlock_append_singleton]
  | clear => rfl

theorem run_strings (ops : List StringOp) : (run ops).1.strings = cellBlock (run ops).2 := by
  induction ops using List.reverseRecOn with
  | nil => rfl
  | append_singleton ops op ih =>
    rw [run, List.foldl_append]
    exact table_strings op ih

/-- **The string block stays parseable**: after any operations, the walk gives exactly the cells
pushed since the last clear, in order, and never panics; and writing a cell leaves the table that
pushing its bytes leaves. -/
theorem stringCells_run :
    (∀ ops : List StringOp, (run ops).1.stringCells = some (run ops).2) ∧
      ∀ (t : EmitTable) (write : List UInt8 → List UInt8), EmitTable.Appends write →
        t.pushStringWith write = t.pushString (t.appended write) :=
  ⟨fun ops => EmitTable.stringCells_eq (run_strings ops), fun t _ appends =>
    EmitTable.pushStringWith_eq_pushString t appends⟩

/-- A cell of 130 bytes and an empty one, after a clear. -/
theorem stringCells_run_sample :
    let long := List.replicate 130 (65 : UInt8)
    (run [.pushString [1], .clear, .pushStringWith (· ++ long) fun _ => ⟨long, rfl⟩,
        .pushString []]).1.stringCells = some [long, []] ∧
      EmitTable.default.pushStringWith (· ++ long) = EmitTable.default.pushString long := by
  intro long
  constructor
  · rw [stringCells_run.1]
    simp only [run, List.foldl_cons, List.foldl_nil, cells, EmitTable.appended_append,
      List.nil_append, List.cons_append]
  · rw [stringCells_run.2 .default (· ++ long) fun _ => ⟨long, rfl⟩,
      EmitTable.appended_append]

end StringOp

end ExaUdf
