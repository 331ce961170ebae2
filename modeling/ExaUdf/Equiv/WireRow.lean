import ExaUdf.Equiv.Frame
import ExaUdf.WireRow

/-!
# Rows are read back from the blocks they were written to

`EmitTable.append` is an action of lists of rows (`append_nil`, `append_append`), and
`wireRows_append` reads off a fresh table the rows that were appended to it.  The induction goes
over the cells from the last to the first: `consCell` puts one cell in front of what is left of the
blocks, and `takeCell` takes exactly that cell off again.
-/

namespace ExaUdf

open Protobuf

@[simp] theorem cellBlock_nil : cellBlock [] = [] := rfl

@[simp] theorem cellBlock_append (as bs : List (List UInt8)) :
    cellBlock (as ++ bs) = cellBlock as ++ cellBlock bs := by
  rw [cellBlock, List.map_append, encodeFields_append]
  rfl

namespace EmitTable

@[simp] theorem appendCells_nil (t : EmitTable) : t.appendCells [] = t := by
  simp [appendCells]

theorem appendCells_appendCells (t : EmitTable) (as bs : List WireCell) :
    (t.appendCells as).appendCells bs = t.appendCells (as ++ bs) := by
  simp [appendCells]

@[simp] theorem append_nil (t : EmitTable) : t.append [] = t := by
  simp [append, appendCells]

theorem append_append (t : EmitTable) (as bs : List WireRow) :
    (t.append as).append bs = t.append (as ++ bs) := by
  simp [append, appendCells, Nat.add_assoc]

theorem append_rows (t : EmitTable) (rows : List WireRow) :
    (t.append rows).rows = t.rows + rows.length := rfl

end EmitTable

/-! ### Blocks -/

namespace Blocks

/-- Put a cell in front of the blocks. -/
def consCell (cell : WireCell) (b : Blocks) : Blocks where
  nulls := cell.isNull :: b.nulls
  strings := cell.string?.toList ++ b.strings
  bools := cell.bool?.toList ++ b.bools
  int32 := cell.int32?.toList ++ b.int32
  int64 := cell.int64?.toList ++ b.int64
  doubles := cell.double?.toList ++ b.doubles

theorem takeCell_consCell {typ : ExaType} {cell : WireCell} (h : cell.Fits typ) (b : Blocks) :
    takeCell typ (consCell cell b) = some (cell, b) := by
  cases cell with
  | null => rfl
  | _ =>
    rw [WireCell.Fits] at h
    simp only [takeCell, consCell, WireCell.isNull, h]
    rfl

theorem takeCells_consCells {cols : List ColumnInfo} {cells : List WireCell}
    (h : List.Forall₂ (fun cell col => WireCell.Fits col.typ cell) cells cols) (b : Blocks) :
    takeCells cols (cells.foldr consCell b) = some (cells, b) := by
  induction h with
  | nil => rfl
  | cons hcell _ ih =>
    rw [List.foldr_cons, takeCells, takeCell_consCell hcell, Option.bind_some, ih,
      Option.map_some]

theorem takeRows_consRows {cols : List ColumnInfo} {rows : List WireRow}
    (h : ∀ row ∈ rows, row.Fits cols) (b : Blocks) :
    takeRows cols (rows.map WireRow.rowNumber) ((rows.flatMap WireRow.cells).foldr consCell b)
      = some (rows, b) := by
  induction rows with
  | nil => rfl
  | cons row rows ih =>
    have hrow := takeCells_consCells (h row List.mem_cons_self)
    rw [List.flatMap_cons, List.foldr_append, List.map_cons, takeRows, hrow, Option.bind_some,
      ih fun r hr => h r (List.mem_cons_of_mem row hr), Option.map_some]

/-- All cells of the blocks that start out empty. -/
theorem foldr_consCell_empty (cells : List WireCell) :
    cells.foldr consCell empty
      = ⟨cells.map WireCell.isNull, cells.filterMap WireCell.string?,
        cells.filterMap WireCell.bool?, cells.filterMap WireCell.int32?,
        cells.filterMap WireCell.int64?, cells.filterMap WireCell.double?⟩ := by
  induction cells with
  | nil => rfl
  | cons cell cells ih =>
    rw [List.foldr_cons, ih]
    cases cell <;> rfl

end Blocks

namespace EmitTable

theorem stringCells_append (rows : List WireRow) :
    (default.append rows).stringCells
      = some ((rows.flatMap WireRow.cells).filterMap WireCell.string?) :=
  stringCells_eq (by simp [append, appendCells, default])

/-- **Round trip**: a table made of fitting rows holds exactly these rows. -/
theorem wireRows_append {cols : List ColumnInfo} {rows : List WireRow}
    (h : ∀ row ∈ rows, row.Fits cols) : (default.append rows).wireRows cols = some rows := by
  have htake := Blocks.takeRows_consRows h Blocks.empty
  rw [Blocks.foldr_consCell_empty] at htake
  rw [wireRows, stringCells_append, Option.bind_some]
  simp only [append, appendCells, default, List.nil_append, htake, Option.bind_some, Nat.zero_add,
    and_self, if_true]

end EmitTable

end ExaUdf
