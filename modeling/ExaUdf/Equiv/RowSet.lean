import ExaUdf.Equiv.Calendar
import ExaUdf.Equiv.WireRow
import Mathlib.Data.List.Forall2

/-!
# The row path: what is pushed is what is read

Pushing a row appends its `wireRow` (`EmitBuffer.pushCosted_table`), and decoding a batch is taking
rows off its blocks (`InputRowSet.decodeRows_of_takeRows`): the cursors of the decoder are always at
what `takeRows` has left.  With the text round trips of `Equiv.Text` this gives the round trip of
accepted rows, `fromProto_takeProto`.
-/

namespace ExaUdf

/-! ### Pushing -/

namespace EmitTable

theorem pushString_eq (t : EmitTable) (s : List UInt8) :
    t.pushString s = { t with strings := t.strings ++ cellBlock [s] } := by
  have hs : (t.pushString s).strings = t.strings ++ cellBlock [s] :=
    (pushString_strings t s).trans (by rw [← List.nil_append [s], cellBlock_append_singleton]; rfl)
  rw [← hs]
  rfl

theorem pushStringWith_eq (t : EmitTable) {write : List UInt8 → List UInt8} {cell : List UInt8}
    (h : ∀ out, write out = out ++ cell) :
    t.pushStringWith write = { t with strings := t.strings ++ cellBlock [cell] } := by
  have hs : (t.pushStringWith write).strings = t.strings ++ cellBlock [cell] :=
    (pushStringWith_strings t (h _)).trans
      (by rw [← List.nil_append [cell], cellBlock_append_singleton]; rfl)
  rw [← hs]
  rfl

end EmitTable

theorem wireCell_fits (ext : Extern) (typ : ExaType) (v : Option Value) :
    (wireCell ext typ v).Fits typ := by
  cases v with
  | none => trivial
  | some v =>
    cases v with
    | null => trivial
    | _ => cases typ <;> rfl

theorem wireRow_fits (ext : Extern) (cols : List ColumnInfo) (n : UInt64) (values : List Value) :
    (wireRow ext cols n values).Fits cols := by
  have h : ∀ k, List.Forall₂ (fun cell col => WireCell.Fits col.typ cell)
      ((cols.zipIdx k).map fun p => wireCell ext p.1.typ values[p.2]?) cols := by
    induction cols with
    | nil => exact fun _ => .nil
    | cons col cols ih => exact fun k => .cons (wireCell_fits ext col.typ _) (ih (k + 1))
  exact h 0

namespace EmitTable

theorem appendCells_null (t : EmitTable) :
    t.appendCells [.null] = { t with nulls := t.nulls ++ [true] } := by
  simp only [appendCells, List.filterMap_cons, List.filterMap_nil, WireCell.string?,
    WireCell.bool?, WireCell.int32?, WireCell.int64?, WireCell.double?, cellBlock_nil,
    List.append_nil]
  rfl

theorem appendCells_notNull (t : EmitTable) {cell : WireCell} (h : cell.isNull = false) :
    t.appendCells [cell] =
      { t with
        nulls := t.nulls ++ [false]
        strings := t.strings ++ cellBlock cell.string?.toList
        bools := t.bools ++ cell.bool?.toList
        int32 := t.int32 ++ cell.int32?.toList
        int64 := t.int64 ++ cell.int64?.toList
        doubles := t.doubles ++ cell.double?.toList } := by
  cases cell <;> first | rfl | cases h

end EmitTable

namespace EmitBuffer

/-- The cell of a value that is there goes into the block of its column. -/
theorem wireCell_some (ext : Extern) (typ : ExaType) {v : Value} (hv : v ≠ .null) :
    wireCell ext typ (some v) = match typ.block with
      | .string => .string (blockText ext v)
      | .bool => .bool (valueToBool v)
      | .int32 => .int32 (valueToI64 v).toInt32
      | .int64 => .int64 (valueToI64 v)
      | .double => .double (valueToF64 ext v)
      | .none => .skipped := by
  cases v <;> first | exact absurd rfl hv | rfl

/-- Copied or written, the text of a value is appended to the string block. -/
theorem pushText_eq (ext : Extern) (t : EmitTable) (v : Value) :
    (match v with
      | .string s => t.pushString (Utf8.bytes s)
      | other => t.pushStringWith (writeBlockValue ext · other))
        = { t with strings := t.strings ++ cellBlock [blockText ext v] } := by
  cases v with
  | string s => exact EmitTable.pushString_eq t _
  | _ => exact EmitTable.pushStringWith_eq t fun out => writeBlockValue_eq ext out _

/-- Packing a value that is not NULL fills the block of its column, and no other. -/
theorem pushCell_eq (ext : Extern) (t : EmitTable) (typ : ExaType) {v : Value} (hv : v ≠ .null) :
    pushCell ext { t with nulls := t.nulls ++ [false] } typ v
      = t.appendCells [wireCell ext typ (some v)] := by
  rw [wireCell_some ext typ hv]
  cases typ with
  | numeric | date | timestamp | string | char =>
    rw [EmitTable.appendCells_notNull _ rfl]
    simp only [pushCell, ExaType.block, WireCell.string?, WireCell.bool?, WireCell.int32?,
      WireCell.int64?, WireCell.double?, Option.toList_some, Option.toList_none, List.append_nil]
    exact pushText_eq ext _ v
  | _ =>
    rw [EmitTable.appendCells_notNull _ rfl]
    simp only [pushCell, ExaType.block, WireCell.string?, WireCell.bool?, WireCell.int32?,
      WireCell.int64?, WireCell.double?, Option.toList_some, Option.toList_none, List.append_nil,
      cellBlock_nil]

theorem pushColumn_eq (ext : Extern) (t : EmitTable) (typ : ExaType) (v : Option Value) :
    pushColumn ext t typ v = t.appendCells [wireCell ext typ v] := by
  cases v with
  | none => exact (EmitTable.appendCells_null t).symm
  | some v =>
    by_cases hv : v = .null
    · rw [hv]
      exact (EmitTable.appendCells_null t).symm
    · rw [← pushCell_eq ext t typ hv]
      cases v <;> first | exact absurd rfl hv | rfl

theorem pushColumns_eq (ext : Extern) (values : List Value) (cols : List ColumnInfo) :
    ∀ (c : Nat) (t : EmitTable), pushColumns ext values c cols t
      = t.appendCells ((cols.zipIdx c).map fun p => wireCell ext p.1.typ values[p.2]?) := by
  induction cols with
  | nil => intro c t; exact (EmitTable.appendCells_nil t).symm
  | cons col cols ih =>
    intro c t
    rw [pushColumns, pushColumn_eq, ih, EmitTable.appendCells_appendCells]
    rfl

/-- **The row path appends one row.** -/
theorem pushCosted_table (ext : Extern) (buf : EmitBuffer) (values : List Value) (n : UInt64)
    (cols : List ColumnInfo) (cost : Nat) :
    (buf.pushCosted ext values n cols cost).table
      = buf.table.append [wireRow ext cols n values] := by
  simp only [pushCosted, pushColumns_eq, account, EmitTable.append, List.flatMap_cons,
    List.flatMap_nil, List.append_nil, List.map_cons, List.map_nil, List.length_singleton]
  rfl

/-- Pushing rows one after the other appends them all. -/
theorem foldl_push_table (ext : Extern) (cols : List ColumnInfo)
    (input : List (List Value × UInt64)) (buf : EmitBuffer) :
    (input.foldl (fun buf p => buf.push ext p.1 p.2 cols) buf).table
      = buf.table.append (input.map fun p => wireRow ext cols p.2 p.1) := by
  induction input generalizing buf with
  | nil => exact (EmitTable.append_nil _).symm
  | cons p input ih =>
    rw [List.foldl_cons, ih, push, pushCosted_table, EmitTable.append_append]
    rfl

end EmitBuffer

/-! ### Decoding -/

/-- The value a cell decodes to; `none` for a string cell that is not UTF-8. -/
def cellValue (ext : Extern) (typ : ExaType) : WireCell → Option Value
  | .null => some .null
  | .string bs => (Utf8.text? bs).map (decodeStringBlock ext typ)
  | .bool b => some (.bool b)
  | .int32 i => some (.int32 i)
  | .int64 i => some (.int64 i)
  | .double f => some (.double f)
  | .skipped => some .null

/-- The values the cells of a row decode to. -/
def cellValues (ext : Extern) : List ColumnInfo → List WireCell → Option (List Value)
  | col :: cols, cell :: cells => (cellValue ext col.typ cell).bind fun v =>
    (cellValues ext cols cells).map (v :: ·)
  | _, _ => some []

namespace InputRowSet

/-- What the cursors have left of a table's blocks, `k` NULL bits into it. -/
def rest (table : ExascriptTableData) (k : Nat) (cur : Cursors) : Blocks where
  nulls := table.dataNulls.drop k
  strings := cur.strings
  bools := table.dataBool.drop cur.boolIdx
  int32 := table.dataInt32.drop cur.int32Idx
  int64 := table.dataInt64.drop cur.int64Idx
  doubles := table.dataDouble.drop cur.doubleIdx

/-- No cursor is past the end of its block. -/
structure InBounds (table : ExascriptTableData) (cur : Cursors) : Prop where
  bool : cur.boolIdx ≤ table.dataBool.length
  int32 : cur.int32Idx ≤ table.dataInt32.length
  int64 : cur.int64Idx ≤ table.dataInt64.length
  double : cur.doubleIdx ≤ table.dataDouble.length

theorem drop_eq_cons {α : Type} {xs : List α} {k : Nat} {x : α} {rest : List α}
    (h : xs.drop k = x :: rest) :
    (∀ d, xs.getD k d = x) ∧ xs.drop (k + 1) = rest ∧ k + 1 ≤ xs.length := by
  have hk : k < xs.length := by
    by_contra hk
    rw [List.drop_eq_nil_of_le (by omega)] at h
    cases h
  rw [List.drop_eq_getElem_cons hk] at h
  obtain ⟨hx, hrest⟩ := List.cons.inj h
  refine ⟨fun d => ?_, hrest, hk⟩
  rw [List.getD_eq_getElem?_getD, List.getElem?_eq_getElem hk, Option.getD_some, hx]

theorem readCell_string {ext : Extern} {table : ExascriptTableData} {r c : Nat} {typ : ExaType}
    {cur : Cursors} {bs : List UInt8} (htyp : typ.block = .string)
    (hcur : cur.strings.head? = some bs) {s : String} (hs : Utf8.text? bs = some s) :
    readCell ext table r c typ cur
      = .ok (decodeStringBlock ext typ s, { cur with strings := cur.strings.tail }) := by
  have hhead : cur.strings.headD [] = bs := by
    rw [List.headD_eq_head?_getD, hcur, Option.getD_some]
  cases typ <;> first
    | exact Block.noConfusion htyp
    | simp only [readCell, hhead, hs]

theorem drop_of_head? {α : Type} {xs : List α} {k : Nat} {x : α}
    (h : (xs.drop k).head? = some x) :
    (∀ d, xs.getD k d = x) ∧ xs.drop (k + 1) = (xs.drop k).tail ∧ k + 1 ≤ xs.length := by
  obtain ⟨rest, hrest⟩ := List.head?_eq_some_iff.mp h
  rw [hrest]
  exact drop_eq_cons hrest

/-- A cell that is not NULL is read from the head of its block. -/
theorem readCell_of_takeCell {ext : Extern} {table : ExascriptTableData} {r c k : Nat}
    {typ : ExaType} {cur : Cursors} (hin : InBounds table cur) {nulls : List Bool}
    (hnulls : (rest table k cur).nulls = false :: nulls) {cell : WireCell} {b : Blocks}
    (htake : (rest table k cur).takeCell typ = some (cell, b)) {v : Value}
    (hv : cellValue ext typ cell = some v) :
    ∃ cur', readCell ext table r c typ cur = .ok (v, cur') ∧
      rest table (k + 1) cur' = b ∧ InBounds table cur' := by
  obtain ⟨hbool, hint32, hint64, hdouble⟩ := hin
  obtain ⟨-, hdrop, -⟩ := drop_eq_cons hnulls
  simp only [Blocks.takeCell, hnulls] at htake
  cases htyp : typ.block with
  | string =>
    simp only [htyp, Option.map_eq_some_iff, Prod.mk.injEq] at htake
    obtain ⟨bs, hhead, rfl, rfl⟩ := htake
    obtain ⟨s, hs, rfl⟩ := Option.map_eq_some_iff.mp hv
    exact ⟨_, readCell_string htyp hhead hs, by simp only [rest, hdrop],
      hbool, hint32, hint64, hdouble⟩
  | bool =>
    simp only [htyp, Option.map_eq_some_iff, Prod.mk.injEq] at htake
    obtain ⟨x, hhead, rfl, rfl⟩ := htake
    obtain ⟨hget, hrest, hlen⟩ := drop_of_head? hhead
    obtain rfl := Option.some.inj hv
    have hread : readCell ext table r c typ cur
        = .ok (.bool x, { cur with boolIdx := cur.boolIdx + 1 }) := by
      cases typ <;> first | exact Block.noConfusion htyp | simp only [readCell, hget]
    exact ⟨_, hread, by simp only [rest, hdrop, hrest], hlen, hint32, hint64, hdouble⟩
  | int32 =>
    simp only [htyp, Option.map_eq_some_iff, Prod.mk.injEq] at htake
    obtain ⟨x, hhead, rfl, rfl⟩ := htake
    obtain ⟨hget, hrest, hlen⟩ := drop_of_head? hhead
    obtain rfl := Option.some.inj hv
    have hread : readCell ext table r c typ cur
        = .ok (.int32 x, { cur with int32Idx := cur.int32Idx + 1 }) := by
      cases typ <;> first | exact Block.noConfusion htyp | simp only [readCell, hget]
    exact ⟨_, hread, by simp only [rest, hdrop, hrest], hbool, hlen, hint64, hdouble⟩
  | int64 =>
    simp only [htyp, Option.map_eq_some_iff, Prod.mk.injEq] at htake
    obtain ⟨x, hhead, rfl, rfl⟩ := htake
    obtain ⟨hget, hrest, hlen⟩ := drop_of_head? hhead
    obtain rfl := Option.some.inj hv
    have hread : readCell ext table r c typ cur
        = .ok (.int64 x, { cur with int64Idx := cur.int64Idx + 1 }) := by
      cases typ <;> first | exact Block.noConfusion htyp | simp only [readCell, hget]
    exact ⟨_, hread, by simp only [rest, hdrop, hrest], hbool, hint32, hlen, hdouble⟩
  | double =>
    simp only [htyp, Option.map_eq_some_iff, Prod.mk.injEq] at htake
    obtain ⟨x, hhead, rfl, rfl⟩ := htake
    obtain ⟨hget, hrest, hlen⟩ := drop_of_head? hhead
    obtain rfl := Option.some.inj hv
    have hread : readCell ext table r c typ cur
        = .ok (.double x, { cur with doubleIdx := cur.doubleIdx + 1 }) := by
      cases typ <;> first | exact Block.noConfusion htyp | simp only [readCell, hget]
    exact ⟨_, hread, by simp only [rest, hdrop, hrest], hbool, hint32, hint64, hlen⟩
  -- A type without a block takes nothing but its NULL bit.
  | none =>
    simp only [htyp, Option.some.injEq, Prod.mk.injEq] at htake
    obtain ⟨rfl, rfl⟩ := htake
    obtain rfl := Option.some.inj hv
    have hread : readCell ext table r c typ cur = .ok (.null, cur) := by
      cases typ <;> first | exact Block.noConfusion htyp | rfl
    exact ⟨_, hread, by simp only [rest, hdrop], hbool, hint32, hint64, hdouble⟩

/-- **One cell**: the decoder reads the cell that `takeCell` takes and moves to what it leaves. -/
theorem decodeCell_of_takeCell {ext : Extern} {table : ExascriptTableData} {nCols r c : Nat}
    {typ : ExaType} {cur : Cursors} (hin : InBounds table cur) {cell : WireCell} {b : Blocks}
    (htake : (rest table (nullIndex r c nCols) cur).takeCell typ = some (cell, b)) {v : Value}
    (hv : cellValue ext typ cell = some v) :
    ∃ cur', decodeCell ext table nCols r c typ cur = .ok (v, cur') ∧
      rest table (nullIndex r c nCols + 1) cur' = b ∧ InBounds table cur' := by
  cases hnulls : (rest table (nullIndex r c nCols) cur).nulls with
  | nil => simp [Blocks.takeCell, hnulls] at htake
  | cons bit nulls =>
    obtain ⟨hbit, hdrop, -⟩ := drop_eq_cons hnulls
    cases bit with
    | true =>
      -- A NULL cell moves no cursor.
      simp only [Blocks.takeCell, hnulls, Option.some.injEq, Prod.mk.injEq] at htake
      obtain ⟨rfl, rfl⟩ := htake
      obtain rfl := Option.some.inj hv
      exact ⟨cur, by rw [decodeCell, hbit, if_pos rfl], by rw [rest, hdrop]; rfl, hin⟩
    | false =>
      rw [decodeCell, hbit, if_neg (by decide)]
      exact readCell_of_takeCell hin hnulls htake hv

/-- **One row.** -/
theorem decodeRow_of_takeCells {ext : Extern} {table : ExascriptTableData} {nCols r : Nat}
    {cols : List ColumnInfo} {c : Nat} {cur : Cursors} (hin : InBounds table cur)
    {cells : List WireCell} {b : Blocks}
    (htake : (rest table (nullIndex r c nCols) cur).takeCells cols = some (cells, b))
    {vs : List Value} (hvs : cellValues ext cols cells = some vs) (done : List Value) :
    ∃ cur', decodeRow ext table nCols r c cols (done, cur) = .ok (done ++ vs, cur') ∧
      rest table (nullIndex r c nCols + cols.length) cur' = b ∧ InBounds table cur' := by
  induction cols generalizing c cur cells vs done with
  | nil =>
    obtain ⟨rfl, rfl⟩ := Prod.mk.inj (Option.some.inj htake)
    obtain rfl := Option.some.inj hvs
    exact ⟨cur, by rw [decodeRow, List.append_nil], rfl, hin⟩
  | cons col cols ih =>
    obtain ⟨⟨cell, b₁⟩, hcell, hrest⟩ := Option.bind_eq_some_iff.mp htake
    obtain ⟨⟨cells', b₂⟩, hcells, heq⟩ := Option.map_eq_some_iff.mp hrest
    obtain ⟨rfl, rfl⟩ := Prod.mk.inj heq
    obtain ⟨v, hv, htail⟩ := Option.bind_eq_some_iff.mp hvs
    obtain ⟨vs', hvs', rfl⟩ := Option.map_eq_some_iff.mp htail
    obtain ⟨cur₁, hdecode, hrest₁, hin₁⟩ := decodeCell_of_takeCell hin hcell hv
    have hindex : nullIndex r (c + 1) nCols = nullIndex r c nCols + 1 := rfl
    rw [← hrest₁, ← hindex] at hcells
    obtain ⟨cur₂, hrow, hrest₂, hin₂⟩ := ih hin₁ hcells hvs' (done ++ [v])
    refine ⟨cur₂, ?_, ?_, hin₂⟩
    · rw [decodeRow, hdecode]
      simp only [hrow, List.append_assoc, List.singleton_append]
    · rw [← hrest₂, hindex, List.length_cons, Nat.add_assoc, Nat.add_comm 1]

/-- **All rows**: where the rows taken off the blocks decode to values, the decoder reads these
values and leaves the cursors where the blocks end. -/
theorem decodeRows_of_takeRows {ext : Extern} {table : ExascriptTableData}
    {cols : List ColumnInfo} {ns : List UInt64} {r : Nat} {cur : Cursors}
    (hin : InBounds table cur) {rows : List WireRow} {b : Blocks}
    (htake : (rest table (r * cols.length) cur).takeRows cols ns = some (rows, b))
    {vss : List (List Value)}
    (hvss : rows.map (fun row => cellValues ext cols row.cells) = vss.map some)
    (done : List Value) :
    ∃ cur', decodeRows ext table cols ns.length r (done, cur) = .ok (done ++ vss.flatten, cur') ∧
      rest table ((r + ns.length) * cols.length) cur' = b ∧ InBounds table cur' := by
  induction ns generalizing r cur rows vss done with
  | nil =>
    obtain ⟨rfl, rfl⟩ := Prod.mk.inj (Option.some.inj htake)
    obtain rfl := List.map_eq_nil_iff.mp hvss.symm
    exact ⟨cur, by rw [List.length_nil, decodeRows, List.flatten_nil, List.append_nil], rfl, hin⟩
  | cons n ns ih =>
    obtain ⟨⟨cells, b₁⟩, hcells, hrest⟩ := Option.bind_eq_some_iff.mp htake
    obtain ⟨⟨rows', b₂⟩, hrows, heq⟩ := Option.map_eq_some_iff.mp hrest
    obtain ⟨rfl, rfl⟩ := Prod.mk.inj heq
    cases vss with
    | nil => cases hvss
    | cons vs vss =>
      obtain ⟨hvs, hvss'⟩ := List.cons.inj hvss
      have hcells' : (rest table (nullIndex r 0 cols.length) cur).takeCells cols
          = some (cells, b₁) := hcells
      obtain ⟨cur₁, hrow, hrest₁, hin₁⟩ := decodeRow_of_takeCells hin hcells' hvs done
      have hindex : nullIndex r 0 cols.length + cols.length = (r + 1) * cols.length := by
        rw [nullIndex, Nat.succ_mul, Nat.add_zero]
      rw [hindex] at hrest₁
      rw [← hrest₁] at hrows
      obtain ⟨cur₂, hdecode, hrest₂, hin₂⟩ := ih hin₁ hrows hvss' (done ++ vs)
      refine ⟨cur₂, ?_, ?_, hin₂⟩
      · rw [List.length_cons, decodeRows, hrow]
        simp only [hdecode, List.flatten_cons, List.append_assoc]
      · rw [← hrest₂, List.length_cons, Nat.add_assoc, Nat.add_comm 1]

end InputRowSet

/-! ### Accepted rows -/

theorem checkCells_eq_ok {ext : Extern} {cols : List ColumnInfo} {row : List Value}
    (hlen : row.length = cols.length) {idx cost total : Nat}
    (h : checkCells ext idx row cols cost = .ok total) :
    List.Forall₂ (fun v col => columnAccepts col.typ v = true) row cols ∧
      total = cost + (row.map valueByteCost).sum := by
  induction cols generalizing row idx cost with
  | nil =>
    obtain rfl := List.length_eq_zero_iff.mp hlen
    obtain rfl := Except.ok.inj h
    exact ⟨.nil, rfl⟩
  | cons col cols ih =>
    obtain ⟨v, row, rfl⟩ := List.exists_cons_of_length_eq_add_one hlen
    rw [checkCells] at h
    split at h
    · rename_i haccept
      obtain ⟨hrow, htotal⟩ := ih (Nat.succ.inj hlen) h
      refine ⟨.cons haccept hrow, ?_⟩
      rw [htotal, List.map_cons, List.sum_cons, Nat.add_assoc]
    · cases h

/-- What an accepted row is, and what it costs. -/
theorem checkOutputRow_eq_ok {ext : Extern} {cols : List ColumnInfo} {row : List Value}
    {cost : Nat} (h : checkOutputRow ext row cols = .ok cost) :
    List.Forall₂ (fun v col => columnAccepts col.typ v = true) row cols ∧
      cost = bytesRowNumber + (row.map valueByteCost).sum := by
  rw [checkOutputRow] at h
  split at h
  · cases h
  · rename_i hlen
    exact checkCells_eq_ok (not_not.mp hlen) h

/-- Dates and timestamps are ones the fast writers cover. -/
def Value.InCommonRange : Value → Prop
  | .date d => d.InCommonRange
  | .timestamp ts => ts.InCommonRange
  | _ => True

theorem i32_mem_i128 (i : Int32) : -2 ^ 127 ≤ i.toInt ∧ i.toInt < 2 ^ 127 := by
  have := i.le_toInt
  have := i.toInt_lt
  omega

theorem i64_mem_i128 (i : Int64) : -2 ^ 127 ≤ i.toInt ∧ i.toInt < 2 ^ 127 := by
  have := i.le_toInt
  have := i.toInt_lt
  omega

/-- The value that an accepted value of a column comes back as: the same value, in the column's own
type. -/
def normalise : ExaType → Value → Value
  | .unsupported, _ => .null
  | .int32, .int64 i => .int32 (Int32.ofInt i.toInt)
  | .int64, .int32 i => .int64 (Int64.ofInt i.toInt)
  | .numeric _ _, .int32 i => .numeric ⟨⟨i.toInt, i32_mem_i128 i⟩, 0⟩
  | .numeric _ _, .int64 i => .numeric ⟨⟨i.toInt, i64_mem_i128 i⟩, 0⟩
  | _, v => v

section

variable {ext : Extern} (hext : ext.Documented)

include hext

theorem cellValue_date {d : NaiveDate} (h : d.InCommonRange) :
    cellValue ext .date (.string (blockText ext (.date d))) = some (.date d) := by
  have htext : blockText ext (.date d) = dateText d.year.toNat d.month d.day := by
    simp only [blockText, writeBlockValue, writeFastDate_common h, Option.getD_some]
  obtain ⟨s, hs, hbytes⟩ := exists_text_of_ascii (ascii_dateText d.year.toNat d.month d.day)
  have hparse : (fastParseDate ext (Utf8.bytes s)).or (ext.parseDate s dateFormat) = some d := by
    rw [hbytes, fastParseDate_text hext h, Option.some_or]
  rw [htext, cellValue, hs, Option.map_some, decodeStringBlock_date hparse]

theorem cellValue_timestamp {p : UInt32} {ts : NaiveDateTime} (h : ts.InCommonRange) :
    cellValue ext (.timestamp p) (.string (blockText ext (.timestamp ts)))
      = some (.timestamp ts) := by
  have htext : blockText ext (.timestamp ts)
      = dateText ts.date.year.toNat ts.date.month ts.date.day ++ [32]
        ++ timeText ts.hour ts.minute ts.second ts.nanosecond := by
    simp only [blockText, writeBlockValue, writeFastTimestamp_common h, Option.getD_some]
  have hascii : ∀ b ∈ dateText ts.date.year.toNat ts.date.month ts.date.day ++ [32]
      ++ timeText ts.hour ts.minute ts.second ts.nanosecond, b.toNat < 128 :=
    ascii_append (ascii_append (ascii_dateText _ _ _) (ascii_singleton (by decide)))
      (ascii_timeText _ _ _ _)
  obtain ⟨s, hs, hbytes⟩ := exists_text_of_ascii hascii
  have hparse : (fastParseTimestamp ext (Utf8.bytes s)).or (ext.parseTimestamp s timestampParse)
      = some ts := by
    rw [hbytes, fastParseTimestamp_text hext h, Option.some_or]
  rw [htext, cellValue, hs, Option.map_some, decodeStringBlock_timestamp hparse]

omit hext in
theorem cellValue_numeric {p sc : UInt32} (d : Decimal) :
    cellValue ext (.numeric p sc) (.string (blockText ext (.numeric d))) = some (.numeric d) := by
  obtain ⟨s, hs, hbytes⟩ := exists_text_of_ascii (ascii_writeDecimal d)
  have htext : blockText ext (.numeric d) = writeDecimal [] d := rfl
  rw [htext, cellValue, hs, Option.map_some,
    decodeStringBlock_numeric (tryFrom_writeDecimal d hbytes)]

omit hext in
theorem cellValue_int {p sc : UInt32} {v : Value} {i : Int}
    (hi : -2 ^ 127 ≤ i ∧ i < 2 ^ 127) (hv : blockText ext v = intText i) :
    cellValue ext (.numeric p sc) (.string (blockText ext v)) = some (.numeric ⟨⟨i, hi⟩, 0⟩) := by
  obtain ⟨s, hs, hbytes⟩ := exists_text_of_ascii (ascii_intText i)
  rw [hv, cellValue, hs, Option.map_some,
    decodeStringBlock_numeric (tryFrom_intText ⟨i, hi⟩ hbytes)]

omit hext in
theorem cellValue_text {typ : ExaType} (htyp : ∀ s, decodeStringBlock ext typ s = .string s)
    (s : String) : cellValue ext typ (.string (blockText ext (.string s))) = some (.string s) := by
  have htext : blockText ext (.string s) = Utf8.bytes s := rfl
  rw [htext, cellValue, Utf8.text?_bytes, Option.map_some, htyp]

/-- **Round trip of a cell**: an accepted value comes back normalised. -/
theorem cellValue_wireCell {typ : ExaType} {v : Value} (haccept : columnAccepts typ v = true)
    (hrange : v.InCommonRange) :
    cellValue ext typ (wireCell ext typ (some v)) = some (normalise typ v) := by
  cases v with
  | null => cases typ <;> rfl
  | double f => cases typ <;> first | rfl | cases haccept
  | bool b => cases typ <;> first | rfl | cases haccept
  -- The integer columns and NUMERIC take either width.
  | int32 i =>
    cases typ with
    | numeric p sc => exact cellValue_int (i32_mem_i128 i) rfl
    | int32 =>
      simp only [wireCell, ExaType.block, valueToI64, cellValue, normalise,
        Int32.toInt32_toInt64]
    | int64 =>
      simp only [wireCell, ExaType.block, valueToI64, cellValue, normalise, Int64.ofInt_int32ToInt]
    | _ => first | rfl | cases haccept
  | int64 i =>
    cases typ with
    | numeric p sc => exact cellValue_int (i64_mem_i128 i) rfl
    | int32 =>
      simp only [wireCell, ExaType.block, valueToI64, cellValue, normalise, Int32.ofInt_int64ToInt]
    | _ => first | rfl | cases haccept
  | numeric d =>
    cases typ with
    | numeric p sc => exact cellValue_numeric d
    | _ => first | rfl | cases haccept
  | string s =>
    cases typ with
    | string _ => exact cellValue_text (fun _ => rfl) s
    | char _ => exact cellValue_text (fun _ => rfl) s
    | _ => first | rfl | cases haccept
  | date d =>
    cases typ with
    | date => exact cellValue_date hext hrange
    | _ => first | rfl | cases haccept
  | timestamp ts =>
    cases typ with
    | timestamp p => exact cellValue_timestamp hext hrange
    | _ => first | rfl | cases haccept

/-- The values of a row, each in its column's own type. -/
def normaliseRow (cols : List ColumnInfo) (row : List Value) : List Value :=
  List.zipWith (fun col v => normalise col.typ v) cols row

theorem cellValues_wireRow {cols : List ColumnInfo} {row : List Value} (n : UInt64)
    (haccept : List.Forall₂ (fun v col => columnAccepts col.typ v = true) row cols)
    (hrange : ∀ v ∈ row, v.InCommonRange) :
    cellValues ext cols (wireRow ext cols n row).cells = some (normaliseRow cols row) := by
  -- Column `k + c` of the row is column `c` of what follows its first `k` values.
  have h : ∀ (done : List Value), cellValues ext cols
      ((cols.zipIdx done.length).map fun p => wireCell ext p.1.typ (done ++ row)[p.2]?)
        = some (normaliseRow cols row) := by
    induction haccept with
    | nil => exact fun _ => rfl
    | @cons v col row cols hv _ ih =>
      intro done
      have hget : (done ++ v :: row)[done.length]? = some v := by simp
      have htail := ih (fun w hw => hrange w (List.mem_cons_of_mem v hw)) (done ++ [v])
      rw [List.length_append, List.length_singleton, List.append_assoc,
        List.singleton_append] at htail
      rw [List.zipIdx_cons, List.map_cons, hget, cellValues,
        cellValue_wireCell hext hv (hrange v List.mem_cons_self), Option.bind_some, htail]
      rfl
  exact h []

end

/-- The protobuf table made of `rows`. -/
def rowTable (rows : List WireRow) : ExascriptTableData :=
  (EmitTable.default.append rows).protoOf ((rows.flatMap WireRow.cells).filterMap WireCell.string?)

theorem rowTable_rest (rows : List WireRow) :
    InputRowSet.rest (rowTable rows) 0 ⟨(rowTable rows).dataString, 0, 0, 0, 0⟩
      = (rows.flatMap WireRow.cells).foldr Blocks.consCell .empty := by
  rw [Blocks.foldr_consCell_empty]
  simp only [InputRowSet.rest, rowTable, EmitTable.protoOf, EmitTable.append,
    EmitTable.appendCells, EmitTable.default, List.nil_append, List.drop_zero]

theorem takeProto_foldl_push (ext : Extern) (cols : List ColumnInfo)
    (input : List (List Value × UInt64)) :
    (input.foldl (fun buf p => buf.push ext p.1 p.2 cols) EmitBuffer.new).takeProto.1
      = some (rowTable (input.map fun p => wireRow ext cols p.2 p.1)) := by
  rw [EmitBuffer.takeProto, EmitBuffer.foldl_push_table]
  refine EmitTable.toProto_eq ?_
  simp only [EmitTable.append, EmitTable.appendCells, EmitBuffer.new, EmitTable.default,
    List.nil_append]

/-- A batch made of fitting rows decodes to their values, and uses its blocks up. -/
theorem decodeCells_rowTable {ext : Extern} {cols : List ColumnInfo} {rows : List WireRow}
    (hfits : ∀ row ∈ rows, row.Fits cols) {vss : List (List Value)}
    (hvss : rows.map (fun row => cellValues ext cols row.cells) = vss.map some) :
    ∃ cur, InputRowSet.decodeCells ext (rowTable rows) cols = .ok (vss.flatten, cur) ∧
      InputRowSet.rest (rowTable rows) (rows.length * cols.length) cur = .empty ∧
      InputRowSet.InBounds (rowTable rows) cur := by
  have htake : (InputRowSet.rest (rowTable rows) (0 * cols.length)
      ⟨(rowTable rows).dataString, 0, 0, 0, 0⟩).takeRows cols (rows.map WireRow.rowNumber)
        = some (rows, .empty) := by
    rw [Nat.zero_mul, rowTable_rest]
    exact Blocks.takeRows_consRows hfits Blocks.empty
  obtain ⟨cur, hdecode, hrest, hin⟩ := InputRowSet.decodeRows_of_takeRows
    ⟨Nat.zero_le _, Nat.zero_le _, Nat.zero_le _, Nat.zero_le _⟩ htake hvss []
  have hrows : (rowTable rows).rows = (rows.map WireRow.rowNumber).length := by
    rw [List.length_map]
    exact Nat.zero_add _
  refine ⟨cur, ?_, ?_, hin⟩
  · rw [InputRowSet.decodeCells, hrows, hdecode, List.nil_append]
  · rwa [List.length_map, Nat.zero_add] at hrest

theorem rowTable_dataNulls_length {cols : List ColumnInfo} {rows : List WireRow}
    (hfits : ∀ row ∈ rows, row.Fits cols) :
    (rowTable rows).dataNulls.length = rows.length * cols.length := by
  have hnulls : (rowTable rows).dataNulls = (rows.flatMap WireRow.cells).map WireCell.isNull :=
    List.nil_append _
  rw [hnulls, List.length_map]
  induction rows with
  | nil => rw [List.length_nil, Nat.zero_mul]; rfl
  | cons row rows ih =>
    have hrow : row.cells.length = cols.length := (hfits row List.mem_cons_self).length_eq
    rw [List.flatMap_cons, List.length_append, hrow, List.length_cons, Nat.succ_mul,
      ih (fun r hr => hfits r (List.mem_cons_of_mem row hr)) (List.nil_append _), Nat.add_comm]

/-- **Round trip of rows**: rows that `checkOutputRow` accepts, pushed into an emit buffer and read
back as input over the same columns, come back in order with their row numbers and normalised
values, and reading them leaves every cursor exactly at the end of its block. -/
theorem fromProto_takeProto {ext : Extern} (hext : ext.Documented) (cols : List ColumnInfo)
    (input : List (List Value × UInt64))
    (haccept : ∀ p ∈ input, ∃ cost, checkOutputRow ext p.1 cols = .ok cost)
    (hrange : ∀ p ∈ input, ∀ v ∈ p.1, v.InCommonRange) :
    ∃ table rs cur,
      (input.foldl (fun buf p => buf.push ext p.1 p.2 cols) EmitBuffer.new).takeProto.1
        = some table ∧
      InputRowSet.fromProto ext table cols = .ok rs ∧
      rs.nRows = input.length ∧
      rs.rowNumbers = input.map Prod.snd ∧
      rs.cells = (input.map fun p => normaliseRow cols p.1).flatten ∧
      InputRowSet.decodeCells ext table cols = .ok (rs.cells, cur) ∧
      table.dataNulls.length = input.length * cols.length ∧
      cur.strings = [] ∧
      cur.boolIdx = table.dataBool.length ∧
      cur.int32Idx = table.dataInt32.length ∧
      cur.int64Idx = table.dataInt64.length ∧
      cur.doubleIdx = table.dataDouble.length := by
  let rows := input.map fun p => wireRow ext cols p.2 p.1
  have hfits : ∀ row ∈ rows, row.Fits cols := by
    intro row hrow
    obtain ⟨p, -, rfl⟩ := List.mem_map.mp hrow
    exact wireRow_fits ext cols p.2 p.1
  have hvss : rows.map (fun row => cellValues ext cols row.cells)
      = (input.map fun p => normaliseRow cols p.1).map some := by
    rw [List.map_map, List.map_map]
    refine List.map_congr_left fun p hp => ?_
    obtain ⟨cost, hcost⟩ := haccept p hp
    exact cellValues_wireRow hext p.2 (checkOutputRow_eq_ok hcost).1 (hrange p hp)
  -- The table that is taken is the one of these rows, and the decoder reads all of it.
  obtain ⟨cur, hdecode, hrest, hin⟩ := decodeCells_rowTable hfits hvss
  have hlen : rows.length = input.length := List.length_map _
  have hnumbers : (rowTable rows).rowNumber = input.map Prod.snd := by
    have hmap : (rowTable rows).rowNumber = rows.map WireRow.rowNumber := List.nil_append _
    rw [hmap, List.map_map]
    rfl
  have hrows : (rowTable rows).rows = input.length := by
    rw [← hlen]
    exact Nat.zero_add _
  -- A cursor that is in bounds, with nothing left behind it, is at the end of its block.
  have hbool := List.drop_eq_nil_iff.mp (congrArg Blocks.bools hrest)
  have hint32 := List.drop_eq_nil_iff.mp (congrArg Blocks.int32 hrest)
  have hint64 := List.drop_eq_nil_iff.mp (congrArg Blocks.int64 hrest)
  have hdouble := List.drop_eq_nil_iff.mp (congrArg Blocks.doubles hrest)
  refine ⟨rowTable rows, ⟨_, (rowTable rows).rows, cols.length, _, 0, _⟩, cur,
    takeProto_foldl_push ext cols input, by rw [InputRowSet.fromProto, InputRowSet.decode, hdecode],
    hrows, ?_, rfl, hdecode, ?_, congrArg Blocks.strings hrest, ?_, ?_, ?_, ?_⟩
  · simp only [hnumbers, hrows, List.length_map, Nat.le_refl, if_true]
    rw [List.take_of_length_le (by rw [List.length_map])]
  · rw [rowTable_dataNulls_length hfits, hlen]
  · exact Nat.le_antisymm hin.bool hbool
  · exact Nat.le_antisymm hin.int32 hint32
  · exact Nat.le_antisymm hin.int64 hint64
  · exact Nat.le_antisymm hin.double hdouble

/-- An integer in a NUMERIC column, a NULL, and a date. -/
theorem fromProto_takeProto_sample :
    let cols : List ColumnInfo :=
      [⟨"A", .numeric 18 0, "DECIMAL(18,0)", none, none, none⟩,
        ⟨"B", .date, "DATE", none, none, none⟩]
    let input : List (List Value × UInt64) :=
      [([.int64 (-7), .null], 4), ([.null, .date .epoch], 9)]
    ∃ table rs,
      (input.foldl (fun buf p => buf.push .reference p.1 p.2 cols) EmitBuffer.new).takeProto.1
        = some table ∧
      InputRowSet.fromProto .reference table cols = .ok rs ∧
      rs.rowNumbers = [4, 9] ∧
      rs.cells = [.numeric ⟨⟨-7, by omega⟩, 0⟩, .null, .null, .date .epoch] := by
  intro cols input
  have haccept : ∀ p ∈ input, ∃ cost, checkOutputRow .reference p.1 cols = .ok cost := by
    intro p hp
    simp only [input, List.mem_cons, List.not_mem_nil, or_false] at hp
    obtain rfl | rfl := hp <;> exact ⟨_, rfl⟩
  have hrange : ∀ p ∈ input, ∀ v ∈ p.1, v.InCommonRange := by
    intro p hp v hv
    simp only [input, List.mem_cons, List.not_mem_nil, or_false] at hp
    obtain rfl | rfl := hp <;> simp only [List.mem_cons, List.not_mem_nil, or_false] at hv <;>
      obtain rfl | rfl := hv
    · trivial
    · trivial
    · trivial
    · exact ⟨by decide, by decide⟩
  obtain ⟨table, rs, cur, htable, hrs, -, hnumbers, hcells, -⟩ :=
    fromProto_takeProto Extern.reference_documented cols input haccept hrange
  exact ⟨table, rs, htable, hrs, hnumbers, hcells⟩

end ExaUdf
