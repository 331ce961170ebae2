import ExaUdf.Equiv.DecimalColumn
import ExaUdf.Equiv.TemporalColumn

/-!
# Which batches are rows that could be emitted one by one

`buildAccessors` matches Arrow types with declared types, `checkOutputRow` values with declared
types.  `columnAccepts_accessorValue`: they agree on every pairing but the ones that widen, which
stringify what the row path refuses.  `pushBatch_admission` lifts this to the rows of a batch, and
adds that what the other pairings write as text is read back as a value.
-/

namespace ExaUdf

/-! ### The pairings that the row path does not have -/

/-- Texts feed numbers, dates and timestamps, and doubles feed numbers. -/
def widens : ArrowData → ExaType → Bool
  | .utf8 _ _, .numeric _ _ | .utf8 _ _, .date | .utf8 _ _, .timestamp _ => true
  | .largeUtf8 _ _, .numeric _ _ | .largeUtf8 _ _, .date | .largeUtf8 _ _, .timestamp _ => true
  | .float64 _, .numeric _ _ => true
  | _, _ => false

/-- **The two admission rules**: a value that is not NULL is refused exactly where its column
widens. -/
theorem columnAccepts_accessorValue (ext : Extern) {data : ArrowData} {typ : ExaType}
    {acc : ColAccessor} (h : accessor? data typ = some acc) (r : Nat) :
    columnAccepts typ (accessorValue ext acc r) = true ↔ widens data typ = false := by
  cases data with
  | timestamp unit => cases unit <;> cases typ <;> cases h <;> exact iff_of_true rfl rfl
  | _ =>
    cases typ <;> cases h <;> first
      | exact iff_of_true rfl rfl
      | exact iff_of_false Bool.false_ne_true (fun hno => nomatch hno)

/-! ### Rows -/

/-- A row that the columns accept passes the check. -/
theorem checkCells_ok (ext : Extern) {row : List Value} {cols : List ColumnInfo}
    (h : List.Forall₂ (fun v col => columnAccepts col.typ v = true) row cols) (idx cost : Nat) :
    ∃ total, checkCells ext idx row cols cost = .ok total := by
  induction h generalizing idx cost with
  | nil => exact ⟨cost, rfl⟩
  | cons haccept _ ih =>
    obtain ⟨total, hrest⟩ := ih (idx + 1) _
    exact ⟨total, by rw [checkCells, if_pos haccept, hrest]⟩

theorem checkOutputRow_iff (ext : Extern) (row : List Value) (cols : List ColumnInfo) :
    (∃ cost, checkOutputRow ext row cols = .ok cost) ↔
      List.Forall₂ (fun v col => columnAccepts col.typ v = true) row cols := by
  constructor
  · rintro ⟨cost, h⟩
    exact (checkOutputRow_eq_ok h).1
  · intro h
    obtain ⟨total, htotal⟩ := checkCells_ok ext h 0 bytesRowNumber
    exact ⟨total, by rw [checkOutputRow, if_neg (not_not.mpr h.length_eq), htotal]⟩

/-- A row of a batch is accepted if its columns that widen are NULL in it. -/
theorem batchValues_accepted (ext : Extern) {as : List ArrowArray} {cols : List ColumnInfo}
    {accs : List ColAccessor} (h : Matched as cols accs) (r : Nat) :
    List.Forall₂ (fun v col => columnAccepts col.typ v = true) (batchValues ext as accs r) cols ↔
      ∀ (c : Nat) (a : ArrowArray) (col : ColumnInfo), as[c]? = some a → cols[c]? = some col →
        widens a.data col.typ = true → nullAt a.nulls r = true := by
  induction h with
  | nil => exact iff_of_true .nil fun c a col ha => nomatch ha
  | @cons a col acc as cols accs hacc _ ih =>
    have hcell : columnAccepts col.typ (batchValue ext r a acc) = true ↔
        (widens a.data col.typ = true → nullAt a.nulls r = true) := by
      have haccepts := columnAccepts_accessorValue ext hacc r
      rw [batchValue]
      cases hnull : nullAt a.nulls r with
      | true =>
        have hnone : columnAccepts col.typ .null = true := by cases col.typ <;> rfl
        exact iff_of_true hnone fun _ => rfl
      | false =>
        rw [if_neg Bool.false_ne_true, haccepts]
        cases widens a.data col.typ <;> decide
    rw [batchValues, List.zipWith_cons_cons, List.forall₂_cons, hcell, ← batchValues, ih]
    constructor
    · rintro ⟨hhead, htail⟩ c a' col' ha hcol
      cases c with
      | zero =>
        obtain rfl := Option.some.inj ha
        obtain rfl := Option.some.inj hcol
        exact hhead
      | succ c => exact htail c a' col' ha hcol
    · intro hall
      exact ⟨hall 0 a col rfl rfl, fun c => hall (c + 1)⟩

/-! ### Texts that are read back -/

/-- A value of the column's own type, other than NULL. -/
def Value.hasType : Value → ExaType → Bool
  | .numeric _, .numeric _ _ | .date _, .date | .timestamp _, .timestamp _ => true
  | _, _ => false

/-- The types whose cells are texts that are parsed. -/
def ExaType.isParsed : ExaType → Bool
  | .numeric _ _ | .date | .timestamp _ => true
  | _ => false

/-- The cell is a text that reads back as a value of the column's type. -/
def ReadsTyped (ext : Extern) (typ : ExaType) (cell : WireCell) : Prop :=
  ∃ text v, cell = .string text ∧ cellValue ext typ cell = some v ∧ v.hasType typ = true

section

variable {ext : Extern}

theorem readsTyped_numeric {precision scale : UInt32} (d : Decimal) :
    ReadsTyped ext (.numeric precision scale) (.string (blockText ext (.numeric d))) :=
  ⟨_, _, rfl, cellValue_numeric d, rfl⟩

variable (hext : ext.Ranged) (hfmt : ext.Formats) (hread : ext.ReadsBack)

section

include hfmt hread

theorem readsTyped_date {d : NaiveDate} (h : d.Representable) :
    ReadsTyped ext .date (.string (blockText ext (.date d))) := by
  obtain ⟨s, hs, hbytes⟩ := exists_text_of_ascii d.ascii_text
  have hparse : (fastParseDate ext (Utf8.bytes s)).or (ext.parseDate s dateFormat)
      = some ((fastParseDate ext (Utf8.bytes s)).getD d) := by
    rw [hread.parseDate d s h hbytes, Option.or_some]
  have hvalue : cellValue ext .date (.string (blockText ext (.date d)))
      = some (.date ((fastParseDate ext (Utf8.bytes s)).getD d)) := by
    rw [blockText, writeBlockValue_date hfmt, List.nil_append, cellValue, hs, Option.map_some,
      decodeStringBlock_date hparse]
  exact ⟨_, _, rfl, hvalue, rfl⟩

theorem readsTyped_timestamp {precision : UInt32} {t : NaiveDateTime}
    (hdate : t.date.Representable) (ht : t.nanosecond < 1000000000) :
    ReadsTyped ext (.timestamp precision) (.string (blockText ext (.timestamp t))) := by
  obtain ⟨s, hs, hbytes⟩ := exists_text_of_ascii t.ascii_text
  have hparse : (fastParseTimestamp ext (Utf8.bytes s)).or (ext.parseTimestamp s timestampParse)
      = some ((fastParseTimestamp ext (Utf8.bytes s)).getD t) := by
    rw [hread.parseTimestamp t s hdate ht hbytes, Option.or_some]
  have hvalue : cellValue ext (.timestamp precision) (.string (blockText ext (.timestamp t)))
      = some (.timestamp ((fastParseTimestamp ext (Utf8.bytes s)).getD t)) := by
    rw [blockText, writeBlockValue_timestamp hfmt [] ht, List.nil_append, cellValue, hs,
      Option.map_some, decodeStringBlock_timestamp hparse]
  exact ⟨_, _, rfl, hvalue, rfl⟩

end

include hext

/-- Whatever number is given, the library gives a day that it can hold. -/
theorem fromNumDaysFromCe_representable (n : Int) :
    ((ext.fromNumDaysFromCeOpt n).getD .epoch).Representable := by
  obtain ⟨d, hd⟩ := exists_date n
  rw [← hd, hext.fromNumDaysFromCeOpt_range d]
  split_ifs with h
  · exact h
  · decide

theorem fromTimestamp_representable (secs : Int) {nanos : Nat} (h : nanos < 1000000000) :
    ((ext.fromTimestamp secs nanos).getD .epoch).date.Representable ∧
      ((ext.fromTimestamp secs nanos).getD .epoch).nanosecond < 1000000000 := by
  obtain ⟨t, hsecs, hnanos⟩ := exists_dateTime secs h
  have ht : t.nanosecond < 1000000000 := hnanos ▸ h
  rw [← hsecs, ← hnanos, hext.fromTimestamp_range t ht]
  split_ifs with hdate
  · exact ⟨hdate, ht⟩
  · decide

include hfmt hread

/-- **Texts that are read back**: a cell of a parsed type, unless its column widens. -/
theorem readsTyped_cell {data : ArrowData} {typ : ExaType} {acc : ColAccessor}
    (h : accessor? data typ = some acc) (hparsed : typ.isParsed = true)
    (hwidens : widens data typ = false) (r : Nat) : ReadsTyped ext typ (acc.cell ext r) := by
  cases data with
  | timestamp unit timezone values =>
    have hnanos := BatchPacker.timestampParts_nanos_lt unit (values.getD r 0)
    obtain ⟨hdate, ht⟩ :=
      fromTimestamp_representable hext (timestampParts unit (values.getD r 0)).1 hnanos
    obtain ⟨htyp, -⟩ | hcell := @accessor?_timestamp ext _ _ _ _ _ h
    · rw [htyp] at hparsed
      cases hparsed
    · cases typ with
      | timestamp precision =>
        rw [hcell r, timestampValue_eq hext]
        exact readsTyped_timestamp hfmt hread hdate ht
      | _ =>
        -- No other parsed type takes an instant.
        first
          | (cases hparsed; done)
          | (cases unit <;> cases h)
  | date32 values =>
    cases typ <;> cases hparsed <;> cases h
    exact readsTyped_date hfmt hread (fromNumDaysFromCe_representable hext _)
  | decimal128 precision scale values =>
    cases typ <;> cases hparsed <;> cases h
    exact readsTyped_numeric _
  | int32 values =>
    cases typ <;> cases hparsed <;> cases h
    exact ⟨_, _, rfl, cellValue_int (i32_mem_i128 _) rfl, rfl⟩
  | int64 values =>
    cases typ <;> cases hparsed <;> cases h
    exact ⟨_, _, rfl, cellValue_int (i64_mem_i128 _) rfl, rfl⟩
  | utf8 offsets data => cases typ <;> cases hparsed <;> cases hwidens
  | largeUtf8 offsets data => cases typ <;> cases hparsed <;> cases hwidens
  | float64 values =>
    cases typ <;> first
      | (cases hparsed; done)
      | (cases hwidens; done)
      | cases h
  | _ => cases typ <;> cases hparsed <;> cases h

end

/-! ### Admission -/

/-- **What pushing a batch admits beyond `emit`.**  Where the columns match, a row passes the check
of the row path exactly if its columns that widen are NULL in it; and whatever buffer the batch is
pushed onto, a non-NULL cell that feeds NUMERIC, DATE or TIMESTAMP from any other column is a text
that is read back as a value of that type. -/
theorem pushBatch_admission {ext : Extern} (hext : ext.Ranged) (hfmt : ext.Formats)
    (hread : ext.ReadsBack) {cols : List ColumnInfo} {all : List Charged} {buf : EmitBuffer}
    {sent : List EmitTable} (h : buf.Holds ext cols (EmitBuffer.Recorded cols) all sent)
    (rowNumber : UInt64) (batch : RecordBatch) :
    (∀ accs, buildAccessors ext batch cols = .ok accs → ∀ r < batch.numRows,
        ((∃ cost, checkOutputRow ext (batchValues ext batch.columns accs r) cols = .ok cost) ↔
          ∀ (c : Nat) (a : ArrowArray) (col : ColumnInfo), batch.columns[c]? = some a →
            cols[c]? = some col → widens a.data col.typ = true → nullAt a.nulls r = true)) ∧
      EmitsCells ext cols buf sent rowNumber batch fun a col _ cell =>
        col.typ.isParsed = true → widens a.data col.typ = false → ReadsTyped ext col.typ cell := by
  constructor
  · intro accs hacc r _
    rw [checkOutputRow_iff]
    exact batchValues_accepted ext (buildAccessors_matched hacc) r
  · apply emitsCells hext.toDocumented h rowNumber batch
    intro _ a col acc _ _ hacc k _ _ hparsed hwidens
    exact readsTyped_cell hext hfmt hread hacc hparsed hwidens k

/-- One column of one text. -/
def textBatch (s : String) : RecordBatch where
  numRows := 1
  columns := [⟨.utf8 [0, (Utf8.bytes s).length] (Utf8.bytes s), none⟩]
  wf := by
    intro a ha
    obtain rfl := List.mem_singleton.mp ha
    refine ⟨⟨rfl, ?_, ?_, ?_⟩, fun bits hbits => by cases hbits⟩
    · intro r hr
      obtain rfl := Nat.lt_one_iff.mp hr
      exact Nat.zero_le _
    · intro r hr
      obtain rfl | rfl := Nat.le_one_iff_eq_zero_or_eq_one.mp hr
      · exact Nat.zero_le _
      · exact Nat.le_refl _
    · intro r hr
      obtain rfl := Nat.lt_one_iff.mp hr
      have hslice : slice (Utf8.bytes s) 0 (Utf8.bytes s).length = Utf8.bytes s := by
        rw [slice, List.drop_zero, Nat.sub_zero, List.take_length]
      show (Utf8.text? (slice (Utf8.bytes s) 0 (Utf8.bytes s).length)).isSome = true
      rw [hslice, Utf8.text?_bytes]
      rfl

/-- The last representable day, as a date. -/
theorem pushBatch_admission_sample :
    (∀ accs, buildAccessors .chrono (dateBatch 95026236) [dateColumn] = .ok accs → ∀ r < 1,
        ((∃ cost, checkOutputRow .chrono
            (batchValues .chrono (dateBatch 95026236).columns accs r) [dateColumn] = .ok cost) ↔
          ∀ (c : Nat) (a : ArrowArray) (col : ColumnInfo),
            (dateBatch 95026236).columns[c]? = some a → [dateColumn][c]? = some col →
              widens a.data col.typ = true → nullAt a.nulls r = true)) ∧
      EmitsCells .chrono [dateColumn] .new [] 0 (dateBatch 95026236) fun a col _ cell =>
        col.typ.isParsed = true → widens a.data col.typ = false →
          ReadsTyped .chrono col.typ cell :=
  pushBatch_admission Extern.chrono_ranged Extern.chrono_formats Extern.chrono_readsBack
    EmitBuffer.holds_new 0 _

/-- The text `abc` in a column that feeds NUMERIC: the row path refuses it, and what is written is
not read back as a number. -/
theorem not_pushBatch_admission :
    (¬ ∀ accs, buildAccessors .chrono (textBatch "abc") [numericColumn] = .ok accs → ∀ r < 1,
        ∃ cost, checkOutputRow .chrono
          (batchValues .chrono (textBatch "abc").columns accs r) [numericColumn] = .ok cost) ∧
      ¬ EmitsCells .chrono [numericColumn] .new [] 0 (textBatch "abc") fun _ col _ cell =>
        col.typ.isParsed = true → ReadsTyped .chrono col.typ cell := by
  have hacc : buildAccessors .chrono (textBatch "abc") [numericColumn]
      = .ok [.utf8 [0, 3] (Utf8.bytes "abc")] := rfl
  constructor
  · intro hrows
    obtain ⟨cost, hcost⟩ := hrows _ hacc 0 (by decide)
    cases (checkOutputRow_eq_ok hcost).1 with
    | cons haccept _ => cases haccept
  · intro hemits
    obtain ⟨acc, hmatch, hcell⟩ := hemits.cell Extern.chrono_ranged.toDocumented
      EmitBuffer.holds_new hacc (c := 0) rfl rfl (k := 0) (by decide) rfl
    obtain rfl := Option.some.inj hmatch
    obtain ⟨text, v, htext, hvalue, htyped⟩ := hcell rfl
    have hcellText : ColAccessor.cell .chrono (.utf8 [0, 3] (Utf8.bytes "abc")) 0
        = .string (Utf8.bytes "abc") := by
      show WireCell.string (Utf8.bytes ((Utf8.text? (Utf8.bytes "abc")).getD "")) = _
      rw [Utf8.text?_bytes]
      rfl
    have hnull : cellValue .chrono numericColumn.typ (.string (Utf8.bytes "abc")) = some .null := by
      rw [cellValue, Utf8.text?_bytes]
      rfl
    have hv := hnull.symm.trans ((congrArg _ hcellText).symm.trans hvalue)
    obtain rfl := Option.some.inj hv
    cases htyped

end ExaUdf
