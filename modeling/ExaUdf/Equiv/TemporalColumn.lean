import ExaUdf.Equiv.CheckedDates
import ExaUdf.Equiv.DateLibrary
import ExaUdf.Equiv.Emitted

/-!
# Which date and timestamp columns keep their values

The packer writes the common years itself and leaves the others to the date library, which replaces
what it cannot hold by 1970-01-01.  `pushBatch_temporal`: a cell is the text of its day or instant
exactly if the library can hold that day.
-/

namespace ExaUdf

/-! ### The range of the date library -/

/-- The number of a day that the library can hold. -/
def InLibraryRange (n : Int) : Prop :=
  Gregorian.daysBeforeYear (-262143) < n ∧ n ≤ Gregorian.daysBeforeYear 262143

instance (n : Int) : Decidable (InLibraryRange n) :=
  inferInstanceAs (Decidable (_ ∧ _))

theorem representable_iff (d : NaiveDate) : d.Representable ↔ InLibraryRange d.numDaysFromCe := by
  obtain ⟨hlo, hhi⟩ := Gregorian.dayNumber_bounds d.valid
  constructor
  · rintro ⟨h1, h2⟩
    exact ⟨lt_of_le_of_lt (Gregorian.daysBeforeYear_mono h1) hlo,
      le_trans hhi (Gregorian.daysBeforeYear_mono (by omega))⟩
  · rintro ⟨h1, h2⟩
    constructor
    · by_contra hlt
      have hmono : Gregorian.daysBeforeYear (d.year + 1) ≤ Gregorian.daysBeforeYear (-262143) :=
        Gregorian.daysBeforeYear_mono (by omega)
      exact absurd (lt_of_lt_of_le h1 (le_trans hhi hmono)) (lt_irrefl _)
    · by_contra hgt
      have hmono : Gregorian.daysBeforeYear 262143 ≤ Gregorian.daysBeforeYear d.year :=
        Gregorian.daysBeforeYear_mono (by omega)
      exact absurd (lt_of_le_of_lt (le_trans h2 hmono) hlo) (lt_irrefl _)

/-- The bounds as numbers of days. -/
theorem inLibraryRange_iff {n : Int} : InLibraryRange n ↔ -95746130 < n ∧ n ≤ 95745399 := by
  have hlo : Gregorian.daysBeforeYear (-262143) = -95746130 := by decide
  have hhi : Gregorian.daysBeforeYear 262143 = 95745399 := by decide
  rw [InLibraryRange, hlo, hhi]

/-! ### Texts -/

section

variable {ext : Extern} (hfmt : ext.Formats) (out : List UInt8)

include hfmt

theorem writeBlockValue_date (d : NaiveDate) :
    writeBlockValue ext out (.date d) = out ++ d.text := by
  rw [writeBlockValue, writeFastDate_eq_text, hfmt.formatDate]
  by_cases h : d.InCommonRange
  · rw [if_pos h, Option.getD_some]
  · rw [if_neg h, Option.getD_none]

theorem writeBlockValue_timestamp {t : NaiveDateTime} (ht : t.nanosecond < 1000000000) :
    writeBlockValue ext out (.timestamp t) = out ++ t.text := by
  rw [writeBlockValue, writeFastTimestamp_eq_text, hfmt.formatTimestamp t ht]
  by_cases h : t.InCommonRange
  · rw [if_pos h, Option.getD_some]
  · rw [if_neg h, Option.getD_none]

end

/-! ### What the library makes of a day or a second -/

section

variable {ext : Extern} (hext : ext.Ranged)

include hext

theorem fromNumDaysFromCeOpt_eq {n : Int} {d : NaiveDate} (hd : d.numDaysFromCe = n) :
    ext.fromNumDaysFromCeOpt n = if InLibraryRange n then some d else none := by
  rw [← hd, hext.fromNumDaysFromCeOpt_range d]
  simp only [representable_iff]

theorem fromTimestamp_eq {secs : Int} {t : NaiveDateTime} (hsecs : t.timestamp = secs)
    (ht : t.nanosecond < 1000000000) :
    ext.fromTimestamp secs t.nanosecond
      = if InLibraryRange (secs / 86400 + 719163) then some t else none := by
  have hdays : secs / 86400 + 719163 = t.date.numDaysFromCe := by
    have hhour := t.hour_lt
    have hminute := t.minute_lt
    have hsecond := t.second_lt
    rw [← hsecs, NaiveDateTime.timestamp, epoch_numDaysFromCe]
    omega
  rw [← hsecs, hext.fromTimestamp_range t ht, hsecs, hdays]
  simp only [representable_iff]

end

/-! ### Date cells -/

/-- The text of a cell names its day, and is computed without an overflow whatever cells came
before. -/
def KeepsDate (ext : Extern) (days : Int32) (text : List UInt8) : Prop :=
  (∃ d : NaiveDate, text = d.text ∧ d.numDaysFromCe = NaiveDate.epoch.numDaysFromCe + days.toInt) ∧
    ∀ years, Checked.Sound years → ∀ out, ∃ years', Checked.Sound years' ∧
      Checked.dateCell ext out days years = .ok (out ++ text, years')

section

variable {ext : Extern} (hext : ext.Ranged) (hfmt : ext.Formats)

include hext hfmt

theorem dateCell_ok {days : Int32} (hdays : InLibraryRange (days.toInt + 719163)) {d : NaiveDate}
    (hd : d.numDaysFromCe = days.toInt + 719163) {years : YearCache} (hyears : Checked.Sound years)
    (out : List UInt8) :
    ∃ years', Checked.Sound years' ∧
      Checked.dateCell ext out days years = .ok (out ++ d.text, years') := by
  obtain ⟨years', hyears', hwrite⟩ := Checked.writeDate32_ok hd hyears out
  refine ⟨years', hyears', ?_⟩
  rw [Checked.dateCell, hwrite, Checked.ok_bind]
  by_cases hcommon : d.InCommonRange
  · rw [if_pos hcommon]
    rfl
  · have hlo := Int32.le_toInt days
    have hbounds := inLibraryRange_iff.mp hdays
    rw [if_neg hcommon]
    dsimp only
    rw [if_neg Bool.false_ne_true, show arrowEpochCeDay.toInt = 719163 from rfl, Checked.i32,
      if_pos (by omega), Checked.ok_bind, fromNumDaysFromCeOpt_eq hext hd, if_pos hdays,
      Option.getD_some, writeBlockValue_date hfmt]
    rfl

/-- A day of the library survives; any other becomes 1970-01-01, if its number does not overflow
before. -/
theorem keepsDate_iff (days : Int32) :
    KeepsDate ext days (blockText ext
        (.date ((ext.fromNumDaysFromCeOpt (days + arrowEpochCeDay).toInt).getD .epoch)))
      ↔ InLibraryRange (days.toInt + 719163) := by
  have hlo := Int32.le_toInt days
  have hhi := Int32.toInt_lt days
  -- The number that reaches the library is off by 2^32 where it wraps, far from its range.
  have hwrap : (days + arrowEpochCeDay).toInt = days.toInt + 719163 ∨
      ¬ InLibraryRange (days.toInt + 719163) ∧ ¬ InLibraryRange (days + arrowEpochCeDay).toInt := by
    rw [Int32.toInt_add, show arrowEpochCeDay.toInt = 719163 from rfl]
    by_cases hfits : days.toInt + 719163 < 2 ^ 31
    · exact .inl (Int.bmod_eq_of_le (by omega) (by omega))
    · right
      have hmod : (days.toInt + 719163).bmod (2 ^ 32) = days.toInt + 719163 - 2 ^ 32 := by
        rw [Int.bmod_def]
        omega
      rw [hmod, inLibraryRange_iff, inLibraryRange_iff]
      omega
  obtain ⟨d, hd⟩ := exists_date (days + arrowEpochCeDay).toInt
  rw [fromNumDaysFromCeOpt_eq hext hd, blockText, writeBlockValue_date hfmt, List.nil_append]
  constructor
  · rintro ⟨⟨d', htext, hd'⟩, -⟩
    by_contra hout
    have hlost : ¬ InLibraryRange (days + arrowEpochCeDay).toInt := by
      obtain heq | ⟨-, hlost⟩ := hwrap
      · rwa [heq]
      · exact hlost
    rw [if_neg hlost, Option.getD_none] at htext
    obtain rfl := NaiveDate.text_injective htext
    rw [inLibraryRange_iff] at hout
    omega
  · intro hin
    have heq := hwrap.resolve_right fun h => h.1 hin
    rw [heq] at hd ⊢
    rw [if_pos hin, Option.getD_some]
    refine ⟨⟨d, rfl, by rw [hd, epoch_numDaysFromCe, Int.add_comm]⟩, ?_⟩
    intro years hyears out
    exact dateCell_ok hext hfmt hin hd hyears out

end

/-! ### Timestamp cells -/

/-- The text of a cell names its instant, and is computed without an overflow whatever cells came
before. -/
def KeepsInstant (ext : Extern) (unit : TimeUnit) (v : Int64) (text : List UInt8) : Prop :=
  (∃ t : NaiveDateTime, text = t.text ∧ t.nanosecond < 1000000000 ∧
      t.timestamp * 1000000000 + t.nanosecond = v.toInt * unit.nanos) ∧
    ∀ years, Checked.Sound years → ∀ out, ∃ years', Checked.Sound years' ∧
      Checked.timestampCell ext out unit v years = .ok (out ++ text, years')

section

variable {ext : Extern} (hext : ext.Ranged) (hfmt : ext.Formats)

include hext

/-- Each unit hands the library the parts that the packer computes. -/
theorem timestampValue_eq (unit : TimeUnit) (v : Int64) :
    Checked.timestampValue ext unit v = .timestamp
      ((ext.fromTimestamp (timestampParts unit v).1 (timestampParts unit v).2).getD .epoch) := by
  cases unit with
  | second => rfl
  | millisecond => simp only [Checked.timestampValue, hext.fromTimestampMillis, timestampParts]
  | microsecond => simp only [Checked.timestampValue, hext.fromTimestampMicros, timestampParts]
  | nanosecond => rfl

include hfmt

theorem timestampCell_ok {unit : TimeUnit} {v : Int64} (hday : InLibraryRange (unit.day v + 719163))
    {t : NaiveDateTime} (hsecs : t.timestamp = (timestampParts unit v).1)
    (hnanos : t.nanosecond = (timestampParts unit v).2) {years : YearCache}
    (hyears : Checked.Sound years) (out : List UInt8) :
    ∃ years', Checked.Sound years' ∧
      Checked.timestampCell ext out unit v years = .ok (out ++ t.text, years') := by
  have hbounds := inLibraryRange_iff.mp hday
  have ht : t.nanosecond < 1000000000 := by
    rw [hnanos]
    exact BatchPacker.timestampParts_nanos_lt unit v
  have hdays := timestampParts_day unit v
  rw [← hsecs] at hdays
  have hfits : Checked.DayFits (t.timestamp / 86400) := by
    rw [hdays]
    constructor <;> omega
  obtain ⟨years', hyears', hwrite⟩ := Checked.writeTimestamp_ok ht hfits hyears out
  refine ⟨years', hyears', ?_⟩
  rw [Checked.timestampCell, Checked.timestampParts_eq, Checked.ok_bind]
  dsimp only
  rw [← hsecs, ← hnanos, hwrite, Checked.ok_bind]
  -- In the years `0..=9999` the text is written by hand, elsewhere by the library.
  by_cases hcommon : t.date.InCommonRange
  · rw [if_pos hcommon]
    rfl
  · rw [if_neg hcommon]
    dsimp only
    rw [if_neg Bool.false_ne_true, timestampValue_eq hext, ← hsecs, ← hnanos,
      fromTimestamp_eq hext rfl ht, hdays, if_pos hday, Option.getD_some,
      writeBlockValue_timestamp hfmt out ht]
    rfl

/-- An instant on a day of the library survives; any other becomes 1970-01-01 00:00:00. -/
theorem keepsInstant_iff (unit : TimeUnit) (v : Int64) :
    KeepsInstant ext unit v (blockText ext (Checked.timestampValue ext unit v))
      ↔ InLibraryRange (unit.day v + 719163) := by
  have hvalue := timestampParts_value unit v
  have hnanos_lt := BatchPacker.timestampParts_nanos_lt unit v
  obtain ⟨t, hsecs, hnanos⟩ := exists_dateTime (timestampParts unit v).1 hnanos_lt
  have ht : t.nanosecond < 1000000000 := by rw [hnanos]; exact hnanos_lt
  rw [timestampValue_eq hext, ← hnanos, fromTimestamp_eq hext hsecs ht, timestampParts_day]
  constructor
  · rintro ⟨⟨t', htext, ht', hinstant⟩, -⟩
    by_contra hout
    have hepoch : NaiveDateTime.epoch.nanosecond < 1000000000 := by decide
    rw [if_neg hout, Option.getD_none, blockText, writeBlockValue_timestamp hfmt [] hepoch,
      List.nil_append] at htext
    obtain rfl := NaiveDateTime.text_injective hepoch ht' htext
    have hzero : NaiveDateTime.epoch.timestamp * 1000000000 + (NaiveDateTime.epoch.nanosecond : Int)
        = 0 := by decide
    rw [TimeUnit.day, ← hinstant, hzero, inLibraryRange_iff] at hout
    omega
  · intro hin
    rw [if_pos hin, Option.getD_some, blockText, writeBlockValue_timestamp hfmt [] ht,
      List.nil_append]
    refine ⟨⟨t, rfl, ht, by rw [hsecs, hnanos, hvalue]⟩, ?_⟩
    intro years hyears out
    exact timestampCell_ok hext hfmt hin hsecs hnanos hyears out

end

/-! ### Columns -/

/-- An accessor of timestamps hands on the value of its unit. -/
theorem accessor?_timestamp {ext : Extern} {unit : TimeUnit} {timezone : Option String}
    {values : List Int64} {typ : ExaType} {acc : ColAccessor}
    (h : accessor? (.timestamp unit timezone values) typ = some acc) :
    typ = .unsupported ∧ acc = .unsupported ∨ ∀ k, acc.cell ext k
      = .string (blockText ext (Checked.timestampValue ext unit (values.getD k 0))) := by
  cases typ <;> cases unit <;> cases h <;> first | exact .inl ⟨rfl, rfl⟩ | exact .inr fun _ => rfl

/-- The cell of a date or timestamp column is a text, and meets `D` with its day, or `T` with its
unit and count.  An output column of an unsupported type takes no cells. -/
def TemporalCell (D : Int32 → List UInt8 → Prop) (T : TimeUnit → Int64 → List UInt8 → Prop)
    (a : ArrowArray) (col : ColumnInfo) (k : Nat) (cell : WireCell) : Prop :=
  (∀ values, a.data = .date32 values → col.typ = .unsupported ∧ cell = .skipped ∨
    ∃ text days, cell = .string text ∧ values[k]? = some days ∧ D days text) ∧
  ∀ unit timezone values, a.data = .timestamp unit timezone values →
    col.typ = .unsupported ∧ cell = .skipped ∨
    ∃ text v, cell = .string text ∧ values[k]? = some v ∧ T unit v text

/-- **When dates and timestamps are kept.**  Whatever batch is pushed onto whatever buffer, the call
fails without a change, or each non-NULL cell of a date or timestamp column is the text of its day
or instant, computed without an overflow, exactly if the date library can hold the day. -/
theorem pushBatch_temporal {ext : Extern} (hext : ext.Ranged) (hfmt : ext.Formats)
    {cols : List ColumnInfo} {all : List Charged} {buf : EmitBuffer} {sent : List EmitTable}
    (h : buf.Holds ext cols (EmitBuffer.Recorded cols) all sent) (rowNumber : UInt64)
    (batch : RecordBatch) :
    EmitsCells ext cols buf sent rowNumber batch (TemporalCell
      (fun days text => KeepsDate ext days text ↔ InLibraryRange (days.toInt + 719163))
      fun unit v text => KeepsInstant ext unit v text ↔ InLibraryRange (unit.day v + 719163)) := by
  apply emitsCells hext.toDocumented h rowNumber batch
  intro _ a col acc ha _ hacc k hk _
  have hlen := (batch.wf a (List.mem_of_getElem? ha)).data
  constructor
  · intro values hdata
    rw [hdata] at hlen hacc
    have hget := @BatchPacker.Made.getD_eq_getElem? _ values _ _ hlen hk 0
    have hkeeps := keepsDate_iff hext hfmt (values.getD k 0)
    cases htyp : col.typ <;> rw [htyp] at hacc <;> cases hacc
    · exact .inl ⟨rfl, rfl⟩
    · exact .inr ⟨_, _, rfl, hget.symm, hkeeps⟩
  · intro unit timezone values hdata
    rw [hdata] at hlen hacc
    have hget := @BatchPacker.Made.getD_eq_getElem? _ values _ _ hlen hk 0
    have hkeeps := keepsInstant_iff hext hfmt unit (values.getD k 0)
    obtain ⟨htyp, rfl⟩ | hkind := accessor?_timestamp hacc
    · exact .inl ⟨htyp, rfl⟩
    · exact .inr ⟨_, _, hkind k, hget.symm, hkeeps⟩

/-- One column of one date. -/
def dateBatch (days : Int32) : RecordBatch where
  numRows := 1
  columns := [⟨.date32 [days], none⟩]
  wf := by
    intro a ha
    obtain rfl := List.mem_singleton.mp ha
    exact ⟨rfl, fun bits hbits => by cases hbits⟩

def dateColumn : ColumnInfo := ⟨"D", .date, "DATE", none, none, none⟩

/-- January 1, 10000. -/
theorem pushBatch_temporal_sample :
    EmitsCells .chrono [dateColumn] .new [] 0 (dateBatch 2932897) (TemporalCell
      (fun days text => KeepsDate .chrono days text ↔ InLibraryRange (days.toInt + 719163))
      fun unit v text =>
        KeepsInstant .chrono unit v text ↔ InLibraryRange (unit.day v + 719163)) :=
  pushBatch_temporal Extern.chrono_ranged Extern.chrono_formats EmitBuffer.holds_new 0 _

/-- Day 100000000 becomes 1970-01-01. -/
theorem not_pushBatch_temporal :
    ¬ ∀ ext : Extern, ext.Ranged → ext.Formats → ∀ cols all buf sent,
      EmitBuffer.Holds ext cols (EmitBuffer.Recorded cols) all buf sent → ∀ rowNumber batch,
        EmitsCells ext cols buf sent rowNumber batch
          (TemporalCell (KeepsDate ext) (KeepsInstant ext)) := by
  intro h
  have hemits := h .chrono Extern.chrono_ranged Extern.chrono_formats [dateColumn] [] .new []
    EmitBuffer.holds_new 0 (dateBatch 100000000)
  have hacc : buildAccessors .chrono (dateBatch 100000000) [dateColumn]
      = .ok [.date32 [100000000]] := rfl
  obtain ⟨acc, hmatch, hcell⟩ := hemits.cell Extern.chrono_ranged.toDocumented
    EmitBuffer.holds_new hacc (c := 0) rfl rfl (k := 0) (by decide) rfl
  obtain rfl := Option.some.inj hmatch
  obtain ⟨htyp, -⟩ | ⟨text, days, htext, hdays, hkeeps⟩ := hcell.1 _ rfl
  · cases htyp
  obtain rfl := Option.some.inj hdays
  obtain rfl := WireCell.string.inj htext
  have hrange := (keepsDate_iff Extern.chrono_ranged Extern.chrono_formats 100000000).mp hkeeps
  rw [inLibraryRange_iff] at hrange
  revert hrange
  decide

end ExaUdf
