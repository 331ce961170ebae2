import ExaUdf.Equiv.Text
import ExaUdf.DateLibrary

/-!
# The hand-rolled writers keep the reference formats

`writeDecimal` appends what `Decimal`'s `Display` writes, and the fast date writers append the
documented layouts or nothing (`writers_reference`).  What `Display` writes is read back by
`Decimal::try_from` (`tryFrom_display`).
-/

namespace ExaUdf

open Digits

/-! ### Decimals -/

theorem intText_eq_renderInt (n : Int) : intText n = renderInt n := by
  rw [intText_eq, renderInt]

/-- Padding the digits to one more than the scale leaves one digit in front of the point. -/
theorem padStart_split {digits : List UInt8} {scale : Nat} (h : digits.length ≤ scale) :
    padStart (scale + 1) digits
      = [48] ++ (List.replicate (scale - digits.length) 48 ++ digits) := by
  have hlen : scale + 1 - digits.length = (scale - digits.length) + 1 := by omega
  rw [padStart, hlen, List.replicate_succ]
  rfl

/-- **Decimals**: the digit writer appends what `Display` writes. -/
theorem writeDecimal_eq_fmt (out : List UInt8) (d : Decimal) :
    writeDecimal out d = out ++ d.fmt := by
  rw [writeDecimal_eq]
  congr 1
  simp only [writeDecimal, Decimal.fmt, wholeText_eq, magnitudeText_eq, intText_eq_renderInt,
    List.nil_append]
  by_cases hscale : d.scale = 0
  · rw [if_pos hscale, if_pos hscale]
  rw [if_neg hscale, if_neg hscale]
  by_cases hlen : (render d.unscaled.val.natAbs).length ≤ d.scale.toNat
  · rw [if_pos hlen, if_pos hlen, padStart_split hlen]
    have hpoint : ([48] ++ (List.replicate (d.scale.toNat - (render d.unscaled.val.natAbs).length)
        (48 : UInt8) ++ render d.unscaled.val.natAbs)).length - d.scale.toNat = 1 := by
      simp only [List.length_append, List.length_singleton, List.length_replicate]
      omega
    rw [hpoint]
    simp
  · rw [if_neg hlen, if_neg hlen]

/-! ### Dates and timestamps -/

theorem dateText_eq {d : NaiveDate} (h : d.InCommonRange) :
    dateText d.year.toNat d.month d.day = d.text := by
  obtain ⟨hlo, hhi⟩ := h
  have hyear : d.year.toNat = d.year.natAbs := by omega
  rw [dateText, NaiveDate.text, NaiveDate.yearText, if_pos ⟨hlo, hhi⟩, hyear,
    padded_eq_padStart (by omega) (by omega), padded_eq_padStart (by omega) (month_lt d),
    padded_eq_padStart (by omega) (day_lt d)]

theorem timeText_eq {t : NaiveDateTime} (h : t.nanosecond < 1000000000) :
    timeText t.hour t.minute t.second t.nanosecond = t.timeText := by
  have hhour := t.hour_lt
  have hminute := t.minute_lt
  have hsecond := t.second_lt
  rw [timeText, NaiveDateTime.timeText, padded_eq_padStart (by omega) (by omega),
    padded_eq_padStart (by omega) (by omega), padded_eq_padStart (by omega) (by omega),
    padded_eq_padStart (by omega) h]

theorem writeFastDate_eq_text (out : List UInt8) (d : NaiveDate) :
    writeFastDate out d = if d.InCommonRange then some (out ++ d.text) else none := by
  by_cases h : d.InCommonRange
  · rw [writeFastDate_eq, writeFastDate_common h, if_pos h, dateText_eq h]
    rfl
  · rw [if_neg h]
    exact if_neg h

theorem writeFastTimestamp_eq_text (out : List UInt8) (ts : NaiveDateTime) :
    writeFastTimestamp out ts = if ts.InCommonRange then some (out ++ ts.text) else none := by
  by_cases h : ts.InCommonRange
  · rw [writeFastTimestamp_eq, writeFastTimestamp_common h, if_pos h, dateText_eq h.1,
      timeText_eq h.2]
    rfl
  · rw [if_neg h, writeFastTimestamp]
    split_ifs with hnanos
    · rfl
    · have hdate : ¬ ts.date.InCommonRange := fun hdate => h ⟨hdate, by omega⟩
      rw [writeFastDate_eq_text, if_neg hdate]
      rfl

/-- **The writers keep the reference formats.**  Each appends to the bytes before it: decimals what
`Display` writes, dates and timestamps their layout in the years `0..=9999` and without a leap
second, and nothing at all elsewhere. -/
theorem writers_reference (out : List UInt8) :
    (∀ d : Decimal, writeDecimal out d = out ++ d.fmt) ∧
      (∀ d : NaiveDate,
        writeFastDate out d = if d.InCommonRange then some (out ++ d.text) else none) ∧
      ∀ ts : NaiveDateTime,
        writeFastTimestamp out ts = if ts.InCommonRange then some (out ++ ts.text) else none :=
  ⟨writeDecimal_eq_fmt out, writeFastDate_eq_text out, writeFastTimestamp_eq_text out⟩

example : (⟨⟨-5, by decide⟩, 2⟩ : Decimal).fmt = [45, 48, 46, 48, 53] := by decide

/-! ### Reading a decimal back -/

theorem text?_fmt (d : Decimal) : Utf8.text? d.fmt = some d.display := by
  have hwrite := writeDecimal_eq_fmt [] d
  rw [List.nil_append] at hwrite
  obtain ⟨s, hs, -⟩ := exists_text_of_ascii (ascii_writeDecimal d)
  rw [hwrite] at hs
  rw [Decimal.display, hs]
  rfl

theorem bytes_display (d : Decimal) : Utf8.bytes d.display = d.fmt :=
  Utf8.bytes_of_text? (text?_fmt d)

/-- **Round trip of `Display`**: the text of a decimal reads back as that decimal, the same digits
at the same scale. -/
theorem tryFrom_display (d : Decimal) : Decimal.tryFrom d.display = .ok d := by
  apply tryFrom_writeDecimal
  rw [bytes_display, writeDecimal_eq_fmt, List.nil_append]

end ExaUdf
