import ExaUdf.DateLibrary
import ExaUdf.Equiv.Calendar

/-!
# A date library that keeps its documentation

The fields of a date or timestamp can be cut out of its text, so a text shows one date or timestamp
only (`NaiveDate.text_injective`, `NaiveDateTime.text_injective`).

`Extern.chrono` has the range and the layouts of `DateLibrary`, and reads back what it writes.
-/

namespace ExaUdf

open Digits

/-- The part of a list between two others. -/
theorem slice_append {pre mid post : List UInt8} {i j : Nat} (hi : i = pre.length)
    (hj : j = pre.length + mid.length) : slice (pre ++ (mid ++ post)) i j = mid := by
  rw [slice, hi, hj, List.drop_left, Nat.add_sub_cancel_left, List.take_left]

/-- A field of two digits. -/
theorem twoDigits_length {n : Nat} (h : n < 100) : (padStart 2 (render n)).length = 2 :=
  padStart_length (render_length_le (by omega) h)

theorem value_field (w n : Nat) : value (padStart w (render n)) = n := by
  rw [value_padStart, value_render]

/-! ### Dates -/

namespace NaiveDate

/-- The bytes of the year. -/
def yearPart (bs : List UInt8) : List UInt8 :=
  bs.take (bs.length - 6)

def monthPart (bs : List UInt8) : List UInt8 :=
  slice bs (bs.length - 5) (bs.length - 3)

def dayPart (bs : List UInt8) : List UInt8 :=
  slice bs (bs.length - 2) bs.length

theorem text_eq (d : NaiveDate) :
    d.text = yearText d.year ++ ([45] ++ (padStart 2 (render d.month)
      ++ ([45] ++ padStart 2 (render d.day)))) := by
  rw [text]
  simp only [List.append_assoc]

theorem length_text (d : NaiveDate) : d.text.length = (yearText d.year).length + 6 := by
  rw [text_eq]
  simp only [List.length_append, List.length_singleton, twoDigits_length (month_lt d),
    twoDigits_length (day_lt d)]

theorem yearPart_text (d : NaiveDate) : yearPart d.text = yearText d.year := by
  rw [yearPart, length_text, Nat.add_sub_cancel, text_eq, List.take_left]

theorem monthPart_text (d : NaiveDate) : monthPart d.text = padStart 2 (render d.month) := by
  rw [monthPart, length_text, text_eq, ← List.append_assoc]
  apply slice_append
  · rw [List.length_append, List.length_singleton]
    omega
  · rw [List.length_append, List.length_singleton, twoDigits_length (month_lt d)]
    omega

theorem dayPart_text (d : NaiveDate) : dayPart d.text = padStart 2 (render d.day) := by
  have htext : d.text = (yearText d.year ++ [45] ++ padStart 2 (render d.month) ++ [45])
      ++ (padStart 2 (render d.day) ++ []) := by
    rw [text, List.append_nil]
  have hpre : (yearText d.year ++ [45] ++ padStart 2 (render d.month) ++ [45]).length
      = (yearText d.year).length + 4 := by
    simp only [List.length_append, List.length_singleton, twoDigits_length (month_lt d)]
  rw [dayPart, length_text, htext]
  apply slice_append
  · rw [hpre]
    omega
  · rw [hpre, twoDigits_length (day_lt d)]

theorem signed_yearText (year : Int) : Signed (yearText year) year := by
  have hne : ∀ n, padStart 4 (render n) ≠ [] := by
    intro n
    rw [padStart]
    exact List.append_ne_nil_of_right_ne_nil _ (render_ne_nil n)
  have hdigits : ∀ n, ∀ b ∈ padStart 4 (render n), isDigit b = true := fun n =>
    isDigit_of_mem_padStart fun _ => isDigit_of_mem_render
  rw [yearText]
  split_ifs with hcommon hneg
  · refine ⟨[], by decide, _, hne _, hdigits _, rfl, ?_⟩
    rw [value_field, signed, if_neg (by decide)]
    omega
  · refine ⟨[45], by decide, _, hne _, hdigits _, rfl, ?_⟩
    rw [value_field, signed, if_pos rfl]
    omega
  · refine ⟨[43], by decide, _, hne _, hdigits _, rfl, ?_⟩
    rw [value_field, signed, if_neg (by decide)]
    omega

/-- **A text shows one date.** -/
theorem text_injective {d e : NaiveDate} (h : d.text = e.text) : d = e := by
  have hyear : Signed (yearText d.year) e.year := by
    rw [← yearPart_text d, h, yearPart_text e]
    exact signed_yearText e.year
  have hmonth := congrArg (value ∘ monthPart) h
  have hday := congrArg (value ∘ dayPart) h
  simp only [Function.comp_apply, monthPart_text, dayPart_text, value_field] at hmonth hday
  exact NaiveDate.ext ((signed_yearText d.year).unique hyear) hmonth hday

/-- The date that a text shows. -/
def ofText (bs : List UInt8) : Option NaiveDate :=
  match parseInt (-262143) 262142 (yearPart bs) with
  | .error _ => none
  | .ok year =>
    if h : Gregorian.ValidDate year (value (monthPart bs)) (value (dayPart bs)) then
      some ⟨year, _, _, h⟩
    else none

theorem ofText_text {d : NaiveDate} (h : d.Representable) : ofText d.text = some d := by
  have hparse : parseInt (-262143) 262142 (yearText d.year) = .ok d.year :=
    (parseInt_eq_ok (by omega) (by omega)).mpr ⟨signed_yearText d.year, h⟩
  rw [ofText, yearPart_text, hparse]
  simp only [monthPart_text, dayPart_text, value_field]
  exact dif_pos d.valid

end NaiveDate

/-! ### Timestamps -/

namespace NaiveDateTime

def datePart (bs : List UInt8) : List UInt8 :=
  bs.take (bs.length - 19)

/-- The fields of the time of day. -/
def timePart (bs : List UInt8) : Nat × Nat × Nat × Nat :=
  let time := bs.drop (bs.length - 18)
  (value (slice time 0 2), value (slice time 3 5), value (slice time 6 8), value (slice time 9 18))

section

variable {t : NaiveDateTime} (ht : t.nanosecond < 1000000000)

include ht

theorem length_timeText : t.timeText.length = 18 := by
  have hhour := t.hour_lt
  have hminute := t.minute_lt
  have hsecond := t.second_lt
  have hnanos := padStart_length (render_length_le (w := 9) (by omega) ht)
  rw [timeText]
  simp only [List.length_append, List.length_singleton,
    twoDigits_length (show t.hour < 100 by omega), twoDigits_length (show t.minute < 100 by omega),
    twoDigits_length (show t.second < 100 by omega), hnanos]

theorem datePart_text : datePart t.text = t.date.text := by
  have hlen : t.text.length = t.date.text.length + 19 := by
    rw [text, List.length_append, List.length_append, List.length_singleton, length_timeText ht]
  rw [datePart, hlen, Nat.add_sub_cancel, text, List.append_assoc, List.take_left]

theorem timePart_text : timePart t.text = (t.hour, t.minute, t.second, t.nanosecond) := by
  have htime : t.text.drop (t.text.length - 18) = t.timeText := by
    have hlen : t.text.length - 18 = (t.date.text ++ [32]).length := by
      rw [text, List.length_append, length_timeText ht, Nat.add_sub_cancel]
    rw [hlen, text, List.drop_left]
  have hhour := twoDigits_length (show t.hour < 100 by have := t.hour_lt; omega)
  have hminute := twoDigits_length (show t.minute < 100 by have := t.minute_lt; omega)
  have hsecond := twoDigits_length (show t.second < 100 by have := t.second_lt; omega)
  have hnanos := padStart_length (render_length_le (w := 9) (by omega) ht)
  obtain ⟨h0, h1, hh⟩ := List.length_eq_two.mp hhour
  obtain ⟨i0, i1, hi⟩ := List.length_eq_two.mp hminute
  obtain ⟨s0, s1, hs⟩ := List.length_eq_two.mp hsecond
  have hfrac : slice t.timeText 9 18 = padStart 9 (render t.nanosecond) := by
    rw [timeText, hh, hi, hs]
    show (padStart 9 (render t.nanosecond)).take 9 = _
    rw [List.take_of_length_le (by rw [hnanos])]
  have e0 : slice t.timeText 0 2 = padStart 2 (render t.hour) := by
    rw [timeText, hh, hi, hs]
    rfl
  have e3 : slice t.timeText 3 5 = padStart 2 (render t.minute) := by
    rw [timeText, hh, hi, hs]
    rfl
  have e6 : slice t.timeText 6 8 = padStart 2 (render t.second) := by
    rw [timeText, hh, hi, hs]
    rfl
  simp only [timePart, htime, e0, e3, e6, hfrac, value_field]

end

/-- **A text shows one timestamp.** -/
theorem text_injective {t u : NaiveDateTime} (ht : t.nanosecond < 1000000000)
    (hu : u.nanosecond < 1000000000) (h : t.text = u.text) : t = u := by
  have hdate : t.date.text = u.date.text := by rw [← datePart_text ht, h, datePart_text hu]
  have htime := congrArg timePart h
  rw [timePart_text ht, timePart_text hu] at htime
  simp only [Prod.mk.injEq] at htime
  exact NaiveDateTime.ext (NaiveDate.text_injective hdate) htime.1 htime.2.1 htime.2.2.1
    htime.2.2.2

/-- The timestamp that a text shows. -/
def ofText (bs : List UInt8) : Option NaiveDateTime :=
  (NaiveDate.ofText (datePart bs)).bind fun date =>
    let time := timePart bs
    if h : time.1 < 24 ∧ time.2.1 < 60 ∧ time.2.2.1 < 60 ∧ time.2.2.2 < 2000000000 then
      some ⟨date, _, _, _, _, h.1, h.2.1, h.2.2.1, h.2.2.2⟩
    else none

theorem ofText_text {t : NaiveDateTime} (hdate : t.date.Representable)
    (ht : t.nanosecond < 1000000000) : ofText t.text = some t := by
  rw [ofText, datePart_text ht, NaiveDate.ofText_text hdate, Option.bind_some]
  simp only [timePart_text ht]
  exact dif_pos ⟨t.hour_lt, t.minute_lt, t.second_lt, t.nanosecond_lt⟩

end NaiveDateTime

/-! ### Layouts are texts -/

theorem ascii_field (w n : Nat) : ∀ b ∈ padStart w (render n), b.toNat < 128 := fun b hb =>
  ascii_of_isDigit (isDigit_of_mem_padStart (fun _ => isDigit_of_mem_render) b hb)

theorem NaiveDate.ascii_text (d : NaiveDate) : ∀ b ∈ d.text, b.toNat < 128 := by
  have hyear : ∀ b ∈ yearText d.year, b.toNat < 128 := by
    rw [yearText]
    split_ifs
    · exact ascii_field _ _
    · exact ascii_append (ascii_singleton (by decide)) (ascii_field _ _)
    · exact ascii_append (ascii_singleton (by decide)) (ascii_field _ _)
  have hdash : ∀ b ∈ [(45 : UInt8)], b.toNat < 128 := ascii_singleton (by decide)
  exact ascii_append (ascii_append (ascii_append (ascii_append hyear hdash) (ascii_field _ _))
    hdash) (ascii_field _ _)

theorem NaiveDateTime.ascii_text (t : NaiveDateTime) : ∀ b ∈ t.text, b.toNat < 128 := by
  have hblank : ∀ b ∈ [(32 : UInt8)], b.toNat < 128 := ascii_singleton (by decide)
  have hcolon : ∀ b ∈ [(58 : UInt8)], b.toNat < 128 := ascii_singleton (by decide)
  have hpoint : ∀ b ∈ [(46 : UInt8)], b.toNat < 128 := ascii_singleton (by decide)
  exact ascii_append (ascii_append t.date.ascii_text hblank) (ascii_append (ascii_append
    (ascii_append (ascii_append (ascii_append (ascii_append (ascii_field _ _) hcolon)
    (ascii_field _ _)) hcolon) (ascii_field _ _)) hpoint) (ascii_field _ _))

theorem bytes_getD_of_ascii {bs : List UInt8} (h : ∀ b ∈ bs, b.toNat < 128) :
    Utf8.bytes ((Utf8.text? bs).getD "") = bs := by
  obtain ⟨s, hs, hbytes⟩ := exists_text_of_ascii h
  rw [hs]
  exact hbytes

/-! ### The library -/

namespace Extern

/-- A date library with the documented range and layouts. -/
def chrono : Extern :=
  { reference with
    fromYmdOpt := fun year month day =>
      (reference.fromYmdOpt year month day).filter fun d => d.Representable
    fromNumDaysFromCeOpt := fun n =>
      (reference.fromNumDaysFromCeOpt n).filter fun d => d.Representable
    fromTimestamp := fun secs nanos =>
      (referenceTimestamp secs nanos).filter fun t => t.date.Representable
    fromTimestampMillis := fun n =>
      (referenceTimestamp (n / 1000) (n % 1000 * 1000000).toNat).filter fun t =>
        t.date.Representable
    fromTimestampMicros := fun n =>
      (referenceTimestamp (n / 1000000) (n % 1000000 * 1000).toNat).filter fun t =>
        t.date.Representable
    formatDate := fun d format =>
      if format = dateFormat then (Utf8.text? d.text).getD "" else ""
    formatTimestamp := fun t format =>
      if format = timestampEmit then (Utf8.text? t.text).getD "" else ""
    parseDate := fun s format =>
      if format = dateFormat then NaiveDate.ofText (Utf8.bytes s) else none
    parseTimestamp := fun s format =>
      if format = timestampParse then NaiveDateTime.ofText (Utf8.bytes s) else none }

theorem representable_of_common {d : NaiveDate} (h : d.InCommonRange) : d.Representable := by
  obtain ⟨hlo, hhi⟩ := h
  constructor <;> omega

theorem filter_some {α : Type} {p : α → Prop} [DecidablePred p] (a : α) :
    (some a).filter (fun a => p a) = if p a then some a else none := by
  rw [Option.filter_some]
  simp only [decide_eq_true_eq]

theorem chrono_ranged : chrono.Ranged where
  fromYmdOpt d hd := by
    have h := reference_documented.fromYmdOpt d hd
    show (reference.fromYmdOpt d.year d.month d.day).filter _ = some d
    rw [h, filter_some, if_pos (representable_of_common hd)]
  andHmsNanoOpt := reference_documented.andHmsNanoOpt
  fromNumDaysFromCeOpt d hd := by
    have h := reference_documented.fromNumDaysFromCeOpt d hd
    unfold chrono
    dsimp only
    rw [h, filter_some, if_pos (representable_of_common hd)]
  fromTimestamp t ht := by
    show (referenceTimestamp t.timestamp t.nanosecond).filter _ = some t
    rw [referenceTimestamp_timestamp, filter_some, if_pos (representable_of_common ht.1)]
  fromTimestampMillis _ := rfl
  fromTimestampMicros _ := rfl
  fromNumDaysFromCeOpt_range d := by
    have h : reference.fromNumDaysFromCeOpt d.numDaysFromCe = some d :=
      congrArg some (referenceDate_numDaysFromCe d)
    unfold chrono
    dsimp only
    rw [h, filter_some]
  fromTimestamp_range t _ := by
    show (referenceTimestamp t.timestamp t.nanosecond).filter _ = _
    rw [referenceTimestamp_timestamp, filter_some]

theorem chrono_rejectsInvalid : chrono.RejectsInvalid where
  fromYmdOpt year month day h := by
    have hnone : reference.fromYmdOpt year month day = none := dif_neg h
    show (reference.fromYmdOpt year month day).filter _ = none
    rw [hnone, Option.filter_none]
  andHmsNanoOpt _ _ _ _ _ h := dif_neg h

theorem chrono_formats : chrono.Formats where
  formatDate d := by
    have h : chrono.formatDate d dateFormat = (Utf8.text? d.text).getD "" := by
      simp only [chrono, if_true]
    rw [h, bytes_getD_of_ascii d.ascii_text]
  formatTimestamp t _ := by
    have h : chrono.formatTimestamp t timestampEmit = (Utf8.text? t.text).getD "" := by
      simp only [chrono, if_true]
    rw [h, bytes_getD_of_ascii t.ascii_text]

theorem chrono_readsBack : chrono.ReadsBack where
  parseDate d s hd hs := by
    show (if dateFormat = dateFormat then NaiveDate.ofText (Utf8.bytes s) else none) = _
    rw [if_pos rfl, hs, NaiveDate.ofText_text hd]
  parseTimestamp t s hdate ht hs := by
    show (if timestampParse = timestampParse then NaiveDateTime.ofText (Utf8.bytes s) else none) = _
    rw [if_pos rfl, hs, NaiveDateTime.ofText_text hdate ht]

end Extern

end ExaUdf
