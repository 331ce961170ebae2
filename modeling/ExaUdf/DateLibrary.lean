import ExaUdf.Text

/-!
# What the date library documents

The layouts of `%Y-%m-%d` and `%Y-%m-%d %H:%M:%S%.9f`: every field is padded with zeros, and a year
outside `0..=9999` has a sign.  `Representable` is the range of days that the library can hold.

`Extern.Documented` says what the constructors do on common dates.  `RejectsInvalid` says that they
accept nothing but dates and times, `Ranged` where the constructors from day and second numbers
stop, and `Formats` and `ReadsBack` what is written and read outside the common years.
-/

namespace ExaUdf

open Digits (padStart render)

namespace NaiveDate

/-- `%Y`. -/
def yearText (year : Int) : List UInt8 :=
  if 0 ≤ year ∧ year ≤ 9999 then padStart 4 (render year.natAbs)
  else (if year < 0 then [45] else [43]) ++ padStart 4 (render year.natAbs)

/-- `%Y-%m-%d`. -/
def text (d : NaiveDate) : List UInt8 :=
  yearText d.year ++ [45] ++ padStart 2 (render d.month) ++ [45] ++ padStart 2 (render d.day)

/-- From January 1, 262144 BCE to December 31, 262142 CE. -/
def Representable (d : NaiveDate) : Prop :=
  -262143 ≤ d.year ∧ d.year ≤ 262142

instance (d : NaiveDate) : Decidable d.Representable :=
  inferInstanceAs (Decidable (_ ∧ _))

end NaiveDate

namespace NaiveDateTime

/-- `%H:%M:%S%.9f`. -/
def timeText (t : NaiveDateTime) : List UInt8 :=
  padStart 2 (render t.hour) ++ [58] ++ padStart 2 (render t.minute) ++ [58]
    ++ padStart 2 (render t.second) ++ [46] ++ padStart 9 (render t.nanosecond)

/-- `%Y-%m-%d %H:%M:%S%.9f`, for a time without a leap second. -/
def text (t : NaiveDateTime) : List UInt8 :=
  t.date.text ++ [32] ++ t.timeText

end NaiveDateTime

namespace Extern

/-- Fields that are no date, or no time of day, give nothing. -/
structure RejectsInvalid (ext : Extern) : Prop where
  fromYmdOpt : ∀ year month day, ¬ Gregorian.ValidDate year month day →
    ext.fromYmdOpt year month day = none
  andHmsNanoOpt : ∀ date hour minute second nanos,
    ¬(hour < 24 ∧ minute < 60 ∧ second < 60 ∧ nanos < 2000000000) →
      ext.andHmsNanoOpt date hour minute second nanos = none

/-- The constructors from a day or a second give that day or second, and nothing outside the range
of the library. -/
structure Ranged (ext : Extern) : Prop extends Documented ext where
  fromNumDaysFromCeOpt_range : ∀ d : NaiveDate,
    ext.fromNumDaysFromCeOpt d.numDaysFromCe = if d.Representable then some d else none
  fromTimestamp_range : ∀ t : NaiveDateTime, t.nanosecond < 1000000000 →
    ext.fromTimestamp t.timestamp t.nanosecond = if t.date.Representable then some t else none

/-- The formatters write the documented layouts. -/
structure Formats (ext : Extern) : Prop where
  formatDate : ∀ d, Utf8.bytes (ext.formatDate d dateFormat) = d.text
  formatTimestamp : ∀ t : NaiveDateTime, t.nanosecond < 1000000000 →
    Utf8.bytes (ext.formatTimestamp t timestampEmit) = t.text

/-- The parsers read the documented layouts. -/
structure ReadsBack (ext : Extern) : Prop where
  parseDate : ∀ (d : NaiveDate) s, d.Representable → Utf8.bytes s = d.text →
    ext.parseDate s dateFormat = some d
  parseTimestamp : ∀ (t : NaiveDateTime) s, t.date.Representable → t.nanosecond < 1000000000 →
    Utf8.bytes s = t.text → ext.parseTimestamp s timestampParse = some t

end Extern

end ExaUdf
