import ExaUdf.Checked
import ExaUdf.EmitPack

/-!
# The cells of the columnar path, with the checks of the language

The days and seconds of temporal columns, step by step.
-/

namespace ExaUdf

namespace Checked

/-! ### Days -/

/-- Year, month and day before the casts to `u32`. -/
def civilFields (days : Int) : Except Panic (Int × Int × Int) := do
  let z ← i64 (days + 719468)
  let era := z / 146097
  let doe := z % 146097
  -- From here on the quotients round towards zero.
  let fours ← i64 (doe - doe.tdiv 1460)
  let hundreds ← i64 (fours + doe.tdiv 36524)
  let corrected ← i64 (hundreds - doe.tdiv 146096)
  let yoe := corrected.tdiv 365
  let yearDays ← i64 (365 * yoe)
  let leapDays ← i64 (yearDays + yoe.tdiv 4)
  let before ← i64 (leapDays - yoe.tdiv 100)
  let doy ← i64 (doe - before)
  let fives ← i64 (5 * doy)
  let shifted ← i64 (fives + 2)
  let mp := shifted.tdiv 153
  let monthDays ← i64 (153 * mp)
  let rounded ← i64 (monthDays + 2)
  let rest ← i64 (doy - rounded.tdiv 5)
  let day ← i64 (rest + 1)
  let month ← i64 (if mp < 10 then mp + 3 else mp - 9)
  let eraYears ← i64 (era * 400)
  let marchYear ← i64 (yoe + eraYears)
  let year ← i64 (marchYear + if month ≤ 2 then 1 else 0)
  return (year, month, day)

def civilFromDays (days : Int) : Except Panic (Int × Nat × Nat) := do
  let ymd ← civilFields days
  return (ymd.1, asU32 ymd.2.1, asU32 ymd.2.2)

/-- `DAYS_BEFORE_MONTH[leap][i]`. -/
def daysBefore (leap : Bool) (i : Nat) : Except Panic Nat :=
  if i < 12 then .ok (daysBeforeMonth leap i) else .error .outOfBounds

/-- `MONTH_OF_DOY[leap][doy]`. -/
def monthOf (leap : Bool) (doy : Nat) : Except Panic Nat :=
  if doy < 366 then .ok (monthOfDoy leap doy) else .error .outOfBounds

def load (days : Int) : Except Panic (YearCache × Int) := do
  let ymd ← civilFromDays days
  let leap := isLeap ymd.1
  let before ← sub ymd.2.1 1 >>= daysBefore leap
  let sum ← i64 (before + (ymd.2.2 : Int))
  let doy ← i64 (sum - 1)
  let start ← i64 (days - doy)
  let len ← i64 (365 + if leap then 1 else 0)
  return (⟨start, len, ymd.1, leap⟩, doy)

/-- The cache for the year of `days`, and the day of that year. -/
def lookup (cache : YearCache) (days : Int) : Except Panic (YearCache × Int) := do
  let doy ← i64 (days - cache.start)
  if doy < 0 ∨ cache.len ≤ doy then load days else return (cache, doy)

def civil (cache : YearCache) (days : Int) : Except Panic ((Int × Nat × Nat) × YearCache) := do
  let (cache, doy) ← lookup cache days
  let month ← monthOf cache.leap (asUsize doy)
  let before ← sub month 1 >>= daysBefore cache.leap
  let rest ← sub (asU32 doy) before
  let day ← u32 (rest + 1)
  return ((cache.year, month, day), cache)

/-- Whether the date was written, and the bytes. -/
def writeDate32 (out : List UInt8) (days : Int32) (years : YearCache) :
    Except Panic ((Bool × List UInt8) × YearCache) := do
  let ((year, month, day), years) ← civil years days.toInt
  if 0 ≤ year ∧ year ≤ 9999 then return ((true, writeYmd out (asU32 year) month day), years)
  else return ((false, out), years)

/-- Whether the timestamp was written, and the bytes. -/
def writeTimestamp (out : List UInt8) (secs : Int) (nanos : Nat) (years : YearCache) :
    Except Panic ((Bool × List UInt8) × YearCache) := do
  let ((year, month, day), years) ← civil years (secs / 86400)
  if 0 ≤ year ∧ year ≤ 9999 then
    let sod := asU32 (secs % 86400)
    return ((true, writeHmsNanos (writeYmd out (asU32 year) month day ++ [32])
      (sod / 3600) (sod / 60 % 60) (sod % 60) nanos), years)
  else return ((false, out), years)

/-! ### Cells -/

/-- A date cell: the packer's text, or the date library's, whose day number is an `i32`. -/
def dateCell (ext : Extern) (out : List UInt8) (days : Int32) (years : YearCache) :
    Except Panic (List UInt8 × YearCache) := do
  let ((written, text), years) ← writeDate32 out days years
  if written then return (text, years)
  else
    let number ← i32 (days.toInt + arrowEpochCeDay.toInt)
    return (writeBlockValue ext text (.date ((ext.fromNumDaysFromCeOpt number).getD .epoch)), years)

/-- `timestamp_parts`. -/
def timestampParts (unit : TimeUnit) (v : Int64) : Except Panic (Int × Nat) :=
  match unit with
  | .second => .ok (v.toInt, 0)
  | .millisecond => do return (v.toInt / 1000, asU32 (← i64 (v.toInt % 1000 * 1000000)))
  | .microsecond => do return (v.toInt / 1000000, asU32 (← i64 (v.toInt % 1000000 * 1000)))
  | .nanosecond => .ok (v.toInt / 1000000000, asU32 (v.toInt % 1000000000))

/-- The timestamp arms of `accessor_value`. -/
def timestampValue (ext : Extern) (unit : TimeUnit) (v : Int64) : Value :=
  .timestamp ((match unit with
    | .second => ext.fromTimestamp v.toInt 0
    | .millisecond => ext.fromTimestampMillis v.toInt
    | .microsecond => ext.fromTimestampMicros v.toInt
    | .nanosecond => ext.fromTimestamp (v.toInt / 1000000000)
        (v.toInt % 1000000000).toNat).getD .epoch)

/-- A timestamp cell: the packer's text, or the date library's. -/
def timestampCell (ext : Extern) (out : List UInt8) (unit : TimeUnit) (v : Int64)
    (years : YearCache) : Except Panic (List UInt8 × YearCache) := do
  let (secs, nanos) ← timestampParts unit v
  let ((written, text), years) ← writeTimestamp out secs nanos years
  if written then return (text, years)
  else return (writeBlockValue ext text (timestampValue ext unit v), years)

end Checked

end ExaUdf
