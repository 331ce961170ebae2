import ExaUdf.Lib.Digits
import ExaUdf.Lib.Gregorian
import ExaUdf.Lib.Utf8

/-!
# Column values

The SDK's `Value` with its payload types, the column type tag `ExaType`, `ColumnInfo` and
`UdfError`.

Doubles are kept as their bits, so that a round trip is bit for bit.  A `NaiveDate` is a day of the
proleptic Gregorian calendar and a `NaiveDateTime` a day and a time of day; what the date library
computes from them is a field of `Extern`, and what its documentation promises is
`Extern.Documented`.
-/

namespace ExaUdf

/-- An IEEE double, by its bits. -/
structure F64 where
  bits : UInt64
  deriving DecidableEq, Repr

namespace F64

def toFloat (f : F64) : Float := Float.ofBits f.bits

def ofFloat (f : Float) : F64 := ⟨f.toBits⟩

end F64

/-- An `i128`. -/
abbrev I128 := { n : Int // -2 ^ 127 ≤ n ∧ n < 2 ^ 127 }

theorem zero_mem_i128 : -2 ^ 127 ≤ (0 : Int) ∧ (0 : Int) < 2 ^ 127 := by omega

/-- A fixed-point decimal: `unscaled * 10 ^ (-scale)`. -/
structure Decimal where
  unscaled : I128
  scale : UInt8
  deriving DecidableEq, Repr

/-- A calendar day. -/
@[ext]
structure NaiveDate where
  year : Int
  month : Nat
  day : Nat
  valid : Gregorian.ValidDate year month day
  deriving DecidableEq, Repr

namespace NaiveDate

/-- The number of the day, where 0001-01-01 is day 1. -/
def numDaysFromCe (d : NaiveDate) : Int :=
  Gregorian.dayNumber d.year d.month d.day

/-- 1970-01-01. -/
def epoch : NaiveDate := ⟨1970, 1, 1, by decide⟩

/-- The years that DATE and TIMESTAMP columns can hold, and that the fast writers cover. -/
def InCommonRange (d : NaiveDate) : Prop :=
  0 ≤ d.year ∧ d.year ≤ 9999

instance (d : NaiveDate) : Decidable d.InCommonRange :=
  inferInstanceAs (Decidable (_ ∧ _))

end NaiveDate

/-- A calendar day and a time of day.  A leap second has `nanosecond` from `10 ^ 9` on. -/
@[ext]
structure NaiveDateTime where
  date : NaiveDate
  hour : Nat
  minute : Nat
  second : Nat
  nanosecond : Nat
  hour_lt : hour < 24
  minute_lt : minute < 60
  second_lt : second < 60
  nanosecond_lt : nanosecond < 2000000000
  deriving DecidableEq, Repr

namespace NaiveDateTime

/-- Seconds since 1970-01-01 00:00:00. -/
def timestamp (t : NaiveDateTime) : Int :=
  (t.date.numDaysFromCe - NaiveDate.epoch.numDaysFromCe) * 86400
    + (t.hour * 3600 + t.minute * 60 + t.second)

/-- 1970-01-01 00:00:00. -/
def epoch : NaiveDateTime where
  date := NaiveDate.epoch
  hour := 0
  minute := 0
  second := 0
  nanosecond := 0
  hour_lt := by decide
  minute_lt := by decide
  second_lt := by decide
  nanosecond_lt := by decide

/-- A year the fast writers cover, and no leap second. -/
def InCommonRange (t : NaiveDateTime) : Prop :=
  t.date.InCommonRange ∧ t.nanosecond < 1000000000

instance (t : NaiveDateTime) : Decidable t.InCommonRange :=
  inferInstanceAs (Decidable (_ ∧ _))

end NaiveDateTime

/-- A column value in a UDF call. -/
inductive Value where
  | null
  | double (f : F64)
  | int32 (i : Int32)
  | int64 (i : Int64)
  | numeric (d : Decimal)
  | bool (b : Bool)
  | string (s : String)
  | date (d : NaiveDate)
  | timestamp (ts : NaiveDateTime)
  deriving DecidableEq, Repr

/-- A column type, without a value. -/
inductive ExaType where
  | unsupported
  | double
  | int32
  | int64
  | numeric (precision scale : UInt32)
  | boolean
  | string (size : UInt32)
  | char (size : UInt32)
  | date
  | timestamp (precision : UInt32)
  deriving DecidableEq, Repr

/-- The derived `Debug` text of a column type. -/
def ExaType.debug : ExaType → String
  | .unsupported => "Unsupported"
  | .double => "Double"
  | .int32 => "Int32"
  | .int64 => "Int64"
  | .numeric precision scale =>
    "Numeric \x7b precision: " ++ toString precision.toNat ++ ", scale: "
      ++ toString scale.toNat ++ " \x7d"
  | .boolean => "Boolean"
  | .string size => "String \x7b size: " ++ toString size.toNat ++ " \x7d"
  | .char size => "Char \x7b size: " ++ toString size.toNat ++ " \x7d"
  | .date => "Date"
  | .timestamp precision => "Timestamp \x7b precision: " ++ toString precision.toNat ++ " \x7d"

/-- Declared metadata of one input or output column. -/
structure ColumnInfo where
  name : String
  typ : ExaType
  typeName : String
  size : Option UInt32
  precision : Option UInt32
  scale : Option UInt32
  deriving DecidableEq, Repr

inductive UdfError where
  | user (message : String)
  | unimplemented (message : String)
  | type (message : String)
  | connectBack (message : String)
  | connection (message : String)
  deriving DecidableEq, Repr

/-- The `Display` text of an error. -/
def UdfError.display : UdfError → String
  | .user message => message
  | .unimplemented message => "Feature not supported in v1: " ++ message
  | .type message => "Type error: " ++ message
  | .connectBack message => "Connect-back error: " ++ message
  | .connection message => message

/-- `str::parse::<i128>`. -/
def parseI128 (bs : List UInt8) : Except Digits.ParseError I128 :=
  match h : Digits.parseInt (-2 ^ 127) (2 ^ 127 - 1) bs with
  | .ok n => .ok ⟨n, by have := Digits.parseInt_mem_range (by omega) (by omega) h; omega⟩
  | .error e => .error e

/-- `str::parse::<i64>`. -/
def parseI64 (bs : List UInt8) : Except Digits.ParseError Int64 :=
  (Digits.parseInt (-2 ^ 63) (2 ^ 63 - 1) bs).map Int64.ofInt

/-- The text of the standard library's integer parse error. -/
def parseErrorText : Digits.ParseError → String
  | .empty => "cannot parse integer from empty string"
  | .invalidDigit => "invalid digit found in string"
  | .posOverflow => "number too large to fit in target type"
  | .negOverflow => "number too small to fit in target type"

namespace Decimal

/-- `Decimal::try_from`: drop the first point, parse what is left, count what followed the point. -/
def tryFrom (literal : String) : Except UdfError Decimal :=
  let bs := Utf8.bytes literal
  let split : Except UdfError (List UInt8 × UInt8) :=
    match bs.findIdx? (· == 46) with
    | some point =>
      let scale := bs.length - point - 1
      if scale < 256 then .ok (bs.take point ++ bs.drop (point + 1), UInt8.ofNat scale)
      else .error (.type ("decimal scale too large in '" ++ literal ++ "'"))
    | none => .ok (bs, 0)
  match split with
  | .error e => .error e
  | .ok (digits, scale) =>
    match parseI128 digits with
    | .error e => .error (.type ("invalid decimal literal '" ++ literal ++ "': "
        ++ parseErrorText e))
    | .ok unscaled => .ok ⟨unscaled, scale⟩

/-- The bytes that `Display` writes. -/
def fmt (d : Decimal) : List UInt8 :=
  if d.scale = 0 then Digits.renderInt d.unscaled
  else
    let negative := d.unscaled.val < 0
    let digits := Digits.render d.unscaled.val.natAbs
    let scale := d.scale.toNat
    let padded := if digits.length ≤ scale then Digits.padStart (scale + 1) digits else digits
    let point := padded.length - scale
    let sign := if negative then [45] else []
    sign ++ padded.take point ++ [46] ++ padded.drop point

/-- The `Display` text. -/
def display (d : Decimal) : String :=
  (Utf8.text? d.fmt).getD ""

end Decimal

/-! ### What other libraries provide -/

inductive TimeUnit where
  | second | millisecond | microsecond | nanosecond
  deriving DecidableEq, Repr

/-- The Arrow types an output column can be fed from; `other` stands for every type that cannot. -/
inductive DataType where
  | int32 | int64 | float64 | boolean | utf8 | largeUtf8 | date32
  | timestamp (unit : TimeUnit) (timezone : Option String)
  | decimal128 (precision : UInt8) (scale : Int8)
  | other (name : String)
  deriving DecidableEq, Repr

/-- What the program takes from the date library, float texts and conversions, and derived `Debug`
texts. -/
structure Extern where
  fromYmdOpt : Int → Nat → Nat → Option NaiveDate
  andHmsNanoOpt : NaiveDate → Nat → Nat → Nat → Nat → Option NaiveDateTime
  fromNumDaysFromCeOpt : Int → Option NaiveDate
  fromTimestamp : Int → Nat → Option NaiveDateTime
  fromTimestampMillis : Int → Option NaiveDateTime
  fromTimestampMicros : Int → Option NaiveDateTime
  formatDate : NaiveDate → String → String
  formatTimestamp : NaiveDateTime → String → String
  parseDate : String → String → Option NaiveDate
  parseTimestamp : String → String → Option NaiveDateTime
  displayF64 : F64 → String
  parseF64 : String → Option F64
  numericToF64 : Decimal → F64
  debugValue : Value → String
  debugDataType : DataType → String

namespace Extern

/-- The documented behaviour of the date constructors on common dates: the constructors that take
a day's fields or numbers give that day, and the millisecond and microsecond constructors split off
whole seconds. -/
structure Documented (ext : Extern) : Prop where
  fromYmdOpt : ∀ d : NaiveDate, d.InCommonRange → ext.fromYmdOpt d.year d.month d.day = some d
  andHmsNanoOpt : ∀ t : NaiveDateTime, t.InCommonRange →
    ext.andHmsNanoOpt t.date t.hour t.minute t.second t.nanosecond = some t
  fromNumDaysFromCeOpt : ∀ d : NaiveDate, d.InCommonRange →
    ext.fromNumDaysFromCeOpt d.numDaysFromCe = some d
  fromTimestamp : ∀ t : NaiveDateTime, t.InCommonRange →
    ext.fromTimestamp t.timestamp t.nanosecond = some t
  fromTimestampMillis : ∀ n : Int,
    ext.fromTimestampMillis n = ext.fromTimestamp (n / 1000) (n % 1000 * 1000000).toNat
  fromTimestampMicros : ∀ n : Int,
    ext.fromTimestampMicros n = ext.fromTimestamp (n / 1000000) (n % 1000000 * 1000).toNat

end Extern

end ExaUdf
