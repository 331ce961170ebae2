import ExaUdf.Value

/-!
# The text of a string cell

Numbers, dates and timestamps travel as texts in the string block.  `writeBlockValue` writes them:
decimals, dates and timestamps by hand, falling back to the date library outside the years
`0..=9999`.  `decodeStringBlock` reads them back, with hand-written parsers for the fixed layouts
and the library behind them.
-/

namespace ExaUdf

/-- Part `i..j` of a byte list. -/
def slice (bs : List UInt8) (i j : Nat) : List UInt8 :=
  (bs.drop i).take (j - i)

/-! ### Formats -/

def dateFormat : String := "%Y-%m-%d"

/-- `%.f` is optional fractional digits. -/
def timestampParse : String := "%Y-%m-%d %H:%M:%S%.f"

def timestampEmit : String := "%Y-%m-%d %H:%M:%S%.9f"

def timestampFormatIso : String := "%Y-%m-%dT%H:%M:%S%.f"

/-! ### Parsing -/

def parse2Digit (b : List UInt8) : Option Nat :=
  if b.length ≠ 2 ∨ ¬ b.all Digits.isDigit then none else some (Digits.value b)

def parse4Digit (b : List UInt8) : Option Nat :=
  if b.length ≠ 4 ∨ ¬ b.all Digits.isDigit then none else some (Digits.value b)

/-- The layout `YYYY-MM-DD` and nothing else. -/
def fastParseDate (ext : Extern) (b : List UInt8) : Option NaiveDate :=
  if b.length ≠ 10 ∨ b[4]? ≠ some 45 ∨ b[7]? ≠ some 45 then none
  else do
    let year ← parse4Digit (slice b 0 4)
    let month ← parse2Digit (slice b 5 7)
    let day ← parse2Digit (slice b 8 10)
    ext.fromYmdOpt year month day

/-- The fraction of a second, in nanoseconds: nothing, or a point and one to nine digits. -/
def fastParseNanos (b : List UInt8) : Option Nat :=
  if b.length = 19 then some 0
  else if 20 < b.length ∧ b[19]? = some 46 then
    let frac := b.drop 20
    -- More than nine digits are left to the library.
    if frac = [] ∨ 9 < frac.length ∨ ¬ frac.all Digits.isDigit then none
    else some (Digits.value frac * 10 ^ (9 - frac.length))
  else none

/-- The layout `YYYY-MM-DD HH:MM:SS[.f]`, with a blank or a `T`. -/
def fastParseTimestamp (ext : Extern) (b : List UInt8) : Option NaiveDateTime :=
  if b.length < 19 ∨ b[4]? ≠ some 45 ∨ b[7]? ≠ some 45 ∨ b[13]? ≠ some 58 ∨ b[16]? ≠ some 58
      ∨ (b[10]? ≠ some 32 ∧ b[10]? ≠ some 84) then none
  else do
    let year ← parse4Digit (slice b 0 4)
    let month ← parse2Digit (slice b 5 7)
    let day ← parse2Digit (slice b 8 10)
    let hour ← parse2Digit (slice b 11 13)
    let minute ← parse2Digit (slice b 14 16)
    let second ← parse2Digit (slice b 17 19)
    let nanos ← fastParseNanos b
    -- The fields are digits by now; whether they make a date is up to the library.
    let date ← ext.fromYmdOpt year month day
    ext.andHmsNanoOpt date hour minute second nanos

/-- Decode one non-null string cell by the type of its column; a text that does not parse is
`null`. -/
def decodeStringBlock (ext : Extern) (typ : ExaType) (s : String) : Value :=
  match typ with
  | .numeric _ _ =>
    match Decimal.tryFrom s with
    | .ok d => .numeric d
    | .error _ => .null
  | .date =>
    -- The library is asked only where the hand-written parser gives up.
    match (fastParseDate ext (Utf8.bytes s)).or (ext.parseDate s dateFormat) with
    | some d => .date d
    | none => .null
  | .timestamp _ =>
    match ((fastParseTimestamp ext (Utf8.bytes s)).or (ext.parseTimestamp s timestampParse)).or
        (ext.parseTimestamp s timestampFormatIso) with
    | some ts => .timestamp ts
    | none => .null
  | _ => .string s

/-! ### Writing -/

/-- A number as `itoa` prints it. -/
def intText (i : Int) : List UInt8 :=
  if i < 0 then 45 :: Digits.render i.natAbs else Digits.render i.natAbs

/-- The digits of a decimal of scale 0, by the 64-bit formatter where the number fits. -/
def wholeText (u : I128) : List UInt8 :=
  if -2 ^ 63 ≤ u.val ∧ u.val < 2 ^ 63 then intText (Int64.ofInt u).toInt else intText u

/-- The digits of a magnitude, by the 64-bit formatter where it fits. -/
def magnitudeText (m : Nat) : List UInt8 :=
  if m < 2 ^ 64 then Digits.render (UInt64.ofNat m).toNat else Digits.render m

def writeDecimal (out : List UInt8) (d : Decimal) : List UInt8 :=
  if d.scale = 0 then out ++ wholeText d.unscaled
  else
    let digits := magnitudeText d.unscaled.val.natAbs
    let scale := d.scale.toNat
    let out := if d.unscaled.val < 0 then out ++ [45] else out
    -- The number is less than one in size: zeros fill up to the point.
    if digits.length ≤ scale then
      out ++ [48, 46] ++ List.replicate (scale - digits.length) 48 ++ digits
    else
      let point := digits.length - scale
      out ++ digits.take point ++ [46] ++ digits.drop point

/-- `"00" "01" … "99"`. -/
def digitPairs : List UInt8 :=
  (List.range 100).flatMap fun i => [UInt8.ofNat (48 + i / 10), UInt8.ofNat (48 + i % 10)]

/-- The pair of digits of `v < 100`. -/
def digitPair (v : Nat) : List UInt8 :=
  slice digitPairs (2 * v) (2 * v + 2)

def push2Digit (out : List UInt8) (v : Nat) : List UInt8 :=
  out ++ digitPair v

/-- The buffer of width `w` that the digit loop fills from its end, a pair at a time. -/
def ndigitBuffer : Nat → Nat → List UInt8
  | 0, _ => []
  | 1, v => [UInt8.ofNat (48 + v % 10)]
  | w + 2, v => ndigitBuffer w (v / 100) ++ digitPair (v % 100)

def pushNDigit (w : Nat) (out : List UInt8) (v : Nat) : List UInt8 :=
  out ++ ndigitBuffer w v

def writeYmd (out : List UInt8) (year month day : Nat) : List UInt8 :=
  push2Digit (push2Digit (pushNDigit 4 out year ++ [45]) month ++ [45]) day

def writeHmsNanos (out : List UInt8) (hour minute second nanos : Nat) : List UInt8 :=
  pushNDigit 9
    (push2Digit (push2Digit (push2Digit out hour ++ [58]) minute ++ [58]) second ++ [46]) nanos

/-- `none` where the source writes nothing and returns `false`. -/
def writeFastDate (out : List UInt8) (d : NaiveDate) : Option (List UInt8) :=
  if 0 ≤ d.year ∧ d.year ≤ 9999 then some (writeYmd out d.year.toNat d.month d.day) else none

/-- `none` where the source writes nothing and returns `false`. -/
def writeFastTimestamp (out : List UInt8) (ts : NaiveDateTime) : Option (List UInt8) :=
  -- A leap second is left to the library.
  if 1000000000 ≤ ts.nanosecond then none
  else (writeFastDate out ts.date).map fun out =>
    writeHmsNanos (out ++ [32]) ts.hour ts.minute ts.second ts.nanosecond

/-- Append a non-null value's text form. -/
def writeBlockValue (ext : Extern) (out : List UInt8) (v : Value) : List UInt8 :=
  match v with
  | .string s => out ++ Utf8.bytes s
  | .numeric d => writeDecimal out d
  | .date d => (writeFastDate out d).getD (out ++ Utf8.bytes (ext.formatDate d dateFormat))
  | .timestamp ts =>
    (writeFastTimestamp out ts).getD (out ++ Utf8.bytes (ext.formatTimestamp ts timestampEmit))
  | .int32 i => out ++ intText i.toInt
  | .int64 i => out ++ intText i.toInt
  | .double f => out ++ Utf8.bytes (ext.displayF64 f)
  | .bool b => out ++ Utf8.bytes (if b then "true" else "false")
  | .null => out

/-- The text of a value on its own. -/
def blockText (ext : Extern) (v : Value) : List UInt8 :=
  writeBlockValue ext [] v

end ExaUdf
