import ExaUdf.Checked

/-!
# The fast parsers, with the checks of the language

`parse_2digit` to `fast_parse_timestamp` once more, step by step: an index or a range outside its
slice is a panic, and so is an arithmetic step that leaves its type.
-/

namespace ExaUdf

namespace Checked

/-- `v * 10 + (c - b'0') as u32`. -/
def addDigit (v : Nat) (c : UInt8) : Except Panic Nat := do
  let scaled ← u32 (v * 10)
  let digit ← sub c.toNat 48
  u32 (scaled + digit)

def parse2Digit (b : List UInt8) : Except Panic (Option Nat) :=
  if b.length ≠ 2 then .ok none
  else do
    let b0 ← index b 0
    if !Digits.isDigit b0 then return none
    let b1 ← index b 1
    if !Digits.isDigit b1 then return none
    let tens ← sub b0.toNat 48
    let v ← addDigit tens b1
    return some v

/-- The loop of `parse_4digit`. -/
def parseDigits (v : Nat) : List UInt8 → Except Panic (Option Nat)
  | [] => .ok (some v)
  | c :: b =>
    if !Digits.isDigit c then .ok none
    else do
      let v ← addDigit v c
      parseDigits v b

def parse4Digit (b : List UInt8) : Except Panic (Option Nat) :=
  if b.length ≠ 4 then .ok none else parseDigits 0 b

/-- Go on with a field, or give up. -/
def withField {α : Type} (field : Except Panic (Option Nat))
    (next : Nat → Except Panic (Option α)) : Except Panic (Option α) := do
  match ← field with
  | none => return none
  | some v => next v

/-- Go on if byte `i` is one of `cs`, or give up. -/
def withByte {α : Type} (b : List UInt8) (i : Nat) (cs : List UInt8)
    (next : Except Panic (Option α)) : Except Panic (Option α) := do
  let c ← index b i
  if c ∈ cs then next else return none

def fastParseDate (ext : Extern) (b : List UInt8) : Except Panic (Option NaiveDate) :=
  if b.length ≠ 10 then .ok none
  else withByte b 4 [45] <| withByte b 7 [45] <|
    withField (range b 0 4 >>= parse4Digit) fun year =>
    withField (range b 5 7 >>= parse2Digit) fun month =>
    withField (range b 8 10 >>= parse2Digit) fun day =>
    .ok (ext.fromYmdOpt year month day)

/-- The loop over the fraction, whose bytes are known to be digits. -/
def foldDigits (v : Nat) : List UInt8 → Except Panic Nat
  | [] => .ok v
  | c :: b => do
    let v ← addDigit v c
    foldDigits v b

def fastParseNanos (b : List UInt8) : Except Panic (Option Nat) :=
  if b.length = 19 then .ok (some 0)
  else if b.length ≤ 20 then .ok none
  else withByte b 19 [46] do
    let frac ← range b 20 b.length
    if frac = [] ∨ 9 < frac.length ∨ ¬ frac.all Digits.isDigit then return none
    let value ← foldDigits 0 frac
    let missing ← sub 9 frac.length
    let factor ← u32 (10 ^ missing)
    let nanos ← u32 (value * factor)
    return some nanos

def fastParseTimestamp (ext : Extern) (b : List UInt8) : Except Panic (Option NaiveDateTime) :=
  if b.length < 19 then .ok none
  else withByte b 4 [45] <| withByte b 7 [45] <| withByte b 13 [58] <| withByte b 16 [58] <|
    withByte b 10 [32, 84] <|
    withField (range b 0 4 >>= parse4Digit) fun year =>
    withField (range b 5 7 >>= parse2Digit) fun month =>
    withField (range b 8 10 >>= parse2Digit) fun day =>
    withField (range b 11 13 >>= parse2Digit) fun hour =>
    withField (range b 14 16 >>= parse2Digit) fun minute =>
    withField (range b 17 19 >>= parse2Digit) fun second =>
    withField (fastParseNanos b) fun nanos =>
    match ext.fromYmdOpt year month day with
    | none => .ok none
    | some date => .ok (ext.andHmsNanoOpt date hour minute second nanos)

end Checked

end ExaUdf
