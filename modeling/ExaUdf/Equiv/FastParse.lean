import ExaUdf.Equiv.DateLibrary
import ExaUdf.FastParse

/-!
# The fast parsers never panic and read exactly their layouts

Every index, range and step of the checked parsers stays within its bounds, so they do what the
plain ones do (`Checked.fastParseDate_eq`, `Checked.fastParseTimestamp_eq`).

A text is read as a date or timestamp exactly if it has the fixed layout and its fields are those of
the result (`fastParseDate_iff`, `fastParseTimestamp_iff`).
-/

namespace ExaUdf

open Digits

/-! ### No panic -/

namespace Checked

theorem range_eq {b : List UInt8} {i j : Nat} (hij : i ≤ j) (hj : j ≤ b.length) :
    range b i j = .ok (slice b i j) :=
  if_pos ⟨hij, hj⟩

/-- Eight digits and one more stay below `2 ^ 32`. -/
theorem addDigit_eq {v : Nat} {c : UInt8} (hv : v < 100000000) (hc : isDigit c = true) :
    addDigit v c = .ok (10 * v + (c.toNat - 48)) := by
  have hdigit := isDigit_iff.mp hc
  have hscaled : u32 (v * 10) = .ok (v * 10) := if_pos (by omega)
  have hsub : sub c.toNat 48 = .ok (c.toNat - 48) := if_pos hdigit.1
  have hsum : u32 (v * 10 + (c.toNat - 48)) = .ok (v * 10 + (c.toNat - 48)) := if_pos (by omega)
  rw [addDigit, hscaled, hsub, Nat.mul_comm 10 v]
  exact hsum

theorem parse2Digit_eq (b : List UInt8) :
    Checked.parse2Digit b = .ok (ExaUdf.parse2Digit b) := by
  rw [Checked.parse2Digit, ExaUdf.parse2Digit]
  by_cases hlen : b.length = 2
  · obtain ⟨b0, b1, rfl⟩ := List.length_eq_two.mp hlen
    cases h0 : isDigit b0 with
    | false => simp [index, bind, Except.bind, pure, Except.pure, h0]
    | true =>
      cases h1 : isDigit b1 with
      | false => simp [index, bind, Except.bind, pure, Except.pure, h0, h1]
      | true =>
        have hdigit := isDigit_iff.mp h0
        have hsub : sub b0.toNat 48 = .ok (b0.toNat - 48) := if_pos hdigit.1
        have hadd : addDigit (b0.toNat - 48) b1 = _ := addDigit_eq (by omega) h1
        have hvalue : value [b0, b1] = 10 * (b0.toNat - 48) + (b1.toNat - 48) := by
          simp [value]
        simp [index, bind, Except.bind, pure, Except.pure, h0, h1, hsub, hadd, hvalue]
  · rw [if_pos hlen, if_pos (.inl hlen)]

/-- The loop over the digits of a field of at most nine. -/
theorem parseDigits_eq (b : List UInt8) {v : Nat} (hfit : (v + 1) * 10 ^ b.length ≤ 10 ^ 9) :
    parseDigits v b = .ok (if b.all isDigit then some (v * 10 ^ b.length + value b) else none) := by
  induction b generalizing v with
  | nil => simp [parseDigits]
  | cons c b ih =>
    rw [parseDigits]
    cases hc : isDigit c with
    | false => simp [hc]
    | true =>
      have hdigit := isDigit_iff.mp hc
      have hpow : 1 ≤ 10 ^ b.length := Nat.one_le_pow _ _ (by omega)
      rw [List.length_cons, pow_succ, Nat.mul_comm (10 ^ b.length), ← Nat.mul_assoc] at hfit
      have hv : (v + 1) * 10 ≤ 10 ^ 9 := Nat.le_trans (Nat.le_mul_of_pos_right _ hpow) hfit
      have hnext : (10 * v + (c.toNat - 48) + 1) * 10 ^ b.length ≤ 10 ^ 9 :=
        Nat.le_trans (Nat.mul_le_mul_right _ (by omega)) hfit
      have hvalue : v * 10 ^ (c :: b).length + value (c :: b)
          = (10 * v + (c.toNat - 48)) * 10 ^ b.length + value b := by
        rw [value_cons, List.length_cons, pow_succ]
        ring
      rw [addDigit_eq (by omega) hc, hvalue]
      simp only [Bool.not_true, Bool.false_eq_true, if_false, List.all_cons, hc, Bool.true_and]
      exact ih hnext

theorem parse4Digit_eq (b : List UInt8) :
    Checked.parse4Digit b = .ok (ExaUdf.parse4Digit b) := by
  rw [Checked.parse4Digit, ExaUdf.parse4Digit]
  by_cases hlen : b.length = 4
  · rw [if_neg (not_not_intro hlen), parseDigits_eq b (by rw [hlen]; decide)]
    by_cases hall : b.all isDigit = true
    · rw [if_pos hall, if_neg fun h => h.elim (· hlen) (· hall), Nat.zero_mul, Nat.zero_add]
    · rw [if_neg hall, if_pos (.inr hall)]
  · rw [if_pos hlen, if_pos (.inl hlen)]

theorem foldDigits_eq (b : List UInt8) (hb : ∀ c ∈ b, isDigit c = true) {v : Nat}
    (hfit : (v + 1) * 10 ^ b.length ≤ 10 ^ 9) :
    foldDigits v b = .ok (v * 10 ^ b.length + value b) := by
  induction b generalizing v with
  | nil => simp [foldDigits]
  | cons c b ih =>
    have hc := hb c List.mem_cons_self
    have hdigit := isDigit_iff.mp hc
    have hpow : 1 ≤ 10 ^ b.length := Nat.one_le_pow _ _ (by omega)
    rw [List.length_cons, pow_succ, Nat.mul_comm (10 ^ b.length), ← Nat.mul_assoc] at hfit
    have hv : (v + 1) * 10 ≤ 10 ^ 9 := Nat.le_trans (Nat.le_mul_of_pos_right _ hpow) hfit
    have hnext : (10 * v + (c.toNat - 48) + 1) * 10 ^ b.length ≤ 10 ^ 9 :=
      Nat.le_trans (Nat.mul_le_mul_right _ (by omega)) hfit
    have hvalue : v * 10 ^ (c :: b).length + value (c :: b)
        = (10 * v + (c.toNat - 48)) * 10 ^ b.length + value b := by
      rw [value_cons, List.length_cons, pow_succ]
      ring
    rw [foldDigits, addDigit_eq (by omega) hc, hvalue]
    exact ih (fun d hd => hb d (List.mem_cons_of_mem c hd)) hnext

theorem withByte_eq {α : Type} {b : List UInt8} {i : Nat} (hi : i < b.length) (cs : List UInt8)
    (next : Except Panic (Option α)) :
    withByte b i cs next = if ∃ c ∈ cs, b[i]? = some c then next else .ok none := by
  have hget : b[i]? = some b[i] := List.getElem?_eq_getElem hi
  have hindex : index b i = .ok b[i] := by rw [index, hget]
  have hiff : (∃ c ∈ cs, b[i]? = some c) ↔ b[i] ∈ cs := by
    rw [hget]
    constructor
    · rintro ⟨c, hc, heq⟩
      rwa [Option.some.inj heq]
    · exact fun hmem => ⟨_, hmem, rfl⟩
  rw [withByte, hindex]
  simp only [hiff]
  rfl

theorem withField_eq {α : Type} {field : Except Panic (Option Nat)} {v : Option Nat}
    {next : Nat → Except Panic (Option α)} {f : Nat → Option α} (hfield : field = .ok v)
    (hnext : ∀ n, next n = .ok (f n)) : withField field next = .ok (v.bind f) := by
  rw [withField, hfield]
  cases v with
  | none => rfl
  | some n => exact hnext n

theorem range_parse2Digit {b : List UInt8} {i j : Nat} (hij : i ≤ j) (hj : j ≤ b.length) :
    (range b i j >>= Checked.parse2Digit) = .ok (ExaUdf.parse2Digit (slice b i j)) := by
  rw [range_eq hij hj]
  exact parse2Digit_eq _

theorem range_parse4Digit {b : List UInt8} {i j : Nat} (hij : i ≤ j) (hj : j ≤ b.length) :
    (range b i j >>= Checked.parse4Digit) = .ok (ExaUdf.parse4Digit (slice b i j)) := by
  rw [range_eq hij hj]
  exact parse4Digit_eq _

/-- **Dates**: no step panics. -/
theorem fastParseDate_eq (ext : Extern) (b : List UInt8) :
    Checked.fastParseDate ext b = .ok (ExaUdf.fastParseDate ext b) := by
  rw [Checked.fastParseDate, ExaUdf.fastParseDate]
  by_cases hlen : b.length = 10
  · rw [if_neg (not_not_intro hlen), withByte_eq (by omega), withByte_eq (by omega)]
    simp only [List.mem_singleton, exists_eq_left]
    by_cases h4 : b[4]? = some 45
    · by_cases h7 : b[7]? = some 45
      · have hlayout : ¬(b.length ≠ 10 ∨ b[4]? ≠ some 45 ∨ b[7]? ≠ some 45) := by
          simp only [not_or, not_not]
          exact ⟨hlen, h4, h7⟩
        rw [if_pos h4, if_pos h7, if_neg hlayout]
        refine withField_eq (range_parse4Digit (by omega) (by omega)) fun year => ?_
        refine withField_eq (range_parse2Digit (by omega) (by omega)) fun month => ?_
        exact withField_eq (range_parse2Digit (by omega) (by omega)) fun day => rfl
      · rw [if_pos h4, if_neg h7, if_pos (.inr (.inr h7))]
    · rw [if_neg h4, if_pos (.inr (.inl h4))]
  · rw [if_pos hlen, if_pos (.inl hlen)]

/-- The fraction has at most nine digits, and scaled to nanoseconds it stays below a second. -/
theorem fastParseNanos_eq {b : List UInt8} (hlen : 19 ≤ b.length) :
    Checked.fastParseNanos b = .ok (ExaUdf.fastParseNanos b) := by
  rw [Checked.fastParseNanos, ExaUdf.fastParseNanos]
  by_cases h19 : b.length = 19
  · rw [if_pos h19, if_pos h19]
  rw [if_neg h19, if_neg h19]
  by_cases h20 : b.length ≤ 20
  · rw [if_pos h20, if_neg fun h => absurd h.1 (by omega)]
  rw [if_neg h20, withByte_eq (by omega)]
  simp only [List.mem_singleton, exists_eq_left]
  by_cases hpoint : b[19]? = some 46
  · have hfrac : slice b 20 b.length = b.drop 20 := by
      rw [slice, List.take_of_length_le]
      rw [List.length_drop]
    rw [if_pos hpoint, if_pos ⟨by omega, hpoint⟩, range_eq (by omega) (Nat.le_refl _), hfrac]
    generalize b.drop 20 = frac
    dsimp only [bind, Except.bind]
    by_cases hbad : frac = [] ∨ 9 < frac.length ∨ ¬ frac.all isDigit = true
    · rw [if_pos hbad, if_pos hbad]
      rfl
    · rw [if_neg hbad, if_neg hbad]
      simp only [not_or, not_lt, not_not] at hbad
      obtain ⟨-, hle, hall⟩ := hbad
      have hdigits := List.all_eq_true.mp hall
      -- At most nine digits: neither the number nor the power of ten leaves 32 bits.
      have hpow : 10 ^ frac.length ≤ 10 ^ 9 := Nat.pow_le_pow_right (by omega) hle
      have hfold := foldDigits_eq frac hdigits (v := 0) (by rwa [Nat.zero_add, Nat.one_mul])
      have hsub : sub 9 frac.length = .ok (9 - frac.length) := if_pos hle
      have hfactor : u32 (10 ^ (9 - frac.length)) = .ok (10 ^ (9 - frac.length)) := by
        have hle9 : 10 ^ (9 - frac.length) ≤ 10 ^ 9 := Nat.pow_le_pow_right (by omega) (by omega)
        exact if_pos (by omega)
      have hnanos : value frac * 10 ^ (9 - frac.length) < 10 ^ 9 := by
        calc value frac * 10 ^ (9 - frac.length)
            < 10 ^ frac.length * 10 ^ (9 - frac.length) :=
              Nat.mul_lt_mul_of_pos_right (value_lt hdigits) (Nat.pow_pos (by omega))
          _ = 10 ^ 9 := by rw [← pow_add, Nat.add_sub_cancel' hle]
      have hmul : u32 (value frac * 10 ^ (9 - frac.length))
          = .ok (value frac * 10 ^ (9 - frac.length)) := if_pos (by omega)
      rw [Nat.zero_mul, Nat.zero_add] at hfold
      simp only [hfold, hsub, hfactor, hmul]
      rfl
  · rw [if_neg hpoint, if_neg fun h => hpoint h.2]

/-- **Timestamps**: no step panics. -/
theorem fastParseTimestamp_eq (ext : Extern) (b : List UInt8) :
    Checked.fastParseTimestamp ext b = .ok (ExaUdf.fastParseTimestamp ext b) := by
  rw [Checked.fastParseTimestamp, ExaUdf.fastParseTimestamp]
  by_cases hlen : b.length < 19
  · rw [if_pos hlen, if_pos (.inl hlen)]
  rw [if_neg hlen, withByte_eq (by omega), withByte_eq (by omega), withByte_eq (by omega),
    withByte_eq (by omega), withByte_eq (by omega)]
  simp only [List.mem_cons, List.not_mem_nil, or_false, exists_eq_left, exists_eq_or_imp]
  by_cases hlayout : b[4]? = some 45 ∧ b[7]? = some 45 ∧ b[13]? = some 58 ∧ b[16]? = some 58 ∧
      (b[10]? = some 32 ∨ b[10]? = some 84)
  · obtain ⟨h4, h7, h13, h16, h10⟩ := hlayout
    rw [if_pos h4, if_pos h7, if_pos h13, if_pos h16, if_pos h10,
      if_neg (by simp only [hlen, h4, h7, h13, h16, not_true_eq_false, false_or, ne_eq]; tauto)]
    refine withField_eq (range_parse4Digit (by omega) (by omega)) fun year => ?_
    refine withField_eq (range_parse2Digit (by omega) (by omega)) fun month => ?_
    refine withField_eq (range_parse2Digit (by omega) (by omega)) fun day => ?_
    refine withField_eq (range_parse2Digit (by omega) (by omega)) fun hour => ?_
    refine withField_eq (range_parse2Digit (by omega) (by omega)) fun minute => ?_
    refine withField_eq (range_parse2Digit (by omega) (by omega)) fun second => ?_
    refine withField_eq (fastParseNanos_eq (by omega)) fun nanos => ?_
    cases ext.fromYmdOpt year month day <;> rfl
  · have hbad : b.length < 19 ∨ b[4]? ≠ some 45 ∨ b[7]? ≠ some 45 ∨ b[13]? ≠ some 58 ∨
        b[16]? ≠ some 58 ∨ (b[10]? ≠ some 32 ∧ b[10]? ≠ some 84) := by tauto
    rw [if_pos hbad]
    split_ifs with h4 h7 h13 h16 h10
    · exact absurd ⟨h4, h7, h13, h16, h10⟩ hlayout
    all_goals rfl

end Checked

/-! ### The layouts -/

/-- `w` digits. -/
structure Field (w : Nat) (bs : List UInt8) : Prop where
  length : bs.length = w
  digits : ∀ b ∈ bs, isDigit b = true

/-- `YYYY-MM-DD` with the fields of `d`. -/
def DateLayout (bs : List UInt8) (d : NaiveDate) : Prop :=
  ∃ year month day : List UInt8,
    bs = year ++ 45 :: (month ++ 45 :: day) ∧ Field 4 year ∧ Field 2 month ∧ Field 2 day ∧
      d.year = value year ∧ d.month = value month ∧ d.day = value day

/-- Nothing, or a point and one to nine digits, which count parts of a second. -/
def FractionLayout (bs : List UInt8) (nanos : Nat) : Prop :=
  bs = [] ∧ nanos = 0 ∨
    ∃ w ds, 1 ≤ w ∧ w ≤ 9 ∧ Field w ds ∧ bs = 46 :: ds ∧ nanos = value ds * 10 ^ (9 - w)

/-- `YYYY-MM-DD`, a blank or a `T`, `HH:MM:SS` and a fraction, with the fields of `t`. -/
def TimestampLayout (bs : List UInt8) (t : NaiveDateTime) : Prop :=
  ∃ date sep hour minute second frac,
    bs = date ++ sep :: (hour ++ 58 :: (minute ++ 58 :: (second ++ frac))) ∧
      (sep = 32 ∨ sep = 84) ∧ DateLayout date t.date ∧ Field 2 hour ∧ Field 2 minute ∧
      Field 2 second ∧ FractionLayout frac t.nanosecond ∧ t.hour = value hour ∧
      t.minute = value minute ∧ t.second = value second

theorem parse2Digit_eq_some {b : List UInt8} {n : Nat} :
    parse2Digit b = some n ↔ Field 2 b ∧ n = value b := by
  rw [parse2Digit]
  constructor
  · intro h
    split_ifs at h with hbad
    simp only [not_or, not_not] at hbad
    exact ⟨⟨hbad.1, List.all_eq_true.mp hbad.2⟩, (Option.some.inj h).symm⟩
  · rintro ⟨⟨hlen, hdigits⟩, rfl⟩
    exact if_neg fun h => h.elim (· hlen) (· (List.all_eq_true.mpr hdigits))

theorem parse4Digit_eq_some {b : List UInt8} {n : Nat} :
    parse4Digit b = some n ↔ Field 4 b ∧ n = value b := by
  rw [parse4Digit]
  constructor
  · intro h
    split_ifs at h with hbad
    simp only [not_or, not_not] at hbad
    exact ⟨⟨hbad.1, List.all_eq_true.mp hbad.2⟩, (Option.some.inj h).symm⟩
  · rintro ⟨⟨hlen, hdigits⟩, rfl⟩
    exact if_neg fun h => h.elim (· hlen) (· (List.all_eq_true.mpr hdigits))

theorem Field.two {bs : List UInt8} (h : Field 2 bs) : ∃ a b, bs = [a, b] :=
  List.length_eq_two.mp h.length

theorem Field.four {bs : List UInt8} (h : Field 4 bs) : ∃ a b c d, bs = [a, b, c, d] :=
  List.length_eq_four.mp h.length

/-- Cut at byte `j`. -/
theorem drop_eq_slice {b : List UInt8} {i j : Nat} {c : UInt8} (hij : i ≤ j)
    (h : b[j]? = some c) : b.drop i = slice b i j ++ c :: b.drop (j + 1) := by
  obtain ⟨hlt, hget⟩ := List.getElem?_eq_some_iff.mp h
  have hcut : (b.drop i).drop (j - i) = c :: b.drop (j + 1) := by
    rw [List.drop_drop, Nat.add_sub_cancel' hij, List.drop_eq_getElem_cons hlt, hget]
  rw [← hcut, slice, List.take_append_drop]

/-! ### The date library on fields -/

section

variable {ext : Extern} (hext : ext.Documented) (hrej : ext.RejectsInvalid)

include hext hrej

theorem fromYmdOpt_eq_some {year month day : Nat} (hyear : year < 10000) {d : NaiveDate} :
    ext.fromYmdOpt year month day = some d ↔
      d.year = year ∧ d.month = month ∧ d.day = day := by
  by_cases hvalid : Gregorian.ValidDate year month day
  · let d' : NaiveDate := ⟨year, month, day, hvalid⟩
    have hcommon : d'.InCommonRange := ⟨Int.natCast_nonneg year, by
      show (year : Int) ≤ 9999
      omega⟩
    have hsome : ext.fromYmdOpt year month day = some d' := hext.fromYmdOpt d' hcommon
    rw [hsome, Option.some.injEq, NaiveDate.ext_iff]
    simp only [d', eq_comm]
  · rw [hrej.fromYmdOpt _ _ _ hvalid]
    simp only [reduceCtorEq, false_iff]
    rintro ⟨hy, hm, hd⟩
    have hd' := d.valid
    rw [hy, hm, hd] at hd'
    exact hvalid hd'

theorem andHmsNanoOpt_eq_some {date : NaiveDate} (hdate : date.InCommonRange)
    {hour minute second nanos : Nat} (hnanos : nanos < 1000000000) {t : NaiveDateTime} :
    ext.andHmsNanoOpt date hour minute second nanos = some t ↔
      t.date = date ∧ t.hour = hour ∧ t.minute = minute ∧ t.second = second ∧
        t.nanosecond = nanos := by
  by_cases hvalid : hour < 24 ∧ minute < 60 ∧ second < 60 ∧ nanos < 2000000000
  · let t' : NaiveDateTime :=
      ⟨date, hour, minute, second, nanos, hvalid.1, hvalid.2.1, hvalid.2.2.1, hvalid.2.2.2⟩
    have hsome : ext.andHmsNanoOpt date hour minute second nanos = some t' :=
      hext.andHmsNanoOpt t' ⟨hdate, hnanos⟩
    rw [hsome, Option.some.injEq, NaiveDateTime.ext_iff]
    simp only [t', eq_comm]
  · rw [hrej.andHmsNanoOpt _ _ _ _ _ hvalid]
    simp only [reduceCtorEq, false_iff]
    rintro ⟨-, rfl, rfl, rfl, rfl⟩
    exact hvalid ⟨t.hour_lt, t.minute_lt, t.second_lt, t.nanosecond_lt⟩

/-! ### What is read -/

/-- **Dates**: exactly the fixed layout is read, with the fields it shows. -/
theorem fastParseDate_iff (b : List UInt8) (d : NaiveDate) :
    fastParseDate ext b = some d ↔ DateLayout b d := by
  constructor
  · intro h
    rw [fastParseDate] at h
    split_ifs at h with hlayout
    simp only [not_or, not_not] at hlayout
    obtain ⟨hlen, h4, h7⟩ := hlayout
    -- Every part has been read, so each is a field of digits.
    simp only [Option.bind_eq_bind, Option.bind_eq_some_iff, parse4Digit_eq_some,
      parse2Digit_eq_some] at h
    obtain ⟨_, ⟨hyear, rfl⟩, _, ⟨hmonth, rfl⟩, _, ⟨hday, rfl⟩, h⟩ := h
    have hlt := value_lt hyear.digits
    rw [hyear.length] at hlt
    rw [fromYmdOpt_eq_some hext hrej hlt] at h
    refine ⟨_, _, _, ?_, hyear, hmonth, hday, h⟩
    have hrest : b.drop 8 = slice b 8 10 := by
      rw [slice, List.take_of_length_le]
      rw [List.length_drop]
      omega
    rw [← hrest, ← drop_eq_slice (by omega) h7, ← drop_eq_slice (by omega) h4, List.drop_zero]
  · rintro ⟨year, month, day, rfl, hyear, hmonth, hday, hy, hm, hd⟩
    have hlt := value_lt hyear.digits
    rw [hyear.length] at hlt
    have hparse := (fromYmdOpt_eq_some hext hrej hlt).mpr ⟨hy, hm, hd⟩
    have hy' := parse4Digit_eq_some.mpr ⟨hyear, rfl⟩
    have hm' := parse2Digit_eq_some.mpr ⟨hmonth, rfl⟩
    have hd' := parse2Digit_eq_some.mpr ⟨hday, rfl⟩
    obtain ⟨y0, y1, y2, y3, rfl⟩ := hyear.four
    obtain ⟨m0, m1, rfl⟩ := hmonth.two
    obtain ⟨d0, d1, rfl⟩ := hday.two
    rw [fastParseDate, if_neg (by simp)]
    show (parse4Digit [y0, y1, y2, y3]).bind (fun year =>
      (parse2Digit [m0, m1]).bind fun month =>
      (parse2Digit [d0, d1]).bind fun day => ext.fromYmdOpt year month day) = some d
    rw [hy', Option.bind_some, hm', Option.bind_some, hd', Option.bind_some]
    exact hparse

omit hext hrej in
theorem fastParseNanos_eq_some {b : List UInt8} (hlen : 19 ≤ b.length) {nanos : Nat} :
    fastParseNanos b = some nanos ↔ FractionLayout (b.drop 19) nanos := by
  rw [fastParseNanos]
  by_cases h19 : b.length = 19
  · have hnil : b.drop 19 = [] := List.drop_eq_nil_of_le (Nat.le_of_eq h19)
    rw [if_pos h19, hnil]
    constructor
    · intro h
      exact .inl ⟨rfl, (Option.some.inj h).symm⟩
    · rintro (⟨-, rfl⟩ | ⟨_, _, _, _, _, h, _⟩)
      · rfl
      · cases h
  rw [if_neg h19]
  -- Byte 19 is there, and it is the point or there is no fraction.
  have hhead : b.drop 19 = b[19] :: b.drop 20 := List.drop_eq_getElem_cons (by omega)
  constructor
  · intro h
    split_ifs at h with hpoint
    obtain ⟨hlt, hpoint⟩ := hpoint
    dsimp only at h
    split_ifs at h with hbad
    simp only [not_or, not_lt, not_not] at hbad
    obtain ⟨hne, hle, hall⟩ := hbad
    obtain rfl := Option.some.inj h
    rw [drop_eq_slice (Nat.le_refl 19) hpoint]
    refine .inr ⟨_, _, List.length_pos_iff.mpr hne, hle, ⟨rfl, List.all_eq_true.mp hall⟩, ?_, rfl⟩
    rw [slice, Nat.sub_self, List.take_zero, List.nil_append]
  · rintro (⟨hnil, -⟩ | ⟨w, ds, hw1, hw9, ⟨rfl, hdigits⟩, hcons, rfl⟩)
    · rw [hhead] at hnil
      cases hnil
    · have hlen' := congrArg List.length hcons
      rw [List.length_drop, List.length_cons] at hlen'
      have hget : b[19]? = some 46 := by
        rw [List.getElem?_eq_getElem (by omega)]
        rw [hhead] at hcons
        exact congrArg some (List.head_eq_of_cons_eq hcons)
      have hfrac : b.drop 20 = ds := by
        rw [hhead] at hcons
        exact List.tail_eq_of_cons_eq hcons
      have hne : ds ≠ [] := List.length_pos_iff.mp hw1
      rw [if_pos ⟨by omega, hget⟩]
      simp only [hfrac]
      rw [if_neg]
      simp only [not_or, not_lt, not_not]
      exact ⟨hne, hw9, List.all_eq_true.mpr hdigits⟩

omit hext hrej in
theorem FractionLayout.lt {bs : List UInt8} {nanos : Nat} (h : FractionLayout bs nanos) :
    nanos < 1000000000 := by
  obtain ⟨-, rfl⟩ | ⟨w, ds, -, hw9, ⟨rfl, hdigits⟩, -, rfl⟩ := h
  · omega
  · calc value ds * 10 ^ (9 - ds.length)
        < 10 ^ ds.length * 10 ^ (9 - ds.length) :=
          Nat.mul_lt_mul_of_pos_right (value_lt hdigits) (Nat.pow_pos (by omega))
      _ = 10 ^ 9 := by rw [← pow_add, Nat.add_sub_cancel' hw9]

omit hext hrej in
theorem DateLayout.inCommonRange {bs : List UInt8} {d : NaiveDate} (h : DateLayout bs d) :
    d.InCommonRange := by
  obtain ⟨year, -, -, -, hyear, -, -, hy, -⟩ := h
  have hlt := value_lt hyear.digits
  rw [hyear.length] at hlt
  constructor <;> omega

/-- **Timestamps**: exactly the fixed layout is read, with the fields it shows. -/
theorem fastParseTimestamp_iff (b : List UInt8) (t : NaiveDateTime) :
    fastParseTimestamp ext b = some t ↔ TimestampLayout b t := by
  constructor
  · intro h
    rw [fastParseTimestamp] at h
    split_ifs at h with hlayout
    simp only [not_or, not_not, not_and_or, not_lt] at hlayout
    obtain ⟨hlen, h4, h7, h13, h16, h10⟩ := hlayout
    simp only [Option.bind_eq_bind, Option.bind_eq_some_iff, parse4Digit_eq_some,
      parse2Digit_eq_some, fastParseNanos_eq_some hlen] at h
    obtain ⟨_, ⟨hyear, rfl⟩, _, ⟨hmonth, rfl⟩, _, ⟨hday, rfl⟩, _, ⟨hhour, rfl⟩, _, ⟨hminute, rfl⟩,
      _, ⟨hsecond, rfl⟩, nanos, hnanos, date, hdate, h⟩ := h
    have hlt := value_lt hyear.digits
    rw [hyear.length] at hlt
    rw [fromYmdOpt_eq_some hext hrej hlt] at hdate
    have hdateLayout : DateLayout (slice b 0 4 ++ 45 :: (slice b 5 7 ++ 45 :: slice b 8 10)) date :=
      ⟨_, _, _, rfl, hyear, hmonth, hday, hdate⟩
    rw [andHmsNanoOpt_eq_some hext hrej hdateLayout.inCommonRange hnanos.lt] at h
    obtain ⟨rfl, hh, hm, hs, rfl⟩ := h
    -- The separator is the byte between the date and the time.
    obtain ⟨sep, hsep, hget⟩ : ∃ sep : UInt8, (sep = 32 ∨ sep = 84) ∧ b[10]? = some sep := by
      rcases h10 with h10 | h10
      · exact ⟨32, .inl rfl, h10⟩
      · exact ⟨84, .inr rfl, h10⟩
    refine ⟨_, sep, _, _, _, _, ?_, hsep, hdateLayout, hhour, hminute, hsecond, hnanos, hh, hm, hs⟩
    have hrest : slice b 17 19 ++ b.drop 19 = b.drop 17 := by
      have hdrop : b.drop 19 = (b.drop 17).drop 2 := by rw [List.drop_drop]
      rw [slice, hdrop, List.take_append_drop]
    rw [hrest, ← drop_eq_slice (by omega) h16, ← drop_eq_slice (by omega) h13, List.append_assoc,
      List.cons_append, List.append_assoc, List.cons_append, ← drop_eq_slice (by omega) hget,
      ← drop_eq_slice (by omega) h7, ← drop_eq_slice (by omega) h4, List.drop_zero]
  · rintro ⟨date, sep, hour, minute, second, frac, rfl, hsep, hdate, hhour, hminute, hsecond, hfrac,
      hh, hm, hs⟩
    have hcommon := hdate.inCommonRange
    obtain ⟨year, month, day, rfl, hyear, hmonth, hday, hdateFields⟩ := hdate
    have hlt := value_lt hyear.digits
    rw [hyear.length] at hlt
    have hymd := (fromYmdOpt_eq_some hext hrej hlt).mpr hdateFields
    have hhms := (andHmsNanoOpt_eq_some hext hrej hcommon hfrac.lt).mpr ⟨rfl, hh, hm, hs, rfl⟩
    have hy' := parse4Digit_eq_some.mpr ⟨hyear, rfl⟩
    have hm' := parse2Digit_eq_some.mpr ⟨hmonth, rfl⟩
    have hd' := parse2Digit_eq_some.mpr ⟨hday, rfl⟩
    have hh' := parse2Digit_eq_some.mpr ⟨hhour, rfl⟩
    have hmin' := parse2Digit_eq_some.mpr ⟨hminute, rfl⟩
    have hs' := parse2Digit_eq_some.mpr ⟨hsecond, rfl⟩
    obtain ⟨y0, y1, y2, y3, rfl⟩ := hyear.four
    obtain ⟨m0, m1, rfl⟩ := hmonth.two
    obtain ⟨d0, d1, rfl⟩ := hday.two
    obtain ⟨h0, h1, rfl⟩ := hhour.two
    obtain ⟨i0, i1, rfl⟩ := hminute.two
    obtain ⟨s0, s1, rfl⟩ := hsecond.two
    generalize htext : ([y0, y1, y2, y3] ++ 45 :: ([m0, m1] ++ 45 :: [d0, d1])) ++
      sep :: ([h0, h1] ++ 58 :: ([i0, i1] ++ 58 :: ([s0, s1] ++ frac))) = text
    have hlen : 19 ≤ text.length := by
      rw [← htext]
      simp
    have hnanos : fastParseNanos text = some t.nanosecond := by
      rw [fastParseNanos_eq_some hlen, ← htext]
      exact hfrac
    have hlayout : ¬(text.length < 19 ∨ text[4]? ≠ some 45 ∨ text[7]? ≠ some 45 ∨
        text[13]? ≠ some 58 ∨ text[16]? ≠ some 58 ∨
        (text[10]? ≠ some 32 ∧ text[10]? ≠ some 84)) := by
      have hsep' : text[10]? = some sep := by rw [← htext]; rfl
      simp only [not_or, not_not, not_and_or, not_lt, hsep', Option.some.injEq]
      exact ⟨hlen, by rw [← htext]; rfl, by rw [← htext]; rfl, by rw [← htext]; rfl,
        by rw [← htext]; rfl, hsep⟩
    have e0 : slice text 0 4 = [y0, y1, y2, y3] := by rw [← htext]; rfl
    have e5 : slice text 5 7 = [m0, m1] := by rw [← htext]; rfl
    have e8 : slice text 8 10 = [d0, d1] := by rw [← htext]; rfl
    have e11 : slice text 11 13 = [h0, h1] := by rw [← htext]; rfl
    have e14 : slice text 14 16 = [i0, i1] := by rw [← htext]; rfl
    have e17 : slice text 17 19 = [s0, s1] := by rw [← htext]; rfl
    rw [fastParseTimestamp, if_neg hlayout, e0, e5, e8, e11, e14, e17, hy', hm', hd', hh', hmin',
      hs', hnanos]
    simp only [Option.bind_eq_bind, Option.bind_some, hymd]
    exact hhms

end

/-- **The fast parsers are exact.**  On every text they end without a panic; they read a date or a
timestamp exactly from its fixed layout; and they read back what the fast writers wrote. -/
theorem fastParse_exact {ext : Extern} (hext : ext.Documented) (hrej : ext.RejectsInvalid) :
    (∀ s : String, ∃ date ts,
        Checked.fastParseDate ext (Utf8.bytes s) = .ok date ∧
          Checked.fastParseTimestamp ext (Utf8.bytes s) = .ok ts ∧
          (∀ d, date = some d ↔ DateLayout (Utf8.bytes s) d) ∧
          ∀ t, ts = some t ↔ TimestampLayout (Utf8.bytes s) t) ∧
      (∀ d : NaiveDate, d.InCommonRange → ∃ s, writeFastDate [] d = some (Utf8.bytes s) ∧
        Checked.fastParseDate ext (Utf8.bytes s) = .ok (some d)) ∧
      ∀ t : NaiveDateTime, t.InCommonRange → ∃ s, writeFastTimestamp [] t = some (Utf8.bytes s) ∧
        Checked.fastParseTimestamp ext (Utf8.bytes s) = .ok (some t) := by
  refine ⟨fun s => ?_, fun d hd => ?_, fun t ht => ?_⟩
  · exact ⟨_, _, Checked.fastParseDate_eq ext _, Checked.fastParseTimestamp_eq ext _,
      fastParseDate_iff hext hrej _, fastParseTimestamp_iff hext hrej _⟩
  · obtain ⟨s, -, hs⟩ := exists_text_of_ascii (ascii_dateText d.year.toNat d.month d.day)
    refine ⟨s, ?_, ?_⟩
    · rw [writeFastDate_common hd, hs]
    · rw [hs, Checked.fastParseDate_eq, fastParseDate_text hext hd]
  · obtain ⟨s, -, hs⟩ := exists_text_of_ascii (ascii_append (ascii_append
      (ascii_dateText t.date.year.toNat t.date.month t.date.day)
      (ascii_singleton (c := 32) (by decide)))
      (ascii_timeText t.hour t.minute t.second t.nanosecond))
    refine ⟨s, ?_, ?_⟩
    · rw [writeFastTimestamp_common ht, hs]
    · rw [hs, Checked.fastParseTimestamp_eq, fastParseTimestamp_text hext ht]

/-- A leap day. -/
theorem fastParse_exact_sample :
    ∃ date ts,
      Checked.fastParseDate .chrono (Utf8.bytes "2024-02-29") = .ok date ∧
        Checked.fastParseTimestamp .chrono (Utf8.bytes "2024-02-29") = .ok ts ∧
        (∀ d, date = some d ↔ DateLayout (Utf8.bytes "2024-02-29") d) ∧
        ∀ t, ts = some t ↔ TimestampLayout (Utf8.bytes "2024-02-29") t :=
  (fastParse_exact Extern.chrono_ranged.toDocumented Extern.chrono_rejectsInvalid).1 "2024-02-29"

end ExaUdf
