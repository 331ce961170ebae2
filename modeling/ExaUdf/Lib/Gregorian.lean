import Mathlib.Tactic.IntervalCases

/-!
# The proleptic Gregorian calendar

`dayNumber y m d` counts the days from 0001-01-01, which is day 1, in the proleptic Gregorian
calendar.  Two ways to name the same day are related here: by year and day of the year
(`dayNumber_of_dayOfYear`), and by a year that starts in March (`marchDay`), where the leap day
comes last and the lengths of the months follow one formula (`validDate_of_march`,
`dayNumber_of_march`).  A day has one date only (`eq_of_dayNumber_eq`), and a later date has a
larger number (`dayNumber_lt`).
-/

namespace Gregorian

def isLeap (y : Int) : Bool :=
  y % 4 == 0 && (y % 100 != 0 || y % 400 == 0)

/-- Days of the year before month `m`, for `m` from 1 to 12; the whole year for `m = 13`. -/
def daysBeforeMonth (leap : Bool) (m : Nat) : Nat :=
  (match m with
    | 1 => 0 | 2 => 31 | 3 => 59 | 4 => 90 | 5 => 120 | 6 => 151 | 7 => 181 | 8 => 212
    | 9 => 243 | 10 => 273 | 11 => 304 | 12 => 334 | _ => 365)
  + if leap && 2 < m then 1 else 0

def daysInMonth (leap : Bool) (m : Nat) : Nat :=
  daysBeforeMonth leap (m + 1) - daysBeforeMonth leap m

/-- `d` is a day of month `m` of year `y`. -/
def ValidDate (y : Int) (m d : Nat) : Prop :=
  1 ≤ m ∧ m ≤ 12 ∧ 1 ≤ d ∧ d ≤ daysInMonth (isLeap y) m

instance (y : Int) (m d : Nat) : Decidable (ValidDate y m d) :=
  inferInstanceAs (Decidable (_ ∧ _ ∧ _ ∧ _))

/-- Days before January 1 of year `y`, counted from 0001-01-01. -/
def daysBeforeYear (y : Int) : Int :=
  365 * (y - 1) + (y - 1) / 4 - (y - 1) / 100 + (y - 1) / 400

/-- The number of a day; 0001-01-01 has number 1. -/
def dayNumber (y : Int) (m d : Nat) : Int :=
  daysBeforeYear y + daysBeforeMonth (isLeap y) m + d

/-! ### Years -/

theorem isLeap_iff {y : Int} : isLeap y = true ↔ y % 4 = 0 ∧ (y % 100 ≠ 0 ∨ y % 400 = 0) := by
  simp [isLeap]

theorem isLeap_eq_false_iff {y : Int} :
    isLeap y = false ↔ y % 4 ≠ 0 ∨ (y % 100 = 0 ∧ y % 400 ≠ 0) := by
  rw [← Bool.not_eq_true, isLeap_iff]
  omega

theorem daysBeforeYear_succ (y : Int) :
    daysBeforeYear (y + 1) = daysBeforeYear y + 365 + (isLeap y).toNat := by
  simp only [daysBeforeYear]
  cases hy : isLeap y
  · rw [isLeap_eq_false_iff] at hy
    simp only [Bool.toNat_false]
    omega
  · rw [isLeap_iff] at hy
    simp only [Bool.toNat_true]
    omega

/-! ### Day of the year -/

/-- A day of the year within the bounds of month `m` is a day of that month. -/
theorem validDate_of_dayOfYear {y : Int} {m doy : Nat} (hm : 1 ≤ m ∧ m ≤ 12)
    (hlo : daysBeforeMonth (isLeap y) m ≤ doy) (hhi : doy < daysBeforeMonth (isLeap y) (m + 1)) :
    ValidDate y m (doy - daysBeforeMonth (isLeap y) m + 1) := by
  refine ⟨hm.1, hm.2, by omega, ?_⟩
  rw [daysInMonth]
  omega

theorem dayNumber_of_dayOfYear {y : Int} {m doy : Nat}
    (hlo : daysBeforeMonth (isLeap y) m ≤ doy) :
    dayNumber y m (doy - daysBeforeMonth (isLeap y) m + 1) = daysBeforeYear y + doy + 1 := by
  rw [dayNumber]
  omega

theorem dayOfYear_lt {y : Int} {m d : Nat} (h : ValidDate y m d) :
    daysBeforeMonth (isLeap y) m + d - 1 < 365 + (isLeap y).toNat := by
  obtain ⟨h1, h12, hd1, hd⟩ := h
  cases hleap : isLeap y <;> rw [hleap] at hd <;>
    simp only [daysInMonth, Bool.toNat_false, Bool.toNat_true] at * <;>
    interval_cases m <;> simp [daysBeforeMonth] at hd ⊢ <;> omega

/-! ### A day has one date -/

theorem daysBeforeYear_mono {y y' : Int} (h : y ≤ y') : daysBeforeYear y ≤ daysBeforeYear y' := by
  simp only [daysBeforeYear]
  omega

theorem daysBeforeMonth_mono {leap : Bool} {m m' : Nat} (h1 : 1 ≤ m) (h : m ≤ m') (h13 : m' ≤ 13) :
    daysBeforeMonth leap m ≤ daysBeforeMonth leap m' := by
  have hall : ∀ leap : Bool, ∀ m m' : Fin 14, 1 ≤ (m : Nat) → m ≤ m' →
      daysBeforeMonth leap m ≤ daysBeforeMonth leap m' := by decide
  exact hall leap ⟨m, by omega⟩ ⟨m', by omega⟩ h1 h

theorem dayNumber_bounds {y : Int} {m d : Nat} (h : ValidDate y m d) :
    daysBeforeYear y < dayNumber y m d ∧ dayNumber y m d ≤ daysBeforeYear (y + 1) := by
  have hdoy := dayOfYear_lt h
  have hd := h.2.2.1
  rw [daysBeforeYear_succ, dayNumber]
  omega

theorem year_le_of_dayNumber_eq {y y' : Int} {m m' d d' : Nat} (h : ValidDate y m d)
    (h' : ValidDate y' m' d') (heq : dayNumber y m d = dayNumber y' m' d') : y ≤ y' := by
  by_contra hlt
  have hmono : daysBeforeYear (y' + 1) ≤ daysBeforeYear y := daysBeforeYear_mono (by omega)
  have := dayNumber_bounds h
  have := dayNumber_bounds h'
  omega

theorem month_le_of_dayNumber_eq {y : Int} {m m' d d' : Nat} (h : ValidDate y m d)
    (h' : ValidDate y m' d') (heq : dayNumber y m d = dayNumber y m' d') : m ≤ m' := by
  by_contra hlt
  obtain ⟨-, h12, hd, -⟩ := h
  obtain ⟨h1', -, -, hd'⟩ := h'
  have hmono : daysBeforeMonth (isLeap y) (m' + 1) ≤ daysBeforeMonth (isLeap y) m :=
    daysBeforeMonth_mono (by omega) (by omega) (by omega)
  have hmono' : daysBeforeMonth (isLeap y) m' ≤ daysBeforeMonth (isLeap y) (m' + 1) :=
    daysBeforeMonth_mono h1' (by omega) (by omega)
  rw [daysInMonth] at hd'
  rw [dayNumber, dayNumber] at heq
  omega

/-- **Injectivity**: two valid dates with one number are the same date. -/
theorem eq_of_dayNumber_eq {y y' : Int} {m m' d d' : Nat} (h : ValidDate y m d)
    (h' : ValidDate y' m' d') (heq : dayNumber y m d = dayNumber y' m' d') :
    y = y' ∧ m = m' ∧ d = d' := by
  obtain rfl := Int.le_antisymm (year_le_of_dayNumber_eq h h' heq)
    (year_le_of_dayNumber_eq h' h heq.symm)
  obtain rfl := Nat.le_antisymm (month_le_of_dayNumber_eq h h' heq)
    (month_le_of_dayNumber_eq h' h heq.symm)
  rw [dayNumber, dayNumber] at heq
  exact ⟨rfl, rfl, by omega⟩

/-! ### Later dates have larger numbers -/

/-- The order of dates by year, month and day. -/
def Before (a b : Int × Nat × Nat) : Prop :=
  a.1 < b.1 ∨ a.1 = b.1 ∧ (a.2.1 < b.2.1 ∨ a.2.1 = b.2.1 ∧ a.2.2 < b.2.2)

theorem before_trichotomy (a b : Int × Nat × Nat) : Before a b ∨ a = b ∨ Before b a := by
  simp only [Before, Prod.ext_iff]
  omega

theorem dayNumber_lt {y y' : Int} {m m' d d' : Nat} (h : ValidDate y m d)
    (h' : ValidDate y' m' d') (hbefore : Before (y, m, d) (y', m', d')) :
    dayNumber y m d < dayNumber y' m' d' := by
  simp only [Before] at hbefore
  obtain hyear | ⟨rfl, hmonth | ⟨rfl, hday⟩⟩ := hbefore
  · have hmono : daysBeforeYear (y + 1) ≤ daysBeforeYear y' := daysBeforeYear_mono hyear
    have := dayNumber_bounds h
    have := dayNumber_bounds h'
    omega
  · obtain ⟨h1, -, -, hd⟩ := h
    obtain ⟨-, h12', hd', -⟩ := h'
    have hmono : daysBeforeMonth (isLeap y) (m + 1) ≤ daysBeforeMonth (isLeap y) m' :=
      daysBeforeMonth_mono (by omega) hmonth (by omega)
    have hmono' : daysBeforeMonth (isLeap y) m ≤ daysBeforeMonth (isLeap y) (m + 1) :=
      daysBeforeMonth_mono h1 (by omega) (by omega)
    rw [daysInMonth] at hd
    rw [dayNumber, dayNumber]
    omega
  · rw [dayNumber, dayNumber]
    omega

/-! ### Years that start in March -/

/-- The number, up to the constant 305, of day `doy` of the year that starts on March 1 of the
calendar year `y`. -/
def marchDay (y doy : Int) : Int :=
  365 * y + y / 4 - y / 100 + y / 400 + doy

/-- The calendar month of month `mp` of a March year: March is 0, February is 11. -/
def marchMonth (mp : Int) : Int :=
  if mp < 10 then mp + 3 else mp - 9

/-- Days of a March year before its month `mp`. -/
def marchDaysBefore (mp : Int) : Int :=
  (153 * mp + 2) / 5

/-- The month of a March year that holds its day `doy`. -/
def marchMonthOf (doy : Int) : Int :=
  (5 * doy + 2) / 153

theorem marchDay_eq (y doy : Int) : marchDay y doy = daysBeforeYear (y + 1) + doy := by
  simp only [marchDay, daysBeforeYear, Int.add_sub_cancel]

theorem marchMonthOf_bounds {doy : Int} (h0 : 0 ≤ doy) (h365 : doy ≤ 365) :
    0 ≤ marchMonthOf doy ∧ marchMonthOf doy ≤ 11 ∧
      marchDaysBefore (marchMonthOf doy) ≤ doy ∧
      doy < marchDaysBefore (marchMonthOf doy + 1) := by
  simp only [marchDaysBefore, marchMonthOf]
  omega

theorem daysBeforeMonth_marchMonth {mp : Int} (hmp : 0 ≤ mp ∧ mp ≤ 11) (leap : Bool) :
    (daysBeforeMonth leap (marchMonth mp).toNat : Int)
      = if mp < 10 then 59 + (leap.toNat : Int) + marchDaysBefore mp
        else marchDaysBefore mp - 306 := by
  obtain ⟨hlo, hhi⟩ := hmp
  cases leap <;> interval_cases mp <;> decide

/-- Every month of a March year but the last has the length the formula gives. -/
theorem daysInMonth_marchMonth {mp : Int} (hmp : 0 ≤ mp ∧ mp ≤ 10) (leap : Bool) :
    (daysInMonth leap (marchMonth mp).toNat : Int)
      = marchDaysBefore (mp + 1) - marchDaysBefore mp := by
  obtain ⟨hlo, hhi⟩ := hmp
  cases leap <;> interval_cases mp <;> decide

theorem daysInMonth_february (leap : Bool) :
    (daysInMonth leap (marchMonth 11).toNat : Int) = 28 + leap.toNat := by
  cases leap <;> decide

section

variable {y doy : Int} (h0 : 0 ≤ doy) (h365 : doy ≤ 365)

/-- The calendar year of a day of the March year `y`. -/
def marchYear (y doy : Int) : Int :=
  y + if marchMonth (marchMonthOf doy) ≤ 2 then 1 else 0

include h0 h365 in
theorem marchYear_eq :
    marchYear y doy = if marchMonthOf doy < 10 then y else y + 1 := by
  have hb := marchMonthOf_bounds h0 h365
  rw [marchYear, marchMonth]
  split_ifs <;> omega

include h0 h365 in
/-- A day of a March year is a day of the calendar; the last one only before a leap year. -/
theorem validDate_of_march (hleap : doy = 365 → isLeap (y + 1) = true) :
    ValidDate (marchYear y doy) (marchMonth (marchMonthOf doy)).toNat
      (doy - marchDaysBefore (marchMonthOf doy) + 1).toNat := by
  obtain ⟨hmp0, hmp11, hlo, hhi⟩ := marchMonthOf_bounds h0 h365
  refine ⟨?_, ?_, by omega, ?_⟩
  · rw [marchMonth]; split_ifs <;> omega
  · rw [marchMonth]; split_ifs <;> omega
  · by_cases hmp : marchMonthOf doy = 11
    · have hfeb := daysInMonth_february (isLeap (y + 1))
      have hyear : marchYear y doy = y + 1 := by
        rw [marchYear_eq h0 h365, if_neg (by omega)]
      have hdays : marchDaysBefore 11 = 337 := by decide
      rw [hyear, hmp, hdays]
      cases hl : isLeap (y + 1)
      · have hlast : doy ≠ 365 := fun h => by simp [hleap h] at hl
        rw [hl, Bool.toNat_false] at hfeb
        omega
      · rw [hl, Bool.toNat_true] at hfeb
        omega
    · have hlen := daysInMonth_marchMonth ⟨hmp0, by omega⟩ (isLeap (marchYear y doy))
      omega

include h0 h365 in
theorem dayNumber_of_march :
    dayNumber (marchYear y doy) (marchMonth (marchMonthOf doy)).toNat
      (doy - marchDaysBefore (marchMonthOf doy) + 1).toNat = marchDay y doy - 305 := by
  obtain ⟨hmp0, hmp11, hlo, hhi⟩ := marchMonthOf_bounds h0 h365
  rw [dayNumber, daysBeforeMonth_marchMonth ⟨hmp0, hmp11⟩, marchDay_eq, marchYear_eq h0 h365]
  split_ifs with hmp
  · rw [daysBeforeYear_succ]
    omega
  · omega

end

end Gregorian
