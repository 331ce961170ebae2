import ExaUdf.EmitPack
import ExaUdf.Equiv.Text

/-!
# The packer's dates are calendar dates

`civilFromDays_spec`: the conversion gives the valid date with the right day number, for every day.
A `YearCache` holds a whole year or nothing (`YearCache.WF`), and then `civil` gives that date too
(`YearCache.civil_spec`).  `timestampParts_eq` and `dateTimeOf` do the same for times of day.

`Extern.reference` is a date library that keeps its documentation.
-/

namespace ExaUdf

open Gregorian (ValidDate dayNumber marchYear marchMonth marchMonthOf marchDaysBefore marchDay
  validDate_of_march dayNumber_of_march)

/-! ### Years of an era -/

section

variable (doe : Int) {yoe : Int} (h0 : 0 ≤ doe) (h1 : doe < 146097)
  (hy : yoe = (doe - doe / 1460 + doe / 36524 - doe / 146096) / 365)

include h0 h1 hy

/-- The year of an era that holds day `doe` of it. -/
theorem yearOfEra_bounds :
    0 ≤ yoe ∧ yoe ≤ 399 ∧ 365 * yoe + yoe / 4 - yoe / 100 ≤ doe ∧
      doe ≤ 365 * yoe + yoe / 4 - yoe / 100 + 365 := by
  have hcentury : doe / 36524 = 0 ∨ doe / 36524 = 1 ∨ doe / 36524 = 2 ∨ doe / 36524 = 3 ∨
      doe / 36524 = 4 := by omega
  -- The last day of the era is the only one in a fifth century.
  have hlast : doe / 146096 = doe / 36524 / 4 := by omega
  -- The year lies in the century of its day, or is the last one before it.
  have hhundred : yoe / 100 = doe / 36524 ∨ yoe / 100 + 1 = doe / 36524 := by
    rcases hcentury with h | h | h | h | h <;> rw [h] at hy hlast ⊢ <;> omega
  -- Within a century the corrections are constants, which leaves linear arithmetic.
  rcases hcentury with h | h | h | h | h <;> rw [h] at hy hlast hhundred <;>
    rcases hhundred with h' | h' <;> omega

/-- Only a year before a leap day has a day 365, counting from March 1. -/
theorem yearOfEra_lastDay (h365 : doe = 365 * yoe + yoe / 4 - yoe / 100 + 365) :
    (yoe + 1) % 4 = 0 ∧ ((yoe + 1) % 100 ≠ 0 ∨ yoe = 399) := by
  obtain ⟨hlo, hhi, -, -⟩ := yearOfEra_bounds doe h0 h1 hy
  have hlast : doe / 146096 = 0 ∨ doe = 146096 := by omega
  obtain hlast | hlast := hlast
  · have hcentury : yoe / 100 ≤ doe / 36524 := by omega
    -- The rounded-down year would be the next one if its four-year cycle had not begun.
    have hcycle : yoe / 4 + 1 + (doe / 36524 - yoe / 100) ≤ doe / 1460 := by omega
    have hdays : 1460 * (yoe / 4 + 1) ≤ doe := by omega
    have hfour : (yoe + 1) % 4 = 0 := by
      have hmod : yoe % 4 = 0 ∨ yoe % 4 = 1 ∨ yoe % 4 = 2 ∨ yoe % 4 = 3 := by omega
      clear hy hcycle hcentury hlast
      obtain hmod | hmod | hmod | hmod := hmod <;> omega
    refine ⟨hfour, .inl fun hhundred => ?_⟩
    have hnext : doe / 36524 = yoe / 100 + 1 := by omega
    omega
  · omega

end

/-- **The conversion is right**: it gives a valid date, with the number of the day asked for. -/
theorem civilFromDays_spec (days : Int) :
    ValidDate (civilFromDays days).1 (civilFromDays days).2.1 (civilFromDays days).2.2 ∧
      dayNumber (civilFromDays days).1 (civilFromDays days).2.1 (civilFromDays days).2.2
        = days + 719163 := by
  generalize hera : (days + 719468) / 146097 = era
  generalize hdoe : (days + 719468) % 146097 = doe
  generalize hyoe : (doe - doe / 1460 + doe / 36524 - doe / 146096) / 365 = yoe
  generalize hdoy : doe - (365 * yoe + yoe / 4 - yoe / 100) = doy
  obtain ⟨hyoe0, hyoe399, hlo, hhi⟩ :=
    yearOfEra_bounds doe (by omega) (by omega) hyoe.symm
  have hcivil : civilFromDays days = (marchYear (yoe + era * 400) doy,
      (marchMonth (marchMonthOf doy)).toNat,
      (doy - marchDaysBefore (marchMonthOf doy) + 1).toNat) := by
    simp only [civilFromDays, hera, hdoe, hyoe, hdoy]
    rfl
  have hleap : doy = 365 → Gregorian.isLeap (yoe + era * 400 + 1) = true := by
    intro h365
    have hlast := yearOfEra_lastDay doe (by omega) (by omega) hyoe.symm (by omega)
    rw [Gregorian.isLeap_iff]
    omega
  rw [hcivil]
  refine ⟨validDate_of_march (by omega) (by omega) hleap, ?_⟩
  have hfour : (yoe + era * 400) / 4 = yoe / 4 + era * 100 := by omega
  have hhundred : (yoe + era * 400) / 100 = yoe / 100 + era * 4 := by omega
  have hfourHundred : (yoe + era * 400) / 400 = era := by omega
  rw [dayNumber_of_march (by omega) (by omega), marchDay, hfour, hhundred, hfourHundred]
  omega

/-! ### The year cache -/

theorem daysBeforeMonth_eq (leap : Bool) {month : Nat} (h : 1 ≤ month ∧ month ≤ 12) :
    daysBeforeMonth leap (month - 1) = Gregorian.daysBeforeMonth leap month := by
  have hall : ∀ leap : Bool, ∀ month : Fin 13, 1 ≤ (month : Nat) →
      daysBeforeMonth leap (month - 1) = Gregorian.daysBeforeMonth leap month := by decide
  exact hall leap ⟨month, by omega⟩ h.1

/-- A month of the table ends where the next one starts. -/
theorem monthEnd_eq (leap : Bool) {month : Nat} (h : month < 12) :
    (if month < 11 then daysBeforeMonth leap (month + 1) else 365 + if leap then 1 else 0)
      = Gregorian.daysBeforeMonth leap (month + 2) := by
  have hall : ∀ leap : Bool, ∀ month : Fin 12,
      (if (month : Nat) < 11 then daysBeforeMonth leap (month + 1) else 365 + if leap then 1 else 0)
        = Gregorian.daysBeforeMonth leap (month + 2) := by decide
  exact hall leap ⟨month, h⟩

/-- The table names the month that holds the day. -/
theorem monthOfDoy_spec (leap : Bool) (doy : Nat) (h : doy < 365 + leap.toNat) :
    (1 ≤ monthOfDoy leap doy ∧ monthOfDoy leap doy ≤ 12) ∧
      Gregorian.daysBeforeMonth leap (monthOfDoy leap doy) ≤ doy ∧
      doy < Gregorian.daysBeforeMonth leap (monthOfDoy leap doy + 1) := by
  have hstart : ∀ month, month < 12 →
      daysBeforeMonth leap month = Gregorian.daysBeforeMonth leap (month + 1) :=
    fun month _ => @daysBeforeMonth_eq leap (month + 1) (by omega)
  rw [monthOfDoy]
  cases hfind : (List.range 12).find? fun month =>
    daysBeforeMonth leap month ≤ doy &&
      doy < if month < 11 then daysBeforeMonth leap (month + 1)
        else 365 + if leap then 1 else 0 with
  | none =>
    -- A day that no month holds lies after all of them.
    have hafter : ∀ month, month ≤ 12 → Gregorian.daysBeforeMonth leap (month + 1) ≤ doy := by
      intro month
      induction month with
      | zero => cases leap <;> simp [Gregorian.daysBeforeMonth]
      | succ month ih =>
        intro hmonth
        have hnot := List.find?_eq_none.mp hfind month (List.mem_range.mpr hmonth)
        rw [monthEnd_eq leap hmonth, hstart month hmonth, Bool.and_eq_true, decide_eq_true_eq,
          decide_eq_true_eq, not_and, not_lt] at hnot
        exact hnot (ih (by omega))
    have hend := hafter 12 (Nat.le_refl 12)
    cases leap <;> simp [Gregorian.daysBeforeMonth] at hend h <;> omega
  | some month =>
    have hmonth := List.mem_range.mp (List.mem_of_find?_eq_some hfind)
    have hheld := List.find?_some hfind
    rw [monthEnd_eq leap hmonth, hstart month hmonth, Bool.and_eq_true, decide_eq_true_eq,
      decide_eq_true_eq] at hheld
    exact ⟨⟨Nat.succ_le_succ (Nat.zero_le month), hmonth⟩, hheld⟩

namespace YearCache

/-- The cache holds nothing, or the first day, length and leap bit of its year. -/
def WF (cache : YearCache) : Prop :=
  cache.len = 0 ∨
    cache.leap = Gregorian.isLeap cache.year ∧
      cache.len = 365 + (cache.leap.toNat : Int) ∧
      cache.start = Gregorian.daysBeforeYear cache.year + 1 - 719163

theorem default_wf : default.WF :=
  .inl rfl

/-- Loading fills the cache with the year of the day, and finds the day in it. -/
theorem load_spec (days : Int) :
    (load days).1.leap = Gregorian.isLeap (load days).1.year ∧
      (load days).1.len = 365 + ((load days).1.leap.toNat : Int) ∧
      (load days).1.start = Gregorian.daysBeforeYear (load days).1.year + 1 - 719163 ∧
      (load days).2 = days - (load days).1.start ∧
      0 ≤ (load days).2 ∧ (load days).2 < (load days).1.len := by
  obtain ⟨hvalid, hnumber⟩ := civilFromDays_spec days
  have hmonth := daysBeforeMonth_eq (isLeap (civilFromDays days).1) ⟨hvalid.1, hvalid.2.1⟩
  have hdoy := Gregorian.dayOfYear_lt hvalid
  have hday := hvalid.2.2.1
  have hleap : isLeap (civilFromDays days).1 = Gregorian.isLeap (civilFromDays days).1 := rfl
  have hlen : (365 : Int) + (if Gregorian.isLeap (civilFromDays days).1 = true then 1 else 0)
      = 365 + ((Gregorian.isLeap (civilFromDays days).1).toNat : Int) := by
    cases Gregorian.isLeap (civilFromDays days).1 <;> rfl
  rw [dayNumber] at hnumber
  rw [hleap] at hmonth
  simp only [load, hleap, hlen, hmonth, true_and]
  refine ⟨?_, ?_, ?_, ?_⟩ <;> omega

/-- **The cached conversion** gives the valid date with the right number, and keeps the cache. -/
theorem civil_spec {cache : YearCache} (h : cache.WF) (days : Int) :
    ValidDate (cache.civil days).1.1 (cache.civil days).1.2.1 (cache.civil days).1.2.2 ∧
      dayNumber (cache.civil days).1.1 (cache.civil days).1.2.1 (cache.civil days).1.2.2
        = days + 719163 ∧
      (cache.civil days).2.WF := by
  -- Hit or miss, the day is found in a cache that holds its year.
  have key : ∀ (c : YearCache) (doy : Int),
      (c.leap = Gregorian.isLeap c.year ∧ c.len = 365 + (c.leap.toNat : Int) ∧
        c.start = Gregorian.daysBeforeYear c.year + 1 - 719163) →
      doy = days - c.start → 0 ≤ doy → doy < c.len →
      ValidDate c.year (monthOfDoy c.leap doy.toNat)
          (doy.toNat - daysBeforeMonth c.leap (monthOfDoy c.leap doy.toNat - 1) + 1) ∧
        dayNumber c.year (monthOfDoy c.leap doy.toNat)
          (doy.toNat - daysBeforeMonth c.leap (monthOfDoy c.leap doy.toNat - 1) + 1)
          = days + 719163 ∧ c.WF := by
    rintro c doy ⟨hleap, hlen, hstart⟩ hdoy h0 hlt
    obtain ⟨hmonth, hlo, hhi⟩ := monthOfDoy_spec c.leap doy.toNat (by omega)
    rw [daysBeforeMonth_eq c.leap hmonth]
    rw [hleap] at hlo hhi hmonth ⊢
    refine ⟨Gregorian.validDate_of_dayOfYear hmonth hlo hhi, ?_, .inr ⟨hleap, hlen, hstart⟩⟩
    rw [Gregorian.dayNumber_of_dayOfYear hlo]
    omega
  by_cases hmiss : days - cache.start < 0 ∨ cache.len ≤ days - cache.start
  · obtain ⟨hleap, hlen, hstart, hdoy, h0, hlt⟩ := load_spec days
    simp only [civil, if_pos hmiss]
    exact key _ _ ⟨hleap, hlen, hstart⟩ hdoy h0 hlt
  · obtain hempty | hfull := h
    · omega
    · simp only [civil, if_neg hmiss]
      exact key _ _ hfull rfl (by omega) (by omega)

end YearCache

/-! ### Dates and times in the packer's form -/

theorem numDaysFromCe_bounds {d : NaiveDate} (h : d.InCommonRange) :
    -366 ≤ d.numDaysFromCe ∧ d.numDaysFromCe ≤ 3652500 := by
  obtain ⟨hlo, hhi⟩ := h
  have hdays := Gregorian.dayOfYear_lt d.valid
  have hday := d.valid.2.2.1
  have hleap := Bool.toNat_le (Gregorian.isLeap d.year)
  rw [NaiveDate.numDaysFromCe, dayNumber, Gregorian.daysBeforeYear]
  omega

/-- Outside the common years nothing is written; inside, the date of the day. -/
theorem writeDate32_spec {years : YearCache} (h : years.WF) (buf : List UInt8) (days : Int32) :
    (writeDate32 buf days years).1 = none ∨
      ∃ d : NaiveDate, d.InCommonRange ∧ d.numDaysFromCe = days.toInt + 719163 ∧
        (writeDate32 buf days years).1
          = some (buf ++ dateText d.year.toNat d.month d.day) := by
  obtain ⟨hvalid, hnumber, -⟩ := YearCache.civil_spec h days.toInt
  by_cases hyear : 0 ≤ (years.civil days.toInt).1.1 ∧ (years.civil days.toInt).1.1 ≤ 9999
  · right
    let d : NaiveDate := ⟨_, _, _, hvalid⟩
    refine ⟨d, hyear, hnumber, ?_⟩
    rw [← writeYmd_eq_dateText (month_lt d) (day_lt d)]
    simp only [writeDate32, if_pos hyear]
    rfl
  · left
    simp only [writeDate32, if_neg hyear]

theorem writeDate32_wf {years : YearCache} (h : years.WF) (buf : List UInt8) (days : Int32) :
    (writeDate32 buf days years).2.WF :=
  (YearCache.civil_spec h days.toInt).2.2

theorem epoch_numDaysFromCe : NaiveDate.epoch.numDaysFromCe = 719163 := by decide

theorem writeTimestamp_spec {years : YearCache} (h : years.WF) (buf : List UInt8) (secs : Int)
    {nanos : Nat} (hnanos : nanos < 1000000000) :
    (writeTimestamp buf secs nanos years).1 = none ∨
      ∃ ts : NaiveDateTime, ts.InCommonRange ∧ ts.timestamp = secs ∧ ts.nanosecond = nanos ∧
        (writeTimestamp buf secs nanos years).1
          = some (buf ++ (dateText ts.date.year.toNat ts.date.month ts.date.day ++ [32]
            ++ timeText ts.hour ts.minute ts.second ts.nanosecond)) := by
  obtain ⟨hvalid, hnumber, -⟩ := YearCache.civil_spec h (secs / 86400)
  by_cases hyear : 0 ≤ (years.civil (secs / 86400)).1.1 ∧ (years.civil (secs / 86400)).1.1 ≤ 9999
  · right
    generalize hsod : (secs % 86400).toNat = sod
    have hsodlt : sod < 86400 := by omega
    -- The date and the time of day that are written make up the instant.
    let d : NaiveDate := ⟨_, _, _, hvalid⟩
    let ts : NaiveDateTime :=
      ⟨d, sod / 3600, sod / 60 % 60, sod % 60, nanos, by omega, by omega, by omega, by omega⟩
    have htimestamp : ts.timestamp = secs := by
      have hdate : ts.date.numDaysFromCe = secs / 86400 + 719163 := hnumber
      have hhour : ts.hour = sod / 3600 := rfl
      have hminute : ts.minute = sod / 60 % 60 := rfl
      have hsecond : ts.second = sod % 60 := rfl
      rw [NaiveDateTime.timestamp, hdate, epoch_numDaysFromCe, hhour, hminute, hsecond]
      omega
    refine ⟨ts, ⟨hyear, hnanos⟩, htimestamp, rfl, ?_⟩
    have hwrite : (writeTimestamp buf secs nanos years).1
        = some (writeHmsNanos (writeYmd buf d.year.toNat d.month d.day ++ [32])
          ts.hour ts.minute ts.second ts.nanosecond) := by
      simp only [writeTimestamp, if_pos hyear, hsod]
      rfl
    have hhour := ts.hour_lt
    have hminute := ts.minute_lt
    have hsecond := ts.second_lt
    rw [hwrite, writeHmsNanos_eq_timeText (by omega) (by omega) (by omega),
      writeYmd_eq_dateText (month_lt d) (day_lt d)]
    simp only [List.append_assoc]
    rfl
  · left
    simp only [writeTimestamp, if_neg hyear]

theorem writeTimestamp_wf {years : YearCache} (h : years.WF) (buf : List UInt8) (secs : Int)
    (nanos : Nat) : (writeTimestamp buf secs nanos years).2.WF :=
  (YearCache.civil_spec h (secs / 86400)).2.2

/-! ### A date library -/

namespace Extern

def referenceDate (n : Int) : NaiveDate :=
  ⟨_, _, _, (civilFromDays_spec (n - 719163)).1⟩

theorem referenceDate_numDaysFromCe (d : NaiveDate) : referenceDate d.numDaysFromCe = d := by
  have hspec := civilFromDays_spec (d.numDaysFromCe - 719163)
  obtain ⟨hy, hm, hd⟩ := Gregorian.eq_of_dayNumber_eq hspec.1 d.valid
    (by rw [hspec.2, NaiveDate.numDaysFromCe]; omega)
  exact NaiveDate.ext hy hm hd

def referenceTimestamp (secs : Int) (nanos : Nat) : Option NaiveDateTime :=
  if h : nanos < 2000000000 then
    some ⟨referenceDate (secs / 86400 + 719163), (secs % 86400).toNat / 3600,
      (secs % 86400).toNat / 60 % 60, (secs % 86400).toNat % 60, nanos, by omega, by omega,
      by omega, h⟩
  else none

theorem referenceTimestamp_timestamp (t : NaiveDateTime) :
    referenceTimestamp t.timestamp t.nanosecond = some t := by
  have hhour := t.hour_lt
  have hminute := t.minute_lt
  have hsecond := t.second_lt
  have hdays : t.timestamp / 86400 + 719163 = t.date.numDaysFromCe := by
    rw [NaiveDateTime.timestamp, epoch_numDaysFromCe]
    omega
  have hsod : (t.timestamp % 86400).toNat = t.hour * 3600 + t.minute * 60 + t.second := by
    rw [NaiveDateTime.timestamp]
    omega
  rw [referenceTimestamp, dif_pos t.nanosecond_lt]
  congr 1
  refine NaiveDateTime.ext ?_ ?_ ?_ ?_ rfl
  · simp only [hdays, referenceDate_numDaysFromCe]
  · simp only [hsod]
    omega
  · simp only [hsod]
    omega
  · simp only [hsod]
    omega

/-- A date library that keeps its documentation; what the documentation leaves open is not
reached from common dates. -/
def reference : Extern where
  fromYmdOpt y m d := if h : ValidDate y m d then some ⟨y, m, d, h⟩ else none
  andHmsNanoOpt date hour minute second nanos :=
    if h : hour < 24 ∧ minute < 60 ∧ second < 60 ∧ nanos < 2000000000 then
      some ⟨date, hour, minute, second, nanos, h.1, h.2.1, h.2.2.1, h.2.2.2⟩
    else none
  fromNumDaysFromCeOpt n := some (referenceDate n)
  fromTimestamp := referenceTimestamp
  fromTimestampMillis n := referenceTimestamp (n / 1000) (n % 1000 * 1000000).toNat
  fromTimestampMicros n := referenceTimestamp (n / 1000000) (n % 1000000 * 1000).toNat
  formatDate _ _ := ""
  formatTimestamp _ _ := ""
  parseDate _ _ := none
  parseTimestamp _ _ := none
  displayF64 _ := ""
  parseF64 _ := none
  numericToF64 _ := ⟨0⟩
  debugValue _ := ""
  debugDataType _ := ""

theorem reference_documented : reference.Documented where
  fromYmdOpt d _ := dif_pos d.valid
  andHmsNanoOpt t _ := dif_pos ⟨t.hour_lt, t.minute_lt, t.second_lt, t.nanosecond_lt⟩
  fromNumDaysFromCeOpt d _ := congrArg some (referenceDate_numDaysFromCe d)
  fromTimestamp t _ := referenceTimestamp_timestamp t
  fromTimestampMillis _ := rfl
  fromTimestampMicros _ := rfl

end Extern

end ExaUdf
