import ExaUdf.CheckedCells
import ExaUdf.Equiv.EmitPack
import ExaUdf.Equiv.Writers

/-!
# The packer's dates, with the checks of the language

On the day numbers that reach the packer no step of the conversion overflows, no index leaves its
table, and no cast loses a bit.  `civilFromDays_inverse`: the conversion and the Gregorian day count
are inverse to each other.  `civils_eq`: the year cache changes no result.  `convert_timestamp`: a
timestamp is written as its instant, or not at all.
-/

namespace ExaUdf

open Gregorian (ValidDate dayNumber)

/-! ### The conversion -/

namespace Checked

theorem i64_bind {α : Type} {n : Int} (h : -2 ^ 63 ≤ n ∧ n < 2 ^ 63) (f : Int → Except Panic α) :
    (i64 n >>= f) = f n := by
  rw [i64, if_pos h]
  rfl

/-- A day number far within the `i64`s. -/
def DayFits (days : Int) : Prop :=
  -2 ^ 58 ≤ days ∧ days ≤ 2 ^ 58

/-- No step of the conversion leaves the `i64`s. -/
theorem civilSteps_fit {days era doe yoe doy mp : Int} (hdays : DayFits days)
    (hera : -2 ^ 48 ≤ era ∧ era ≤ 2 ^ 48) (hdoe : 0 ≤ doe ∧ doe < 146097)
    (hyoe : 0 ≤ yoe ∧ yoe ≤ 399) (hdoy : 0 ≤ doy ∧ doy ≤ 365) (hmp : 0 ≤ mp ∧ mp ≤ 11) :
    ∀ n ∈ [days + 719468, doe - doe / 1460, doe - doe / 1460 + doe / 36524,
        doe - doe / 1460 + doe / 36524 - doe / 146096, 365 * yoe, 365 * yoe + yoe / 4,
        365 * yoe + yoe / 4 - yoe / 100, doy, 5 * doy, 5 * doy + 2, 153 * mp, 153 * mp + 2,
        doy - (153 * mp + 2) / 5, doy - (153 * mp + 2) / 5 + 1,
        if mp < 10 then mp + 3 else mp - 9, era * 400, yoe + era * 400,
        yoe + era * 400 + if (if mp < 10 then mp + 3 else mp - 9) ≤ 2 then 1 else 0],
      -2 ^ 63 ≤ n ∧ n < 2 ^ 63 := by
  obtain ⟨hlo, hhi⟩ := hdays
  simp only [List.forall_mem_cons]
  refine ⟨?_, ?_, ?_, ?_, ?_, ?_, ?_, ?_, ?_, ?_, ?_, ?_, ?_, ?_, ?_, ?_, ?_, ?_, by simp⟩ <;>
    (try split_ifs) <;> omega

/-- Before the casts the fields are those of the date, and they fit. -/
theorem civilFields_eq {days : Int} (h : DayFits days) :
    ∃ year month day : Int, civilFields days = .ok (year, month, day) ∧
      ExaUdf.civilFromDays days = (year, month.toNat, day.toNat) ∧
      (0 ≤ month ∧ month < 2 ^ 32) ∧ 0 ≤ day ∧ day < 2 ^ 32 := by
  have hdays := h
  obtain ⟨hlo, hhi⟩ := h
  generalize hz : days + 719468 = z
  generalize hera : z / 146097 = era
  generalize hdoe : z % 146097 = doe
  generalize hyoe : (doe - doe / 1460 + doe / 36524 - doe / 146096) / 365 = yoe
  generalize hdoy : doe - (365 * yoe + yoe / 4 - yoe / 100) = doy
  generalize hmp : (5 * doy + 2) / 153 = mp
  obtain ⟨hyoe0, hyoe399, hbefore, hafter⟩ :=
    yearOfEra_bounds doe (by omega) (by omega) hyoe.symm
  have hdoe0 : 0 ≤ doe ∧ doe < 146097 := by omega
  have hdoy0 : 0 ≤ doy ∧ doy ≤ 365 := by omega
  have hmp0 : 0 ≤ mp ∧ mp ≤ 11 := by omega
  have hera0 : -2 ^ 48 ≤ era ∧ era ≤ 2 ^ 48 := by omega
  -- No dividend is negative, so both ways of rounding agree.
  have hcorrected : 0 ≤ doe - doe / 1460 + doe / 36524 - doe / 146096 := by omega
  have hday : 0 ≤ doy - (153 * mp + 2) / 5 + 1 ∧ doy - (153 * mp + 2) / 5 + 1 < 2 ^ 32 := by
    omega
  have hfit := civilSteps_fit hdays hera0 hdoe0 ⟨hyoe0, hyoe399⟩ hdoy0 hmp0
  clear hlo hhi hbefore hafter
  have hshifted : 0 ≤ 5 * doy + 2 := by clear hz hera hdoe hyoe hdoy hmp; omega
  have hrounded : 0 ≤ 153 * mp + 2 := by clear hz hera hdoe hyoe hdoy hmp; omega
  simp only [List.forall_mem_cons] at hfit
  obtain ⟨f1, f2, f3, f4, f5, f6, f7, f8, f9, f10, f11, f12, f13, f14, f15, f16, f17, f18, -⟩ :=
    hfit
  refine ⟨yoe + era * 400 + (if (if mp < 10 then mp + 3 else mp - 9) ≤ 2 then 1 else 0),
    if mp < 10 then mp + 3 else mp - 9, doy - (153 * mp + 2) / 5 + 1, ?_, ?_, ?_, hday⟩
  · rw [civilFields, i64_bind f1]
    simp only [hz, hera, hdoe, Int.tdiv_eq_ediv_of_nonneg hdoe0.1]
    rw [i64_bind f2, i64_bind f3, i64_bind f4]
    simp only [Int.tdiv_eq_ediv_of_nonneg hcorrected, hyoe, Int.tdiv_eq_ediv_of_nonneg hyoe0]
    rw [i64_bind f5, i64_bind f6, i64_bind f7, i64_bind (hdoy ▸ f8)]
    simp only [hdoy]
    rw [i64_bind f9, i64_bind f10]
    simp only [Int.tdiv_eq_ediv_of_nonneg hshifted, hmp]
    rw [i64_bind f11, i64_bind f12]
    simp only [Int.tdiv_eq_ediv_of_nonneg hrounded]
    rw [i64_bind f13, i64_bind f14, i64_bind f15, i64_bind f16, i64_bind f17, i64_bind f18]
    rfl
  · simp only [ExaUdf.civilFromDays, hz, hera, hdoe, hyoe, hdoy, hmp]
  · clear hz hera hdoe hyoe hdoy hmp
    split_ifs <;> omega

theorem civilFromDays_eq {days : Int} (h : DayFits days) :
    Checked.civilFromDays days = .ok (ExaUdf.civilFromDays days) := by
  obtain ⟨year, month, day, hfields, hcivil, hmonth, hday⟩ := civilFields_eq h
  rw [Checked.civilFromDays, hfields, ok_bind, hcivil]
  dsimp only
  rw [asU32_eq hmonth, asU32_eq hday]
  rfl

/-! ### The cache -/

/-- The year of a cache is within reach of the day numbers. -/
def CacheFits (cache : YearCache) : Prop :=
  -2 ^ 59 ≤ cache.start ∧ cache.start ≤ 2 ^ 59

theorem load_eq {days : Int} (h : DayFits days) :
    Checked.load days = .ok (YearCache.load days) ∧ CacheFits (YearCache.load days).1 := by
  obtain ⟨hvalid, -⟩ := civilFromDays_spec days
  obtain ⟨-, hlen, -, hdoy, h0, hlt⟩ := YearCache.load_spec days
  have hleap := Bool.toNat_le (YearCache.load days).1.leap
  have hcivil := civilFromDays_eq h
  obtain ⟨hlo, hhi⟩ := h
  refine ⟨?_, by constructor <;> omega⟩
  rw [Checked.load, hcivil]
  simp only [YearCache.load] at h0 hlt hlen hdoy hleap ⊢
  generalize ExaUdf.civilFromDays days = ymd at *
  obtain ⟨year, month, day⟩ := ymd
  have hmonth1 := hvalid.1
  have hmonth := hvalid.2.1
  dsimp only at *
  rw [ok_bind]
  dsimp only
  rw [sub, if_pos hmonth1, ok_bind, daysBefore, if_pos (by omega), ok_bind,
    i64_bind (by omega), i64_bind (by omega), i64_bind (by omega),
    i64_bind (by split_ifs <;> omega)]
  rfl

/-- **The cached conversion** stays within its types. -/
theorem civil_eq {cache : YearCache} (hwf : cache.WF) (hcache : CacheFits cache) {days : Int}
    (h : DayFits days) :
    Checked.civil cache days = .ok (cache.civil days) ∧ CacheFits (cache.civil days).2 := by
  have hfits := h
  obtain ⟨hlo, hhi⟩ := h
  obtain ⟨hclo, hchi⟩ := hcache
  -- Hit or miss, the day is found in a cache that holds its year.
  have key : ∀ (c : YearCache) (doy : Int),
      Checked.lookup cache days = .ok (c, doy) →
      (if days - cache.start < 0 ∨ cache.len ≤ days - cache.start then YearCache.load days
        else (cache, days - cache.start)) = (c, doy) →
      c.len = 365 + (c.leap.toNat : Int) → 0 ≤ doy → doy < c.len → CacheFits c →
      Checked.civil cache days = .ok (cache.civil days) ∧ CacheFits (cache.civil days).2 := by
    intro c doy hlookup hcivil hlen h0 hlt hc
    have hleap := Bool.toNat_le c.leap
    obtain ⟨hmonth, hbefore, hafter⟩ := monthOfDoy_spec c.leap doy.toNat (by omega)
    have htable := daysBeforeMonth_eq c.leap hmonth
    have hdays := htable
    rw [← hdays] at hbefore
    refine ⟨?_, ?_⟩
    · rw [Checked.civil, hlookup]
      dsimp only [bind, Except.bind]
      rw [asUsize_eq (by omega), asU32_eq (by omega), monthOf, if_pos (by omega)]
      dsimp only
      rw [sub, if_pos hmonth.1]
      dsimp only
      rw [daysBefore, if_pos (by omega)]
      dsimp only
      rw [sub, if_pos hbefore]
      dsimp only
      rw [u32, if_pos (by omega)]
      simp only [YearCache.civil, hcivil]
      rfl
    · simp only [YearCache.civil, hcivil]
      exact hc
  by_cases hmiss : days - cache.start < 0 ∨ cache.len ≤ days - cache.start
  · obtain ⟨-, hlen, -, -, h0, hlt⟩ := YearCache.load_spec days
    obtain ⟨hload, hloaded⟩ := load_eq hfits
    refine key _ _ ?_ (if_pos hmiss) hlen h0 hlt hloaded
    rw [lookup, i64_bind (by omega), if_pos hmiss]
    exact hload
  · obtain hempty | ⟨-, hlen, -⟩ := hwf
    · omega
    · refine key _ _ ?_ (if_neg hmiss) hlen (by omega) (by omega) ⟨hclo, hchi⟩
      rw [lookup, i64_bind (by omega), if_neg hmiss]
      rfl

/-- A cache that holds a whole year or nothing, within reach of the day numbers. -/
def Sound (cache : YearCache) : Prop :=
  cache.WF ∧ CacheFits cache

theorem sound_default : Sound .default :=
  ⟨.inl rfl, by constructor <;> decide⟩

/-- The conversion gives a date with the right number. -/
theorem civil_sound {cache : YearCache} (h : Sound cache) {days : Int} (hdays : DayFits days) :
    ∃ (d : NaiveDate) (cache' : YearCache),
      Checked.civil cache days = .ok ((d.year, d.month, d.day), cache') ∧
        d.numDaysFromCe = days + 719163 ∧ Sound cache' := by
  obtain ⟨hwf, hfits⟩ := h
  obtain ⟨hvalid, hnumber, hwf'⟩ := YearCache.civil_spec hwf days
  obtain ⟨hcivil, hfits'⟩ := civil_eq hwf hfits hdays
  exact ⟨⟨_, _, _, hvalid⟩, _, hcivil, hnumber, hwf', hfits'⟩

end Checked

/-! ### The conversion is the inverse of the day count -/

/-- A date, as year, month and day. -/
def IsDate (ymd : Int × Nat × Nat) : Prop :=
  ValidDate ymd.1 ymd.2.1 ymd.2.2

/-- Days from 1970-01-01 to a date. -/
def daysSinceEpoch (ymd : Int × Nat × Nat) : Int :=
  dayNumber ymd.1 ymd.2.1 ymd.2.2 - dayNumber 1970 1 1

theorem civilFromDays_date (n : Int) :
    IsDate (civilFromDays n) ∧ daysSinceEpoch (civilFromDays n) = n := by
  obtain ⟨hvalid, hnumber⟩ := civilFromDays_spec n
  have hepoch : dayNumber 1970 1 1 = 719163 := by decide
  refine ⟨hvalid, ?_⟩
  rw [daysSinceEpoch, hnumber, hepoch]
  omega

theorem daysSinceEpoch_injective {a b : Int × Nat × Nat} (ha : IsDate a) (hb : IsDate b)
    (h : daysSinceEpoch a = daysSinceEpoch b) : a = b := by
  have hnumber : dayNumber a.1 a.2.1 a.2.2 = dayNumber b.1 b.2.1 b.2.2 := by
    simp only [daysSinceEpoch] at h
    omega
  obtain ⟨hyear, hmonth, hday⟩ := Gregorian.eq_of_dayNumber_eq ha hb hnumber
  exact Prod.ext hyear (Prod.ext hmonth hday)

theorem civilFromDays_daysSinceEpoch {ymd : Int × Nat × Nat} (h : IsDate ymd) :
    civilFromDays (daysSinceEpoch ymd) = ymd := by
  obtain ⟨hdate, hdays⟩ := civilFromDays_date (daysSinceEpoch ymd)
  exact daysSinceEpoch_injective hdate h hdays

theorem daysSinceEpoch_lt {a b : Int × Nat × Nat} (ha : IsDate a) (hb : IsDate b)
    (h : Gregorian.Before a b) : daysSinceEpoch a < daysSinceEpoch b := by
  have hlt := Gregorian.dayNumber_lt ha hb h
  simp only [daysSinceEpoch]
  omega

theorem before_civilFromDays (m n : Int) :
    Gregorian.Before (civilFromDays m) (civilFromDays n) ↔ m < n := by
  obtain ⟨hm, hdaysm⟩ := civilFromDays_date m
  obtain ⟨hn, hdaysn⟩ := civilFromDays_date n
  constructor
  · intro h
    have hlt := daysSinceEpoch_lt hm hn h
    rwa [hdaysm, hdaysn] at hlt
  · intro h
    obtain hbefore | heq | hafter :=
      Gregorian.before_trichotomy (civilFromDays m) (civilFromDays n)
    · exact hbefore
    · rw [heq, hdaysn] at hdaysm
      omega
    · have hlt := daysSinceEpoch_lt hn hm hafter
      rw [hdaysm, hdaysn] at hlt
      omega

namespace Checked

/-- A day number that the packer converts: a cell of a date column, or the day of a second. -/
inductive PackerDay where
  | date (days : Int32)
  | second (secs : Int64)

def PackerDay.number : PackerDay → Int
  | date days => days.toInt
  | second secs => secs.toInt / 86400

theorem PackerDay.fits (day : PackerDay) : DayFits day.number := by
  cases day with
  | date days =>
    have hlo := Int32.le_toInt days
    have hhi := Int32.toInt_lt days
    constructor <;> simp only [number] <;> omega
  | second secs =>
    have hlo := Int64.le_toInt secs
    have hhi := Int64.toInt_lt secs
    constructor <;> simp only [number] <;> omega

/-- **The conversion is the inverse of the Gregorian day count.**  On every day number that the
packer can pass no step overflows and no cast loses a bit; the date is the one with that count, so
days and dates correspond one to one, and later days have later dates. -/
theorem civilFromDays_inverse :
    (∀ day : PackerDay, ∃ year month dayOfMonth : Int,
      civilFields day.number = .ok (year, month, dayOfMonth) ∧
      (0 ≤ month ∧ month < 2 ^ 32) ∧ (0 ≤ dayOfMonth ∧ dayOfMonth < 2 ^ 32) ∧
      Checked.civilFromDays day.number = .ok (year, month.toNat, dayOfMonth.toNat) ∧
      ExaUdf.civilFromDays day.number = (year, month.toNat, dayOfMonth.toNat)) ∧
    (∀ n : Int, IsDate (ExaUdf.civilFromDays n) ∧
      daysSinceEpoch (ExaUdf.civilFromDays n) = n) ∧
    (∀ days : Set Int, Set.BijOn ExaUdf.civilFromDays days
      {ymd | IsDate ymd ∧ daysSinceEpoch ymd ∈ days}) ∧
    ∀ m n : Int, m < n →
      Gregorian.Before (ExaUdf.civilFromDays m) (ExaUdf.civilFromDays n) := by
  refine ⟨fun day => ?_, civilFromDays_date, fun days => ⟨?_, ?_, ?_⟩,
    fun m n => (before_civilFromDays m n).mpr⟩
  · obtain ⟨year, month, dayOfMonth, hfields, hcivil, hmonth, hday⟩ := civilFields_eq day.fits
    have hchecked := civilFromDays_eq day.fits
    rw [hcivil] at hchecked
    exact ⟨year, month, dayOfMonth, hfields, hmonth, hday, hchecked, hcivil⟩
  · intro n hn
    obtain ⟨hdate, hdays⟩ := civilFromDays_date n
    exact ⟨hdate, by rwa [hdays]⟩
  · intro m _ n _ heq
    have hdays := congrArg daysSinceEpoch heq
    rwa [(civilFromDays_date m).2, (civilFromDays_date n).2] at hdays
  · rintro ymd ⟨hdate, hdays⟩
    exact ⟨daysSinceEpoch ymd, hdays, civilFromDays_daysSinceEpoch hdate⟩

end Checked

/-! ### Runs of queries -/

/-- The answer of a cache that holds a whole year or nothing is the conversion's. -/
theorem YearCache.civil_eq_civilFromDays {cache : YearCache} (h : cache.WF) (days : Int) :
    (cache.civil days).1 = civilFromDays days := by
  obtain ⟨hvalid, hnumber, -⟩ := YearCache.civil_spec h days
  obtain ⟨hdate, hspec⟩ := civilFromDays_spec days
  obtain ⟨hyear, hmonth, hday⟩ :=
    Gregorian.eq_of_dayNumber_eq hvalid hdate (hnumber.trans hspec.symm)
  exact Prod.ext hyear (Prod.ext hmonth hday)

/-- Ask one cache for days in turn. -/
def YearCache.civils (cache : YearCache) : List Int → List (Int × Nat × Nat)
  | [] => []
  | days :: rest => (cache.civil days).1 :: (cache.civil days).2.civils rest

theorem YearCache.civils_eq_map {cache : YearCache} (h : cache.WF) (queries : List Int) :
    cache.civils queries = queries.map civilFromDays := by
  induction queries generalizing cache with
  | nil => rfl
  | cons days rest ih =>
    rw [civils, civil_eq_civilFromDays h, ih (YearCache.civil_spec h days).2.2, List.map_cons]

namespace Checked

/-- Ask one cache for days in turn. -/
def civils (cache : YearCache) : List Int → Except Panic (List (Int × Nat × Nat))
  | [] => .ok []
  | days :: rest => do
    let (ymd, cache) ← civil cache days
    let ymds ← civils cache rest
    return ymd :: ymds

/-- No query of a run leaves its types. -/
theorem civils_ok {cache : YearCache} (hwf : cache.WF) (hcache : CacheFits cache)
    {queries : List Int} (hqueries : ∀ days ∈ queries, DayFits days) :
    civils cache queries = .ok (cache.civils queries) := by
  induction queries generalizing cache with
  | nil => rfl
  | cons days rest ih =>
    obtain ⟨hcivil, hcache'⟩ := civil_eq hwf hcache (hqueries days List.mem_cons_self)
    have hrest := ih (YearCache.civil_spec hwf days).2.2 hcache' fun d hd =>
      hqueries d (List.mem_cons_of_mem days hd)
    rw [civils, hcivil, ok_bind]
    dsimp only
    rw [hrest]
    rfl

theorem civilsFromDays_ok {queries : List Int} (hqueries : ∀ days ∈ queries, DayFits days) :
    queries.mapM Checked.civilFromDays = .ok (queries.map ExaUdf.civilFromDays) := by
  induction queries with
  | nil => rfl
  | cons days rest ih =>
    rw [List.mapM_cons, civilFromDays_eq (hqueries days List.mem_cons_self), ok_bind,
      ih fun d hd => hqueries d (List.mem_cons_of_mem days hd)]
    rfl

/-- **The year cache never changes a result.**  Whatever days are asked for, in whatever order, a
fresh cache answers each as the conversion does; on the days that the packer can pass there is no
overflow on the way, and no index outside its table. -/
theorem civils_eq :
    (∀ days : List Int, YearCache.default.civils days = days.map ExaUdf.civilFromDays) ∧
    ∀ days : List PackerDay, ∃ dates,
      civils .default (days.map PackerDay.number) = .ok dates ∧
      (days.map PackerDay.number).mapM Checked.civilFromDays = .ok dates := by
  refine ⟨YearCache.civils_eq_map sound_default.1, fun days => ?_⟩
  have hfits : ∀ n ∈ days.map PackerDay.number, DayFits n := by
    intro n hn
    obtain ⟨day, -, rfl⟩ := List.mem_map.mp hn
    exact day.fits
  refine ⟨_, civils_ok sound_default.1 sound_default.2 hfits, ?_⟩
  rw [YearCache.civils_eq_map sound_default.1, civilsFromDays_ok hfits]

/-! ### Times of day -/

theorem timestampParts_eq (unit : TimeUnit) (v : Int64) :
    Checked.timestampParts unit v = .ok (ExaUdf.timestampParts unit v) := by
  cases unit with
  | second => rfl
  | nanosecond =>
    rw [Checked.timestampParts, asU32_eq (by omega)]
    rfl
  | millisecond =>
    rw [Checked.timestampParts, i64_bind (by omega), asU32_eq (by omega)]
    rfl
  | microsecond =>
    rw [Checked.timestampParts, i64_bind (by omega), asU32_eq (by omega)]
    rfl

end Checked

/-! ### Dates and times -/

theorem exists_date (n : Int) : ∃ d : NaiveDate, d.numDaysFromCe = n := by
  refine ⟨Extern.referenceDate n, ?_⟩
  have h := (civilFromDays_spec (n - 719163)).2
  rw [Int.sub_add_cancel] at h
  exact h

theorem exists_dateTime (secs : Int) {nanos : Nat} (h : nanos < 1000000000) :
    ∃ t : NaiveDateTime, t.timestamp = secs ∧ t.nanosecond = nanos := by
  obtain ⟨d, hd⟩ := exists_date (secs / 86400 + 719163)
  generalize hsod : (secs % 86400).toNat = sod
  have hlt : sod < 86400 := by omega
  refine ⟨⟨d, sod / 3600, sod / 60 % 60, sod % 60, nanos, by omega, by omega, by omega, by omega⟩,
    ?_, rfl⟩
  rw [NaiveDateTime.timestamp, epoch_numDaysFromCe]
  dsimp only
  rw [hd]
  omega

theorem numDaysFromCe_injective {d e : NaiveDate} (h : d.numDaysFromCe = e.numDaysFromCe) :
    d = e := by
  obtain ⟨hy, hm, hd⟩ := Gregorian.eq_of_dayNumber_eq d.valid e.valid h
  exact NaiveDate.ext hy hm hd

/-- In the common years the packer writes the text itself. -/
theorem writeYmd_eq_text {d : NaiveDate} (h : d.InCommonRange) (out : List UInt8) :
    writeYmd out d.year.toNat d.month d.day = out ++ d.text := by
  rw [writeYmd_eq_dateText (month_lt d) (day_lt d), dateText_eq h]

theorem writeTime_eq_text {t : NaiveDateTime} (h : t.InCommonRange) (out : List UInt8) :
    writeHmsNanos (writeYmd out t.date.year.toNat t.date.month t.date.day ++ [32])
      t.hour t.minute t.second t.nanosecond = out ++ t.text := by
  have hhour := t.hour_lt
  have hminute := t.minute_lt
  have hsecond := t.second_lt
  rw [writeYmd_eq_text h.1, writeHmsNanos_eq_timeText (by omega) (by omega) (by omega),
    timeText_eq h.2, NaiveDateTime.text]
  simp only [List.append_assoc]

/-- Nanoseconds of a unit. -/
def TimeUnit.nanos : TimeUnit → Int
  | .second => 1000000000
  | .millisecond => 1000000
  | .microsecond => 1000
  | .nanosecond => 1

/-- The packer splits off whole seconds and loses nothing. -/
theorem timestampParts_value (unit : TimeUnit) (v : Int64) :
    (timestampParts unit v).1 * 1000000000 + ((timestampParts unit v).2 : Int)
      = v.toInt * unit.nanos := by
  cases unit <;> simp only [timestampParts, TimeUnit.nanos] <;> omega

/-- The day of an instant, counted from 1970-01-01. -/
def TimeUnit.day (unit : TimeUnit) (v : Int64) : Int :=
  v.toInt * unit.nanos / 86400000000000

theorem timestampParts_day (unit : TimeUnit) (v : Int64) :
    (timestampParts unit v).1 / 86400 = unit.day v := by
  have hvalue := timestampParts_value unit v
  have hnanos := BatchPacker.timestampParts_nanos_lt unit v
  rw [TimeUnit.day, ← hvalue]
  omega

/-! ### The writers -/

namespace Checked

theorem asU32_year {d : NaiveDate} (h : 0 ≤ d.year ∧ d.year ≤ 9999) :
    asU32 d.year = d.year.toNat :=
  asU32_eq ⟨h.1, lt_of_le_of_lt h.2 (by decide)⟩

/-- A date is written in the common years, and left alone elsewhere. -/
theorem writeDate32_ok {days : Int32} {d : NaiveDate} (hd : d.numDaysFromCe = days.toInt + 719163)
    {years : YearCache} (hyears : Sound years) (out : List UInt8) :
    ∃ years', Sound years' ∧ Checked.writeDate32 out days years
      = .ok (if d.InCommonRange then (true, out ++ d.text) else (false, out), years') := by
  have hlo := Int32.le_toInt days
  have hhi := Int32.toInt_lt days
  have hfits : DayFits days.toInt := by constructor <;> omega
  obtain ⟨d', years', hcivil, hd', hyears'⟩ := civil_sound hyears hfits
  obtain rfl := numDaysFromCe_injective (hd'.trans hd.symm)
  refine ⟨years', hyears', ?_⟩
  rw [Checked.writeDate32, hcivil, ok_bind]
  dsimp only
  by_cases hcommon : 0 ≤ d'.year ∧ d'.year ≤ 9999
  · rw [if_pos hcommon, if_pos (show d'.InCommonRange from hcommon), asU32_year hcommon,
      writeYmd_eq_text hcommon]
    rfl
  · rw [if_neg hcommon, if_neg (show ¬ d'.InCommonRange from hcommon)]
    rfl

/-- The seconds of an instant give its day and its time of day. -/
theorem timestamp_split (t : NaiveDateTime) :
    t.timestamp / 86400 + 719163 = t.date.numDaysFromCe ∧
      (t.timestamp % 86400).toNat = t.hour * 3600 + t.minute * 60 + t.second := by
  have hhour := t.hour_lt
  have hminute := t.minute_lt
  have hsecond := t.second_lt
  rw [NaiveDateTime.timestamp, epoch_numDaysFromCe]
  constructor <;> omega

/-- A timestamp is written in the common years, and left alone elsewhere. -/
theorem writeTimestamp_ok {t : NaiveDateTime} (ht : t.nanosecond < 1000000000)
    (hfits : DayFits (t.timestamp / 86400)) {years : YearCache} (hyears : Sound years)
    (out : List UInt8) :
    ∃ years', Sound years' ∧ Checked.writeTimestamp out t.timestamp t.nanosecond years
      = .ok (if t.date.InCommonRange then (true, out ++ t.text) else (false, out), years') := by
  obtain ⟨d, years', hcivil, hd, hyears'⟩ := civil_sound hyears hfits
  obtain ⟨hday, hsod⟩ := timestamp_split t
  obtain rfl := numDaysFromCe_injective (hd.trans hday)
  refine ⟨years', hyears', ?_⟩
  rw [Checked.writeTimestamp, hcivil, ok_bind]
  dsimp only
  by_cases hcommon : 0 ≤ t.date.year ∧ t.date.year ≤ 9999
  · have hhour := t.hour_lt
    have hminute := t.minute_lt
    have hsecond := t.second_lt
    have hfields : (t.hour * 3600 + t.minute * 60 + t.second) / 3600 = t.hour ∧
        (t.hour * 3600 + t.minute * 60 + t.second) / 60 % 60 = t.minute ∧
        (t.hour * 3600 + t.minute * 60 + t.second) % 60 = t.second := by omega
    rw [if_pos hcommon, if_pos (show t.date.InCommonRange from hcommon), asU32_year hcommon,
      asU32_eq (by omega), hsod, hfields.1, hfields.2.1, hfields.2.2,
      writeTime_eq_text ⟨hcommon, ht⟩]
    rfl
  · rw [if_neg hcommon, if_neg (show ¬ t.date.InCommonRange from hcommon)]
    rfl

/-- The parts of a cell are those of an instant, and its day fits. -/
theorem timestampParts_instant (unit : TimeUnit) (v : Int64) :
    ∃ t : NaiveDateTime, Checked.timestampParts unit v = .ok (t.timestamp, t.nanosecond) ∧
      t.nanosecond < 1000000000 ∧ DayFits (t.timestamp / 86400) := by
  have hlo := Int64.le_toInt v
  have hhi := Int64.toInt_lt v
  have hnanos := BatchPacker.timestampParts_nanos_lt unit v
  have hfits : DayFits ((ExaUdf.timestampParts unit v).1 / 86400) := by
    cases unit <;> simp only [ExaUdf.timestampParts] <;> constructor <;> omega
  obtain ⟨t, ht, htn⟩ := exists_dateTime (ExaUdf.timestampParts unit v).1 hnanos
  refine ⟨t, ?_, by rwa [htn], by rwa [ht]⟩
  rw [timestampParts_eq, ht, htn]

end Checked

/-! ### Runs of conversions -/

/-- `t` is the instant `v` units after 1970-01-01 00:00:00. -/
def TimeUnit.At (unit : TimeUnit) (v : Int64) (t : NaiveDateTime) : Prop :=
  t.nanosecond < 1000000000 ∧ t.timestamp * 1000000000 + t.nanosecond = v.toInt * unit.nanos

theorem TimeUnit.At.unique {unit : TimeUnit} {v : Int64} {t t' : NaiveDateTime}
    (h : unit.At v t) (h' : unit.At v t') : t = t' := by
  obtain ⟨hnanos, heq⟩ := h
  obtain ⟨hnanos', heq'⟩ := h'
  have hsecs : t.timestamp = t'.timestamp := by omega
  have hsame : t.nanosecond = t'.nanosecond := by omega
  have hread := Extern.referenceTimestamp_timestamp t
  rw [hsecs, hsame, Extern.referenceTimestamp_timestamp t'] at hread
  exact (Option.some.inj hread).symm

namespace Checked

/-- A date or a timestamp that is written into a buffer. -/
inductive Conversion where
  | date (out : List UInt8) (days : Int32)
  | timestamp (out : List UInt8) (unit : TimeUnit) (v : Int64)

/-- Convert a cell. -/
def Conversion.run (c : Conversion) (years : YearCache) :
    Except Panic ((Bool × List UInt8) × YearCache) :=
  match c with
  | date out days => Checked.writeDate32 out days years
  | timestamp out unit v => do
    let (secs, nanos) ← Checked.timestampParts unit v
    Checked.writeTimestamp out secs nanos years

/-- The cache after some conversions. -/
def cacheAfter (cs : List Conversion) : Except Panic YearCache :=
  cs.foldlM (fun years c => do return (← c.run years).2) .default

/-- One conversion succeeds on a sound cache and leaves one. -/
theorem Conversion.run_sound (c : Conversion) {years : YearCache} (h : Sound years) :
    ∃ r years', c.run years = .ok (r, years') ∧ Sound years' := by
  cases c with
  | date out days =>
    obtain ⟨d, hd⟩ := exists_date (days.toInt + 719163)
    obtain ⟨years', hyears', hwrite⟩ := writeDate32_ok hd h out
    exact ⟨_, years', hwrite, hyears'⟩
  | timestamp out unit v =>
    obtain ⟨t, hparts, hnanos, hfits⟩ := timestampParts_instant unit v
    obtain ⟨years', hyears', hwrite⟩ := writeTimestamp_ok hnanos hfits h out
    have hrun : (timestamp out unit v).run years
        = Checked.writeTimestamp out t.timestamp t.nanosecond years := by
      rw [Conversion.run, hparts, ok_bind]
    exact ⟨_, years', hrun.trans hwrite, hyears'⟩

theorem cacheAfter_sound (cs : List Conversion) :
    ∃ years, cacheAfter cs = .ok years ∧ Sound years := by
  have hfold : ∀ (cs : List Conversion) {years : YearCache}, Sound years →
      ∃ years', cs.foldlM (fun years c => do return (← c.run years).2) years
        = (.ok years' : Except Panic YearCache) ∧ Sound years' := by
    intro cs
    induction cs with
    | nil => exact fun h => ⟨_, rfl, h⟩
    | cons c cs ih =>
      intro years h
      obtain ⟨r, years', hrun, hyears'⟩ := c.run_sound h
      rw [List.foldlM_cons, hrun]
      exact ih hyears'
  exact hfold cs sound_default

/-- **Timestamps are written exactly.**  Whatever was converted before, a cell of any unit splits
without an overflow into the seconds and nanoseconds of its instant; the text of the instant is
appended where its year is in `0..=9999`, and nothing elsewhere. -/
theorem convert_timestamp (earlier : List Conversion) :
    ∃ years, cacheAfter earlier = .ok years ∧ ∀ (unit : TimeUnit) (v : Int64) (out : List UInt8),
      ∃ (t : NaiveDateTime) (years' : YearCache),
        unit.At v t ∧ (∀ t', unit.At v t' → t' = t) ∧
        Checked.timestampParts unit v = .ok (t.timestamp, t.nanosecond) ∧
        Checked.writeTimestamp out t.timestamp t.nanosecond years
          = .ok (if t.date.InCommonRange then (true, out ++ t.text) else (false, out), years') := by
  obtain ⟨years, hearlier, hyears⟩ := cacheAfter_sound earlier
  refine ⟨years, hearlier, fun unit v out => ?_⟩
  obtain ⟨t, hparts, hnanos, hfits⟩ := timestampParts_instant unit v
  obtain ⟨years', -, hwrite⟩ := writeTimestamp_ok hnanos hfits hyears out
  have hat : unit.At v t := by
    have hvalue := timestampParts_value unit v
    have heq := hparts
    rw [timestampParts_eq] at heq
    rw [Except.ok.inj heq] at hvalue
    exact ⟨hnanos, hvalue⟩
  exact ⟨t, years', hat, fun t' ht' => ht'.unique hat, hparts, hwrite⟩

end Checked

end ExaUdf
