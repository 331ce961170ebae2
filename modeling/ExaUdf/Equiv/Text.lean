import ExaUdf.Text

/-!
# What is written into a string cell is read back

The writers only append (`writeBlockValue_eq`), and on the values a typed column accepts they are
undone by `decodeStringBlock`: `tryFrom_writeDecimal` and `tryFrom_intText` for numbers,
`fastParseDate_text` and `fastParseTimestamp_text` for dates and timestamps in the years
`0..=9999`.  Every such text is ASCII, so it is a text at all (`exists_text_of_ascii`).
-/

namespace ExaUdf

open Digits

/-! ### The writers append -/

/-- The two integer formatters write the same digits. -/
theorem wholeText_eq (u : I128) : wholeText u = intText u := by
  rw [wholeText]
  split_ifs with h
  · rw [Int64.toInt_ofInt_of_le (by omega) (by omega)]
  · rfl

theorem magnitudeText_eq (m : Nat) : magnitudeText m = render m := by
  rw [magnitudeText]
  split_ifs with h
  · rw [UInt64.toNat_ofNat_of_lt' h]
  · rfl

theorem writeDecimal_eq (out : List UInt8) (d : Decimal) :
    writeDecimal out d = out ++ writeDecimal [] d := by
  simp only [writeDecimal]
  split_ifs <;> simp

theorem writeYmd_eq (out : List UInt8) (year month day : Nat) :
    writeYmd out year month day = out ++ writeYmd [] year month day := by
  simp [writeYmd, push2Digit, pushNDigit]

theorem writeHmsNanos_eq (out : List UInt8) (hour minute second nanos : Nat) :
    writeHmsNanos out hour minute second nanos
      = out ++ writeHmsNanos [] hour minute second nanos := by
  simp [writeHmsNanos, push2Digit, pushNDigit]

theorem writeFastDate_eq (out : List UInt8) (d : NaiveDate) :
    writeFastDate out d = (writeFastDate [] d).map (out ++ ·) := by
  rw [writeFastDate, writeFastDate, writeYmd_eq]
  split_ifs <;> rfl

theorem writeFastTimestamp_eq (out : List UInt8) (ts : NaiveDateTime) :
    writeFastTimestamp out ts = (writeFastTimestamp [] ts).map (out ++ ·) := by
  rw [writeFastTimestamp, writeFastTimestamp, writeFastDate_eq]
  split_ifs
  · rfl
  · cases writeFastDate [] ts.date with
    | none => rfl
    | some bs =>
      simp only [Option.map_some]
      rw [writeHmsNanos_eq, writeHmsNanos_eq (bs ++ [32])]
      simp only [List.append_assoc]

/-- A value's text is appended to whatever stands before it. -/
theorem writeBlockValue_eq (ext : Extern) (out : List UInt8) (v : Value) :
    writeBlockValue ext out v = out ++ blockText ext v := by
  cases v with
  | numeric d => exact writeDecimal_eq out d
  | date d =>
    simp only [blockText, writeBlockValue]
    rw [writeFastDate_eq]
    cases writeFastDate [] d <;> rfl
  | timestamp ts =>
    simp only [blockText, writeBlockValue]
    rw [writeFastTimestamp_eq]
    cases writeFastTimestamp [] ts <;> rfl
  | null => exact (List.append_nil out).symm
  | _ => rfl

/-! ### Digit fields -/

theorem digitPair_eq {v : Nat} (h : v < 100) : digitPair v = padded 2 v := by
  have hall : ∀ v : Fin 100, digitPair v = padded 2 v := by decide
  exact hall ⟨v, h⟩

/-- The pair-wise buffer holds the padded digits. -/
theorem ndigitBuffer_eq (w v : Nat) : ndigitBuffer w v = padded w v := by
  induction w using Nat.twoStepInduction generalizing v with
  | zero => rfl
  | one => rfl
  | more w ih _ =>
    have hdiv : v % 100 / 10 % 10 = v / 10 % 10 := by omega
    have hmod : v % 100 % 10 = v % 10 := by omega
    rw [ndigitBuffer, ih, digitPair_eq (Nat.mod_lt v (by omega))]
    simp only [padded, List.nil_append, Nat.div_div_eq_div_mul, hdiv, hmod, List.append_assoc]

theorem parse2Digit_padded {v : Nat} (h : v < 100) : parse2Digit (padded 2 v) = some v := by
  have hall : (padded 2 v).all isDigit = true :=
    List.all_eq_true.mpr fun b hb => isDigit_of_mem_padded hb
  rw [parse2Digit, if_neg (by simp [hall]), value_padded_of_lt h]

theorem parse4Digit_padded {v : Nat} (h : v < 10000) : parse4Digit (padded 4 v) = some v := by
  have hall : (padded 4 v).all isDigit = true :=
    List.all_eq_true.mpr fun b hb => isDigit_of_mem_padded hb
  rw [parse4Digit, if_neg (by simp [hall]), value_padded_of_lt h]

/-! ### Dates and timestamps -/

/-- The ten bytes of a date in the fixed layout. -/
def dateText (year month day : Nat) : List UInt8 :=
  padded 4 year ++ [45] ++ padded 2 month ++ [45] ++ padded 2 day

/-- The eighteen bytes of a time of day in the fixed layout. -/
def timeText (hour minute second nanos : Nat) : List UInt8 :=
  padded 2 hour ++ [58] ++ padded 2 minute ++ [58] ++ padded 2 second ++ [46] ++ padded 9 nanos

theorem writeYmd_eq_dateText {year month day : Nat} (hm : month < 100) (hd : day < 100)
    (out : List UInt8) : writeYmd out year month day = out ++ dateText year month day := by
  rw [writeYmd_eq]
  simp only [writeYmd, pushNDigit, push2Digit, ndigitBuffer_eq, digitPair_eq hm, digitPair_eq hd,
    List.nil_append, dateText]

theorem writeHmsNanos_eq_timeText {hour minute second nanos : Nat} (hh : hour < 100)
    (hm : minute < 100) (hs : second < 100) (out : List UInt8) :
    writeHmsNanos out hour minute second nanos = out ++ timeText hour minute second nanos := by
  rw [writeHmsNanos_eq]
  simp only [writeHmsNanos, pushNDigit, push2Digit, ndigitBuffer_eq, digitPair_eq hh,
    digitPair_eq hm, digitPair_eq hs, List.nil_append, timeText]

theorem month_lt (d : NaiveDate) : d.month < 100 := by
  have := d.valid.2.1
  omega

theorem day_lt (d : NaiveDate) : d.day < 100 := by
  have hdays : ∀ leap : Bool, ∀ m : Fin 13, Gregorian.daysInMonth leap m ≤ 31 := by decide
  have hm := d.valid.2.1
  have hd := d.valid.2.2.2
  have := hdays (Gregorian.isLeap d.year) ⟨d.month, by omega⟩
  simp only at this
  omega

theorem writeFastDate_common {d : NaiveDate} (h : d.InCommonRange) :
    writeFastDate [] d = some (dateText d.year.toNat d.month d.day) := by
  obtain ⟨hlo, hhi⟩ := h
  rw [writeFastDate, if_pos ⟨hlo, hhi⟩, writeYmd_eq_dateText (month_lt d) (day_lt d),
    List.nil_append]

theorem writeFastTimestamp_common {ts : NaiveDateTime} (h : ts.InCommonRange) :
    writeFastTimestamp [] ts = some (dateText ts.date.year.toNat ts.date.month ts.date.day ++ [32]
      ++ timeText ts.hour ts.minute ts.second ts.nanosecond) := by
  have := ts.hour_lt
  have := ts.minute_lt
  have := ts.second_lt
  rw [writeFastTimestamp, if_neg (by have := h.2; omega), writeFastDate_common h.1,
    Option.map_some, writeHmsNanos_eq_timeText (by omega) (by omega) (by omega)]

theorem fastParseDate_text {ext : Extern} (hext : ext.Documented) {d : NaiveDate}
    (h : d.InCommonRange) :
    fastParseDate ext (dateText d.year.toNat d.month d.day) = some d := by
  obtain ⟨hlo, hhi⟩ := h
  have hyear : slice (dateText d.year.toNat d.month d.day) 0 4 = padded 4 d.year.toNat := rfl
  have hmonth : slice (dateText d.year.toNat d.month d.day) 5 7 = padded 2 d.month := rfl
  have hday : slice (dateText d.year.toNat d.month d.day) 8 10 = padded 2 d.day := rfl
  have hlayout : ¬((dateText d.year.toNat d.month d.day).length ≠ 10 ∨
      (dateText d.year.toNat d.month d.day)[4]? ≠ some 45 ∨
      (dateText d.year.toNat d.month d.day)[7]? ≠ some 45) := by
    simp only [not_or, not_not]
    exact ⟨rfl, rfl, rfl⟩
  rw [fastParseDate, if_neg hlayout, hyear, hmonth, hday, parse4Digit_padded (by omega),
    parse2Digit_padded (month_lt d), parse2Digit_padded (day_lt d)]
  have hcast : (d.year.toNat : Int) = d.year := Int.toNat_of_nonneg hlo
  simp only [Option.bind_eq_bind, Option.bind_some, hcast]
  exact hext.fromYmdOpt d ⟨hlo, hhi⟩

theorem fastParseTimestamp_text {ext : Extern} (hext : ext.Documented) {ts : NaiveDateTime}
    (h : ts.InCommonRange) :
    fastParseTimestamp ext (dateText ts.date.year.toNat ts.date.month ts.date.day ++ [32]
      ++ timeText ts.hour ts.minute ts.second ts.nanosecond) = some ts := by
  obtain ⟨⟨hlo, hhi⟩, hnanos⟩ := h
  have hhour := ts.hour_lt
  have hminute := ts.minute_lt
  have hsecond := ts.second_lt
  generalize htext : dateText ts.date.year.toNat ts.date.month ts.date.day ++ [32]
    ++ timeText ts.hour ts.minute ts.second ts.nanosecond = text
  -- Every field of the layout is at its place in the text that was written.
  have hyear : slice text 0 4 = padded 4 ts.date.year.toNat := by rw [← htext]; rfl
  have hmonth : slice text 5 7 = padded 2 ts.date.month := by rw [← htext]; rfl
  have hday : slice text 8 10 = padded 2 ts.date.day := by rw [← htext]; rfl
  have hh : slice text 11 13 = padded 2 ts.hour := by rw [← htext]; rfl
  have hm : slice text 14 16 = padded 2 ts.minute := by rw [← htext]; rfl
  have hs : slice text 17 19 = padded 2 ts.second := by rw [← htext]; rfl
  have hfrac : text.drop 20 = padded 9 ts.nanosecond := by rw [← htext]; rfl
  have hlen : text.length = 29 := by rw [← htext]; rfl
  have hpoint : text[19]? = some 46 := by rw [← htext]; rfl
  have hlayout : ¬(text.length < 19 ∨ text[4]? ≠ some 45 ∨ text[7]? ≠ some 45 ∨
      text[13]? ≠ some 58 ∨ text[16]? ≠ some 58 ∨
      (text[10]? ≠ some 32 ∧ text[10]? ≠ some 84)) := by
    simp only [not_or, not_not, not_and, hlen]
    exact ⟨by omega, by rw [← htext]; rfl, by rw [← htext]; rfl, by rw [← htext]; rfl,
      by rw [← htext]; rfl, fun hne => absurd (by rw [← htext]; rfl) hne⟩
  have hn : fastParseNanos text = some ts.nanosecond := by
    have hall : (padded 9 ts.nanosecond).all isDigit = true :=
      List.all_eq_true.mpr fun b hb => isDigit_of_mem_padded hb
    have hnil : padded 9 ts.nanosecond ≠ [] := List.ne_nil_of_length_pos (by simp)
    rw [fastParseNanos, if_neg (by omega), if_pos ⟨by omega, hpoint⟩]
    simp only [hfrac]
    rw [if_neg (by simp [hall, hnil]), value_padded_of_lt (by omega), padded_length]
    simp
  rw [fastParseTimestamp, if_neg hlayout, hyear, hmonth, hday, hh, hm, hs, hn,
    parse4Digit_padded (by omega), parse2Digit_padded (month_lt _), parse2Digit_padded (day_lt _),
    parse2Digit_padded (by omega), parse2Digit_padded (by omega), parse2Digit_padded (by omega)]
  have hcast : (ts.date.year.toNat : Int) = ts.date.year := Int.toNat_of_nonneg hlo
  simp only [Option.bind_eq_bind, Option.bind_some, hcast]
  rw [hext.fromYmdOpt ts.date ⟨hlo, hhi⟩, Option.bind_some]
  exact hext.andHmsNanoOpt ts ⟨⟨hlo, hhi⟩, hnanos⟩

/-! ### Numbers -/

theorem intText_eq (i : Int) :
    intText i = (if i < 0 then [45] else []) ++ render i.natAbs := by
  rw [intText]
  split_ifs <;> rfl

/-- The `i128` parser accepts exactly the signed numbers that fit. -/
theorem parseI128_eq_ok {bs : List UInt8} {u : I128} :
    parseI128 bs = .ok u ↔ Signed bs u.val := by
  obtain ⟨u, hlo, hhi⟩ := u
  have hparse : parseInt (-2 ^ 127) (2 ^ 127 - 1) bs = .ok u ↔ Signed bs u := by
    rw [parseInt_eq_ok (by omega) (by omega)]
    exact ⟨fun h => h.1, fun h => ⟨h, hlo, by omega⟩⟩
  rw [← hparse]
  unfold parseI128
  split
  · rename_i n hn
    have heq : parseInt (-2 ^ 127) (2 ^ 127 - 1) bs = .ok u ↔ n = u := by
      rw [hn, Except.ok.injEq]
    rw [heq]
    simp only [Except.ok.injEq, Subtype.mk.injEq]
  · rename_i e he
    have heq : parseInt (-2 ^ 127) (2 ^ 127 - 1) bs = .ok u ↔ False := by
      rw [he]
      simp only [reduceCtorEq]
    rw [heq]
    simp only [reduceCtorEq]

/-- A sign and digits, leading zeros included, parse to the number they stand for. -/
theorem parseI128_signed (u : I128) {ds : List UInt8} (hne : ds ≠ [])
    (hds : ∀ b ∈ ds, isDigit b = true) (hval : value ds = u.val.natAbs) :
    parseI128 ((if u.val < 0 then [45] else []) ++ ds) = .ok u := by
  rw [parseI128_eq_ok]
  by_cases hu : u.val < 0
  · rw [if_pos hu]
    refine ⟨[45], by decide, ds, hne, hds, rfl, ?_⟩
    rw [signed, if_pos rfl]
    omega
  · rw [if_neg hu]
    refine ⟨[], by decide, ds, hne, hds, rfl, ?_⟩
    rw [signed, if_neg (by decide)]
    omega

theorem ne_point_of_isDigit {b : UInt8} (h : isDigit b = true) : (b == 46) = false := by
  have hb := isDigit_iff.mp h
  rw [beq_eq_false_iff_ne]
  rintro rfl
  simp at hb

theorem ne_point_of_signed (neg : Prop) [Decidable neg] {ds : List UInt8}
    (hds : ∀ b ∈ ds, isDigit b = true) :
    ∀ b ∈ (if neg then [45] else []) ++ ds, (b == 46) = false := by
  intro b hb
  rw [List.mem_append] at hb
  obtain hb | hb := hb
  · split_ifs at hb
    · rw [List.mem_singleton.mp hb]
      rfl
    · cases hb
  · exact ne_point_of_isDigit (hds b hb)

/-- A text without a point is parsed as it is. -/
theorem tryFrom_whole {s : String} (hpoint : ∀ b ∈ Utf8.bytes s, (b == 46) = false) {d : Decimal} :
    Decimal.tryFrom s = .ok d ↔ Signed (Utf8.bytes s) d.unscaled.val ∧ d.scale = 0 := by
  obtain ⟨u, scale⟩ := d
  have hnone : (Utf8.bytes s).findIdx? (· == 46) = none := List.findIdx?_eq_none_iff.mpr hpoint
  rw [← parseI128_eq_ok]
  simp only [Decimal.tryFrom, hnone]
  cases parseI128 (Utf8.bytes s) with
  | error e => simp only [reduceCtorEq, false_and]
  | ok v => simp only [Except.ok.injEq, Decimal.mk.injEq, eq_comm]

/-- A text with a point is parsed without its first point, and the scale counts the bytes after
it. -/
theorem tryFrom_point {s : String} {pre post : List UInt8}
    (hs : Utf8.bytes s = pre ++ 46 :: post) (hpre : ∀ b ∈ pre, (b == 46) = false) {d : Decimal} :
    Decimal.tryFrom s = .ok d ↔
      Signed (pre ++ post) d.unscaled.val ∧ d.scale.toNat = post.length := by
  obtain ⟨u, scale⟩ := d
  have hnone : pre.findIdx? (· == 46) = none := List.findIdx?_eq_none_iff.mpr hpre
  have hpoint : (pre ++ 46 :: post).findIdx? (· == 46) = some pre.length := by
    rw [List.findIdx?_append, hnone, List.findIdx?_cons]
    simp
  have hlen : (pre ++ 46 :: post).length - pre.length - 1 = post.length := by
    rw [List.length_append, List.length_cons]
    omega
  have htake : (pre ++ 46 :: post).take pre.length = pre := List.take_left
  have hdrop : (pre ++ 46 :: post).drop (pre.length + 1) = post := by
    rw [← List.drop_drop, List.drop_left]
    rfl
  rw [← parseI128_eq_ok]
  simp only [Decimal.tryFrom, hs, hpoint, hlen, htake, hdrop]
  -- The scale must fit a byte, on either side.
  by_cases hscale : post.length < 256
  · rw [if_pos hscale]
    have hcast : (UInt8.ofNat post.length).toNat = post.length := UInt8.toNat_ofNat_of_lt' hscale
    have hof : UInt8.ofNat post.length = scale ↔ scale.toNat = post.length := by
      rw [← UInt8.toNat_inj, hcast]
      exact eq_comm
    cases hparse : parseI128 (pre ++ post) with
    | error e => simp only [hparse, reduceCtorEq, false_and]
    | ok v => simp only [hparse, Except.ok.injEq, Decimal.mk.injEq, hof]
  · rw [if_neg hscale]
    have hlt := scale.toNat_lt
    simp only [reduceCtorEq, false_iff, not_and]
    intro _ heq
    omega

/-- Digits without a point are a decimal of scale 0. -/
theorem tryFrom_signed (u : I128) {ds : List UInt8} (hne : ds ≠ [])
    (hds : ∀ b ∈ ds, isDigit b = true) (hval : value ds = u.val.natAbs) {s : String}
    (hs : Utf8.bytes s = (if u.val < 0 then [45] else []) ++ ds) :
    Decimal.tryFrom s = .ok ⟨u, 0⟩ := by
  have hpoint := ne_point_of_signed (u.val < 0) hds
  rw [← hs] at hpoint
  rw [tryFrom_whole hpoint, hs]
  exact ⟨parseI128_eq_ok.mp (parseI128_signed u hne hds hval), rfl⟩

/-- Digits around a point are a decimal whose scale counts the ones after it. -/
theorem tryFrom_signed_point (u : I128) (whole frac : List UInt8) (hne : whole ≠ [])
    (hwhole : ∀ b ∈ whole, isDigit b = true) (hfrac : ∀ b ∈ frac, isDigit b = true)
    (hval : value (whole ++ frac) = u.val.natAbs) (hscale : frac.length < 256) {s : String}
    (hs : Utf8.bytes s = (if u.val < 0 then [45] else []) ++ whole ++ [46] ++ frac) :
    Decimal.tryFrom s = .ok ⟨u, UInt8.ofNat frac.length⟩ := by
  rw [List.append_assoc _ [46], List.singleton_append] at hs
  rw [tryFrom_point hs (ne_point_of_signed (u.val < 0) hwhole), List.append_assoc]
  refine ⟨parseI128_eq_ok.mp (parseI128_signed u ?_ ?_ hval), UInt8.toNat_ofNat_of_lt' hscale⟩
  · exact List.append_ne_nil_of_left_ne_nil hne _
  · intro b hb
    rw [List.mem_append] at hb
    exact hb.elim (hwhole b) (hfrac b)

theorem isDigit_zero : isDigit 48 = true := by decide

theorem value_zeros_append (k : Nat) (ds : List UInt8) :
    value (List.replicate k 48 ++ ds) = value ds := by
  have hz : value (List.replicate k 48) = 0 := value_zeros k
  rw [value_append, hz, Nat.zero_mul, Nat.zero_add]

/-- The text of an integer reads as a decimal of scale 0. -/
theorem tryFrom_intText (u : I128) {s : String} (hs : Utf8.bytes s = intText u.val) :
    Decimal.tryFrom s = .ok ⟨u, 0⟩ :=
  tryFrom_signed u (render_ne_nil _) (fun _ => isDigit_of_mem_render) (value_render _)
    (by rw [hs, intText_eq])

/-- **Round trip of decimals**: the written digits read back with the same scale. -/
theorem tryFrom_writeDecimal (d : Decimal) {s : String} (hs : Utf8.bytes s = writeDecimal [] d) :
    Decimal.tryFrom s = .ok d := by
  obtain ⟨u, scale⟩ := d
  have hmem : ∀ b ∈ render u.val.natAbs, isDigit b = true := fun _ => isDigit_of_mem_render
  have hscale : scale.toNat < 256 := scale.toNat_lt
  simp only [writeDecimal, wholeText_eq, magnitudeText_eq, List.nil_append] at hs
  by_cases h0 : scale = 0
  · rw [if_pos h0] at hs
    rw [h0, tryFrom_intText u hs]
  rw [if_neg h0] at hs
  by_cases hlen : (render u.val.natAbs).length ≤ scale.toNat
  -- All digits stand after the point: `0.` and zeros come before them.
  · rw [if_pos hlen] at hs
    have hfraclen : (List.replicate (scale.toNat - (render u.val.natAbs).length) (48 : UInt8)
        ++ render u.val.natAbs).length = scale.toNat := by
      rw [List.length_append, List.length_replicate]
      omega
    have h := tryFrom_signed_point u [48]
      (List.replicate (scale.toNat - (render u.val.natAbs).length) 48 ++ render u.val.natAbs)
      (s := s) (by simp)
      (fun b hb => by rw [List.mem_singleton.mp hb]; exact isDigit_zero)
      (fun b hb => by
        rw [List.mem_append] at hb
        obtain hb | hb := hb
        · rw [List.eq_of_mem_replicate hb]; exact isDigit_zero
        · exact hmem b hb)
      (by
        have hz := value_zeros_append 1
          (List.replicate (scale.toNat - (render u.val.natAbs).length) 48
            ++ render u.val.natAbs)
        rw [List.replicate_one] at hz
        rw [hz, value_zeros_append, value_render])
      (by omega) (by rw [hs]; simp)
    rw [h, hfraclen, UInt8.ofNat_toNat]
  · rw [if_neg hlen] at hs
    have hpos : 0 < scale.toNat := by
      rcases Nat.eq_zero_or_pos scale.toNat with hz | hpos
      · exact absurd (UInt8.toNat_inj.mp hz) h0
      · exact hpos
    -- The point stands among the digits.
    have hfraclen : ((render u.val.natAbs).drop
        ((render u.val.natAbs).length - scale.toNat)).length = scale.toNat := by
      rw [List.length_drop]
      omega
    have hwholelen : ((render u.val.natAbs).take
        ((render u.val.natAbs).length - scale.toNat)).length
          = (render u.val.natAbs).length - scale.toNat := by
      rw [List.length_take]
      omega
    have h := tryFrom_signed_point u
      ((render u.val.natAbs).take ((render u.val.natAbs).length - scale.toNat))
      ((render u.val.natAbs).drop ((render u.val.natAbs).length - scale.toNat)) (s := s)
      (List.ne_nil_of_length_pos (by rw [hwholelen]; omega))
      (fun b hb => hmem b (List.mem_of_mem_take hb))
      (fun b hb => hmem b (List.mem_of_mem_drop hb))
      (by rw [List.take_append_drop, value_render])
      (by omega) (by rw [hs])
    rw [h, hfraclen, UInt8.ofNat_toNat]

/-! ### Written texts are texts -/

theorem ascii_of_isDigit {b : UInt8} (h : isDigit b = true) : b.toNat < 128 := by
  have := isDigit_iff.mp h
  omega

theorem ascii_append {as bs : List UInt8} (ha : ∀ b ∈ as, b.toNat < 128)
    (hb : ∀ b ∈ bs, b.toNat < 128) : ∀ b ∈ as ++ bs, b.toNat < 128 := by
  intro b h
  rw [List.mem_append] at h
  exact h.elim (ha b) (hb b)

theorem ascii_padded (w n : Nat) : ∀ b ∈ padded w n, b.toNat < 128 := fun _ hb =>
  ascii_of_isDigit (isDigit_of_mem_padded hb)

theorem ascii_render (n : Nat) : ∀ b ∈ render n, b.toNat < 128 := fun _ hb =>
  ascii_of_isDigit (isDigit_of_mem_render hb)

theorem ascii_singleton {c : UInt8} (h : c.toNat < 128) : ∀ b ∈ [c], b.toNat < 128 := by
  intro b hb
  rwa [List.mem_singleton.mp hb]

theorem ascii_sign (neg : Prop) [Decidable neg] :
    ∀ b ∈ (if neg then [(45 : UInt8)] else []), b.toNat < 128 := by
  split_ifs
  · exact ascii_singleton (by decide)
  · intro b hb
    cases hb

theorem ascii_intText (i : Int) : ∀ b ∈ intText i, b.toNat < 128 := by
  rw [intText_eq]
  exact ascii_append (ascii_sign _) (ascii_render _)

theorem ascii_dateText (year month day : Nat) : ∀ b ∈ dateText year month day, b.toNat < 128 :=
  ascii_append (ascii_append (ascii_append (ascii_append (ascii_padded _ _)
    (ascii_singleton (by decide))) (ascii_padded _ _)) (ascii_singleton (by decide)))
    (ascii_padded _ _)

theorem ascii_timeText (hour minute second nanos : Nat) :
    ∀ b ∈ timeText hour minute second nanos, b.toNat < 128 :=
  ascii_append (ascii_append (ascii_append (ascii_append (ascii_append (ascii_append
    (ascii_padded _ _) (ascii_singleton (by decide))) (ascii_padded _ _))
    (ascii_singleton (by decide))) (ascii_padded _ _)) (ascii_singleton (by decide)))
    (ascii_padded _ _)

theorem ascii_zeros (k : Nat) : ∀ b ∈ List.replicate k (48 : UInt8), b.toNat < 128 := by
  intro b hb
  rw [List.eq_of_mem_replicate hb]
  decide

theorem ascii_writeDecimal (d : Decimal) : ∀ b ∈ writeDecimal [] d, b.toNat < 128 := by
  have hrender := ascii_render d.unscaled.val.natAbs
  have hsign := ascii_sign (d.unscaled.val < 0)
  simp only [writeDecimal, wholeText_eq, magnitudeText_eq, List.nil_append]
  by_cases hscale : d.scale = 0
  · rw [if_pos hscale]
    exact ascii_intText _
  rw [if_neg hscale]
  by_cases hlen : (render d.unscaled.val.natAbs).length ≤ d.scale.toNat
  · rw [if_pos hlen]
    refine ascii_append (ascii_append (ascii_append hsign ?_) (ascii_zeros _)) hrender
    show ∀ b ∈ [(48 : UInt8)] ++ [46], b.toNat < 128
    exact ascii_append (ascii_singleton (by decide)) (ascii_singleton (by decide))
  · rw [if_neg hlen]
    exact ascii_append (ascii_append (ascii_append hsign fun b hb =>
      hrender b (List.mem_of_mem_take hb)) (ascii_singleton (by decide))) fun b hb =>
      hrender b (List.mem_of_mem_drop hb)

/-- ASCII bytes are the bytes of a text. -/
theorem exists_text_of_ascii {bs : List UInt8} (h : ∀ b ∈ bs, b.toNat < 128) :
    ∃ s, Utf8.text? bs = some s ∧ Utf8.bytes s = bs := by
  obtain ⟨s, hs⟩ := Option.isSome_iff_exists.mp (Utf8.text?_isSome_of_ascii h)
  exact ⟨s, hs, Utf8.bytes_of_text? hs⟩

/-! ### String cells -/

section

variable {ext : Extern} {s : String}

theorem decodeStringBlock_numeric {p sc : UInt32} {d : Decimal} (h : Decimal.tryFrom s = .ok d) :
    decodeStringBlock ext (.numeric p sc) s = .numeric d := by
  unfold decodeStringBlock
  rw [h]

theorem decodeStringBlock_date {d : NaiveDate}
    (h : (fastParseDate ext (Utf8.bytes s)).or (ext.parseDate s dateFormat) = some d) :
    decodeStringBlock ext .date s = .date d := by
  unfold decodeStringBlock
  rw [h]

theorem decodeStringBlock_timestamp {p : UInt32} {t : NaiveDateTime}
    (h : (fastParseTimestamp ext (Utf8.bytes s)).or (ext.parseTimestamp s timestampParse)
      = some t) :
    decodeStringBlock ext (.timestamp p) s = .timestamp t := by
  unfold decodeStringBlock
  rw [h, Option.some_or]

end

end ExaUdf
