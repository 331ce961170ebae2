import ExaUdf.Equiv.Text

/-!
# Which texts are decimals

`IsLiteral` is the grammar of decimal literals with the decimal a literal stands for.  The parser
deletes the first point and reads the rest as an integer, so it accepts the literals and one kind of
text beside them: a point with the sign right behind it (`tryFrom_ok`).  On all other texts it
reads exactly the literals (`readsLiterals_iff`).
-/

namespace ExaUdf

open Digits

/-- `bs` is a decimal literal and stands for `d`: an optional sign, then digits with an optional
point among or after them, or a point and digits. -/
def IsLiteral (bs : List UInt8) (d : Decimal) : Prop :=
  ∃ sign ∈ signs, ∃ whole frac : List UInt8,
    whole ++ frac ≠ [] ∧ (∀ b ∈ whole ++ frac, isDigit b = true) ∧
      (bs = sign ++ whole ++ 46 :: frac ∨ frac = [] ∧ bs = sign ++ whole) ∧
      d.unscaled.val = signed sign (value (whole ++ frac)) ∧ d.scale.toNat = frac.length

/-- A point, a sign and digits, short enough and with a number that fits. -/
def MisplacedSign (bs : List UInt8) : Prop :=
  ∃ sign ∈ [[43], [45]], ∃ ds : List UInt8,
    ds ≠ [] ∧ (∀ b ∈ ds, isDigit b = true) ∧ bs = 46 :: (sign ++ ds) ∧ ds.length < 255 ∧
      -2 ^ 127 ≤ signed sign (value ds) ∧ signed sign (value ds) < 2 ^ 127

/-! ### Bytes that are not a point -/

theorem ne_point_of_signs {sign : List UInt8} (h : sign ∈ signs) :
    ∀ b ∈ sign, (b == 46) = false := by
  simp only [signs, List.mem_cons, List.not_mem_nil, or_false] at h
  obtain rfl | rfl | rfl := h <;> simp

theorem ne_point_of_sign_digits {sign ds : List UInt8} (h : sign ∈ signs)
    (hds : ∀ b ∈ ds, isDigit b = true) : ∀ b ∈ sign ++ ds, (b == 46) = false := by
  intro b hb
  rw [List.mem_append] at hb
  exact hb.elim (ne_point_of_signs h b) fun hb => ne_point_of_isDigit (hds b hb)

/-- A sign is one byte, so a cut falls before or behind it. -/
theorem nil_or_nil_of_sign {sign pre rest : List UInt8} (h : sign ∈ signs)
    (heq : sign = pre ++ rest) : pre = [] ∨ rest = [] := by
  have hlen := congrArg List.length heq
  have hshort : sign.length ≤ 1 := by
    simp only [signs, List.mem_cons, List.not_mem_nil, or_false] at h
    obtain rfl | rfl | rfl := h <;> simp
  rw [List.length_append] at hlen
  rcases Nat.eq_zero_or_pos pre.length with hpre | hpre
  · exact .inl (List.length_eq_zero_iff.mp hpre)
  · exact .inr (List.length_eq_zero_iff.mp (by omega))

/-! ### What is accepted -/

/-- A literal reads as the decimal it stands for. -/
theorem IsLiteral.tryFrom {s : String} {d : Decimal} (h : IsLiteral (Utf8.bytes s) d) :
    Decimal.tryFrom s = .ok d := by
  obtain ⟨sign, hsign, whole, frac, hne, hdigits, hs, hval, hscale⟩ := h
  obtain hs | ⟨rfl, hs⟩ := hs
  · have hwhole : ∀ b ∈ whole, isDigit b = true := fun b hb =>
      hdigits b (List.mem_append_left _ hb)
    rw [tryFrom_point hs (ne_point_of_sign_digits hsign hwhole), List.append_assoc]
    exact ⟨⟨sign, hsign, whole ++ frac, hne, hdigits, rfl, hval⟩, hscale⟩
  · rw [List.append_nil] at hne hdigits hval
    have hpoint := ne_point_of_sign_digits hsign hdigits
    rw [← hs] at hpoint
    rw [tryFrom_whole hpoint]
    exact ⟨⟨sign, hsign, whole, hne, hdigits, hs, hval⟩, UInt8.toNat_inj.mp hscale⟩

/-- A sign behind the point is read as if it stood in front, and counted with the digits. -/
theorem MisplacedSign.tryFrom {s : String} (h : MisplacedSign (Utf8.bytes s)) :
    ∃ d, Decimal.tryFrom s = .ok d := by
  obtain ⟨sign, hsign, ds, hne, hds, hs, hlen, hlo, hhi⟩ := h
  have hmem : sign ∈ signs := List.mem_cons_of_mem _ hsign
  have hsignlen : sign.length = 1 := by
    simp only [List.mem_cons, List.not_mem_nil, or_false] at hsign
    obtain rfl | rfl := hsign <;> rfl
  refine ⟨⟨⟨signed sign (value ds), hlo, hhi⟩, UInt8.ofNat (sign ++ ds).length⟩, ?_⟩
  have hs' : Utf8.bytes s = [] ++ 46 :: (sign ++ ds) := hs
  rw [tryFrom_point hs' fun _ hb => nomatch hb]
  refine ⟨⟨sign, hmem, ds, hne, hds, rfl, rfl⟩, UInt8.toNat_ofNat_of_lt' ?_⟩
  rw [List.length_append, hsignlen]
  show 1 + ds.length < 256
  omega

/-- **What the parser accepts**: literals, and a sign behind the point. -/
theorem tryFrom_ok {s : String} {d : Decimal} (h : Decimal.tryFrom s = .ok d) :
    IsLiteral (Utf8.bytes s) d ∨ MisplacedSign (Utf8.bytes s) := by
  by_cases hpoint : (46 : UInt8) ∈ Utf8.bytes s
  · obtain ⟨pre, post, hs, hpre⟩ := List.eq_append_cons_of_mem hpoint
    have hpre' : ∀ b ∈ pre, (b == 46) = false := fun b hb =>
      beq_eq_false_iff_ne.mpr fun heq => hpre (heq ▸ hb)
    rw [tryFrom_point hs hpre'] at h
    obtain ⟨⟨sign, hsign, ds, hne, hds, hsplit, hval⟩, hscale⟩ := h
    -- The deleted point stood in the sign or in the digits.
    obtain ⟨rest, hpre, hpost⟩ | ⟨whole, hpre, hds'⟩ := List.append_eq_append_iff.mp hsplit
    · obtain rfl | rfl := nil_or_nil_of_sign hsign hpre
      · rw [List.nil_append] at hpre
        obtain rfl := hpre
        by_cases hsome : sign = []
        · left
          rw [hsome, List.nil_append] at hpost
          refine ⟨[], by decide, [], ds, hne, hds, .inl ?_, ?_, ?_⟩
          · rw [hs, hpost]
            rfl
          · rw [hval, hsome, List.nil_append]
          · rw [hscale, hpost]
        · right
          have hmem : sign ∈ [[43], [45]] := (List.mem_cons.mp hsign).resolve_left hsome
          have hlt := d.scale.toNat_lt
          have hpos : 0 < sign.length := List.length_pos_iff.mpr hsome
          rw [hscale, hpost, List.length_append] at hlt
          have hfit := d.unscaled.property
          rw [hval] at hfit
          refine ⟨sign, hmem, ds, hne, hds, ?_, by omega, hfit⟩
          rw [hs, hpost]
          rfl
      · left
        rw [List.append_nil] at hpre
        rw [List.nil_append] at hpost
        subst hpost hpre
        refine ⟨sign, hsign, [], post, hne, hds, .inl ?_, hval, hscale⟩
        rw [hs, List.append_nil]
    · left
      subst hpre hds'
      exact ⟨sign, hsign, whole, post, hne, hds, .inl hs, hval, hscale⟩
  · have hpoint' : ∀ b ∈ Utf8.bytes s, (b == 46) = false := fun b hb =>
      beq_eq_false_iff_ne.mpr fun heq => hpoint (heq ▸ hb)
    rw [tryFrom_whole hpoint'] at h
    obtain ⟨⟨sign, hsign, ds, hne, hds, hs, hval⟩, hscale⟩ := h
    left
    refine ⟨sign, hsign, ds, [], ?_, ?_, .inr ⟨rfl, hs⟩, ?_, ?_⟩
    · rwa [List.append_nil]
    · rwa [List.append_nil]
    · rw [hval, List.append_nil]
    · rw [hscale]
      rfl

/-- A sign behind the point is in no literal. -/
theorem MisplacedSign.not_isLiteral {bs : List UInt8} (h : MisplacedSign bs) (d : Decimal) :
    ¬ IsLiteral bs d := by
  obtain ⟨sign, hsign, ds, -, -, rfl, -⟩ := h
  rintro ⟨sign', hsign', whole, frac, hne, hdigits, hs, -⟩
  have hwhole : ∀ b ∈ whole, isDigit b = true := fun b hb =>
    hdigits b (List.mem_append_left _ hb)
  have hfront := ne_point_of_sign_digits hsign' hwhole
  generalize sign' ++ whole = front at hs hfront
  obtain - | ⟨b, front⟩ := front
  · -- With nothing in front of the point the sign would be a digit.
    obtain hs | ⟨-, hs⟩ := hs
    · have hfrac : sign ++ ds = frac := List.tail_eq_of_cons_eq hs
      simp only [List.mem_cons, List.not_mem_nil, or_false] at hsign
      obtain rfl | rfl := hsign
      · have hdigit := hdigits 43 (List.mem_append_right _ (hfrac ▸ List.mem_cons_self))
        exact absurd hdigit (by decide)
      · have hdigit := hdigits 45 (List.mem_append_right _ (hfrac ▸ List.mem_cons_self))
        exact absurd hdigit (by decide)
    · cases hs
  · have hb := hfront b List.mem_cons_self
    have hhead : b = 46 := by
      obtain hs | ⟨-, hs⟩ := hs
      · exact (List.head_eq_of_cons_eq hs).symm
      · exact (List.head_eq_of_cons_eq hs).symm
    rw [hhead] at hb
    cases hb

/-! ### Reading exactly the literals -/

/-- `s` reads as a decimal exactly if it is a literal of that decimal, and a NUMERIC cell with this
text is not NULL exactly if it is a literal. -/
def ReadsLiterals (s : String) : Prop :=
  (∀ d, Decimal.tryFrom s = .ok d ↔ IsLiteral (Utf8.bytes s) d) ∧
    ∀ ext precision scale,
      decodeStringBlock ext (.numeric precision scale) s ≠ .null ↔
        ∃ d, IsLiteral (Utf8.bytes s) d

/-- **Which texts read as they should**: all but those with a sign behind the point. -/
theorem readsLiterals_iff (s : String) :
    ReadsLiterals s ↔ ¬ MisplacedSign (Utf8.bytes s) := by
  constructor
  · rintro ⟨hreads, -⟩ hmisplaced
    obtain ⟨d, hd⟩ := hmisplaced.tryFrom
    exact hmisplaced.not_isLiteral d ((hreads d).mp hd)
  · intro hplain
    have hreads : ∀ d, Decimal.tryFrom s = .ok d ↔ IsLiteral (Utf8.bytes s) d := fun d =>
      ⟨fun h => (tryFrom_ok h).resolve_right hplain, IsLiteral.tryFrom⟩
    refine ⟨hreads, fun ext precision scale => ?_⟩
    unfold decodeStringBlock
    cases hparse : Decimal.tryFrom s with
    | error e =>
      simp only [ne_eq, not_true_eq_false, false_iff, not_exists]
      intro d hd
      rw [← hreads, hparse] at hd
      cases hd
    | ok d =>
      simp only [ne_eq, reduceCtorEq, not_false_eq_true, true_iff]
      exact ⟨d, (hreads d).mp hparse⟩

/-- `.-5` reads as minus five hundredths. -/
theorem not_readsLiterals : ¬ ∀ s, ReadsLiterals s := by
  intro h
  have hparse : Decimal.tryFrom ".-5" = .ok ⟨⟨-5, by decide⟩, 2⟩ := by decide
  have hmisplaced : MisplacedSign (Utf8.bytes ".-5") :=
    ⟨[45], by decide, [53], by decide, List.forall_mem_singleton.mpr (by decide), by decide,
      by decide, by decide, by decide⟩
  exact hmisplaced.not_isLiteral _ (((h ".-5").1 _).mp hparse)

end ExaUdf
