import ExaUdf.Equiv.CheckedCosts
import ExaUdf.Equiv.Emitted
import ExaUdf.Equiv.Literal
import Mathlib.Algebra.Order.Field.Rat
import Mathlib.Tactic.FieldSimp

/-!
# Which decimal columns keep their values

The scale of an Arrow decimal is signed, and cast to an unsigned one.  `pushBatch_decimal`: decimals
keep their values, and the costs of their batch cover the texts and do not overflow, exactly if the
scales are not negative or the cells are zero, and the costs add up to a `usize`.
-/

namespace ExaUdf

open Digits

/-! ### The text of a decimal -/

/-- The number a decimal is. -/
def Decimal.toRat (d : Decimal) : ℚ :=
  d.unscaled.val / 10 ^ d.scale.toNat

/-- The written text is a literal of the decimal. -/
theorem isLiteral_writeDecimal (d : Decimal) : IsLiteral (writeDecimal [] d) d := by
  have hdigits : ∀ b ∈ render d.unscaled.val.natAbs, isDigit b = true := fun _ =>
    isDigit_of_mem_render
  have hsign : (if d.unscaled.val < 0 then [45] else []) ∈ signs := by split_ifs <;> decide
  have hvalue : d.unscaled.val
      = signed (if d.unscaled.val < 0 then [45] else []) d.unscaled.val.natAbs := by
    unfold signed
    split_ifs with hneg h h
    · omega
    · exact absurd rfl h
    · cases h
    · omega
  simp only [writeDecimal, wholeText_eq, magnitudeText_eq, intText_eq, List.nil_append]
  by_cases hscale : d.scale = 0
  · rw [if_pos hscale]
    refine ⟨_, hsign, render d.unscaled.val.natAbs, [], ?_, ?_, .inr ⟨rfl, rfl⟩, ?_, ?_⟩
    · rw [List.append_nil]
      exact render_ne_nil _
    · rwa [List.append_nil]
    · rw [List.append_nil, value_render]
      exact hvalue
    · rw [hscale]
      rfl
  rw [if_neg hscale]
  -- A point after the leading zero, or among the digits.
  by_cases hlen : (render d.unscaled.val.natAbs).length ≤ d.scale.toNat
  · rw [if_pos hlen]
    refine ⟨_, hsign, [48],
      List.replicate (d.scale.toNat - (render d.unscaled.val.natAbs).length) 48
        ++ render d.unscaled.val.natAbs, by simp, ?_, .inl ?_, ?_, ?_⟩
    · intro b hb
      simp only [List.mem_append, List.mem_singleton] at hb
      obtain rfl | hb | hb := hb
      · exact isDigit_zero
      · rw [List.eq_of_mem_replicate hb]
        exact isDigit_zero
      · exact hdigits b hb
    · simp
    · have hz := value_zeros_append 1 (List.replicate
        (d.scale.toNat - (render d.unscaled.val.natAbs).length) 48 ++ render d.unscaled.val.natAbs)
      rw [List.replicate_one] at hz
      rw [hz, value_zeros_append, value_render]
      exact hvalue
    · rw [List.length_append, List.length_replicate]
      omega
  · rw [if_neg hlen]
    refine ⟨_, hsign, (render d.unscaled.val.natAbs).take
        ((render d.unscaled.val.natAbs).length - d.scale.toNat),
      (render d.unscaled.val.natAbs).drop
        ((render d.unscaled.val.natAbs).length - d.scale.toNat), ?_, ?_, .inl ?_, ?_, ?_⟩
    · rw [List.take_append_drop]
      exact render_ne_nil _
    · rwa [List.take_append_drop]
    · simp
    · rw [List.take_append_drop, value_render]
      exact hvalue
    · rw [List.length_drop]
      omega

/-- A literal stands for one decimal. -/
theorem IsLiteral.unique {s : String} {d e : Decimal} (hd : IsLiteral (Utf8.bytes s) d)
    (he : IsLiteral (Utf8.bytes s) e) : d = e :=
  Except.ok.inj (hd.tryFrom.symm.trans he.tryFrom)

/-- At most 39 digits, a sign and a point, or zeros up to the scale. -/
theorem length_writeDecimal_le (d : Decimal) :
    (writeDecimal [] d).length ≤ numericCostBase + d.scale.toNat := by
  have hdigits : (render d.unscaled.val.natAbs).length ≤ 39 := by
    have hfit := d.unscaled.property
    apply render_length_le (by omega)
    omega
  have hsign : (if d.unscaled.val < 0 then [(45 : UInt8)] else []).length ≤ 1 := by
    split_ifs <;> decide
  have hbase : numericCostBase = 40 := rfl
  simp only [writeDecimal, wholeText_eq, magnitudeText_eq, intText_eq, List.nil_append]
  by_cases hscale : d.scale = 0
  · rw [if_pos hscale, List.length_append]
    omega
  have hpos : 0 < d.scale.toNat := Nat.pos_of_ne_zero fun hz => hscale (UInt8.toNat_inj.mp hz)
  rw [if_neg hscale]
  by_cases hlen : (render d.unscaled.val.natAbs).length ≤ d.scale.toNat
  · rw [if_pos hlen]
    simp only [List.length_append, List.length_cons, List.length_nil, List.length_replicate]
    omega
  · rw [if_neg hlen]
    simp only [List.length_append, List.length_cons, List.length_nil, List.length_take,
      List.length_drop]
    omega

/-! ### Signed scales -/

theorem toUInt8_toNat (scale : Int8) :
    (scale.toUInt8.toNat : Int) = if 0 ≤ scale.toInt then scale.toInt else 256 + scale.toInt := by
  have hall : ∀ bits : BitVec 8, ((Int8.ofBitVec bits).toUInt8.toNat : Int)
      = if 0 ≤ (Int8.ofBitVec bits).toInt then (Int8.ofBitVec bits).toInt
        else 256 + (Int8.ofBitVec bits).toInt := by decide +kernel
  exact hall scale.toBitVec

/-- The cast keeps the number of every scale from 0 on, and of no negative one but for zero. -/
theorem toRat_eq_iff (scale : Int8) (u : I128) :
    (⟨u, scale.toUInt8⟩ : Decimal).toRat = u.val * (10 : ℚ) ^ (-scale.toInt)
      ↔ 0 ≤ scale.toInt ∨ u.val = 0 := by
  have hcast := toUInt8_toNat scale
  unfold Decimal.toRat
  dsimp only
  by_cases hscale : 0 ≤ scale.toInt
  · rw [if_pos hscale] at hcast
    rw [← hcast, zpow_neg, zpow_natCast, div_eq_mul_inv]
    exact iff_of_true rfl (.inl (by omega))
  · rw [if_neg hscale] at hcast
    -- A negative scale is cast to one that is too large by 256.
    have hneg : -scale.toInt = 256 - (scale.toUInt8.toNat : Int) := by omega
    have hten : (10 : ℚ) ^ (-scale.toInt) = 10 ^ 256 / 10 ^ scale.toUInt8.toNat := by
      rw [hneg, zpow_sub₀ (by norm_num), zpow_natCast]
      norm_cast
    have hpow : (10 : ℚ) ^ scale.toUInt8.toNat ≠ 0 := pow_ne_zero _ (by norm_num)
    rw [hten, div_eq_mul_inv, div_eq_mul_inv, ← mul_assoc,
      mul_left_inj' (inv_ne_zero hpow)]
    constructor
    · intro heq
      right
      by_contra hne
      have hne' : (u.val : ℚ) ≠ 0 := Int.cast_ne_zero.mpr hne
      have hone : (10 : ℚ) ^ 256 = 1 := mul_left_cancel₀ hne' (by rw [← heq, mul_one])
      norm_num at hone
    · rintro (h | h)
      · exact absurd h hscale
      · rw [h]
        simp

/-! ### Cells -/

/-- The text of a cell with unscaled value `u` denotes `u * 10 ^ (-scale)`, and its cost is
computed without overflow and covers the text. -/
def KeepsDecimal (scale : Int8) (u : I128) (text : List UInt8) : Prop :=
  (∃ s d, Utf8.bytes s = text ∧ IsLiteral text d ∧ d.toRat = u.val * (10 : ℚ) ^ (-scale.toInt)) ∧
    ∃ cost, Checked.decimalCellCost scale = .ok cost ∧ text.length ≤ cost ∧
      ∀ precision, fixedCellCost (.decimal128 precision scale) = some cost

theorem keepsDecimal_iff (scale : Int8) (u : I128) :
    KeepsDecimal scale u (writeDecimal [] ⟨u, scale.toUInt8⟩)
      ↔ 0 ≤ scale.toInt ∨ u.val = 0 ∧ scale.toInt < -40 := by
  have hlen := length_writeDecimal_le ⟨u, scale.toUInt8⟩
  have hcast := toUInt8_toNat scale
  have hcost := Checked.decimalCellCost_eq scale
  have hbase : numericCostBase = 40 := rfl
  obtain ⟨s, -, hs⟩ := exists_text_of_ascii (ascii_writeDecimal ⟨u, scale.toUInt8⟩)
  have hliteral := isLiteral_writeDecimal ⟨u, scale.toUInt8⟩
  generalize writeDecimal [] ⟨u, scale.toUInt8⟩ = text at hlen hs hliteral ⊢
  have hvalue : (∃ s d, Utf8.bytes s = text ∧ IsLiteral text d ∧
      d.toRat = u.val * (10 : ℚ) ^ (-scale.toInt)) ↔ 0 ≤ scale.toInt ∨ u.val = 0 := by
    rw [← toRat_eq_iff]
    constructor
    · rintro ⟨s', d, hs', hd, heq⟩
      subst hs'
      rwa [← hd.unique hliteral]
    · intro heq
      exact ⟨s, _, hs, hliteral, heq⟩
  unfold KeepsDecimal
  rw [hvalue]
  by_cases hscale : 0 ≤ scale.toInt
  · rw [if_pos hscale] at hcost
    refine iff_of_true ⟨.inl hscale, _, hcost, hlen, fun _ => Checked.fixedCellCost_decimal hcost⟩
      (.inl hscale)
  rw [if_neg hscale] at hcost hcast
  -- From -40 to -1 the cost overflows; below, it is computed, but only zero keeps its value.
  by_cases hlow : scale.toInt < -40
  · rw [if_pos hlow] at hcost
    constructor
    · rintro ⟨hzero, -⟩
      exact .inr ⟨hzero.resolve_left hscale, hlow⟩
    · rintro (h | ⟨hzero, -⟩)
      · exact absurd h hscale
      · exact ⟨.inr hzero, _, hcost, by dsimp only at hlen; omega,
          fun _ => Checked.fixedCellCost_decimal hcost⟩
  · rw [if_neg hlow] at hcost
    constructor
    · rintro ⟨-, cost, hok, -⟩
      rw [hcost] at hok
      cases hok
    · rintro (h | ⟨-, h⟩)
      · exact absurd h hscale
      · exact absurd h hlow

/-- The cell of a decimal column that feeds NUMERIC is a text, and meets `P` with its scale and
unscaled value. -/
def DecimalCell (P : Int8 → I128 → List UInt8 → Prop) (a : ArrowArray) (col : ColumnInfo) (k : Nat)
    (cell : WireCell) : Prop :=
  ∀ arrowPrecision scale values precision declared,
    a.data = .decimal128 arrowPrecision scale values → col.typ = .numeric precision declared →
      ∃ text u, cell = .string text ∧ values[k]? = some u ∧ P scale u text

/-- Pushing the batch onto `buf` computes every cost without an overflow, and each non-NULL cell of
a decimal column is a text that denotes its value, at a cost that covers it. -/
structure KeepsDecimals (ext : Extern) (cols : List ColumnInfo) (buf : EmitBuffer)
    (sent : List EmitTable) (rowNumber : UInt64) (batch : RecordBatch) : Prop where
  computed : Checked.pushBatch ext cols rowNumber record buf batch sent
    = .ok (buf.pushBatch ext batch cols rowNumber record sent)
  cells : EmitsCells ext cols buf sent rowNumber batch (DecimalCell KeepsDecimal)

/-- The decimal columns that feed NUMERIC have scales from 0 on, or only zeros and NULLs. -/
def DecimalsFit (batch : RecordBatch) (cols : List ColumnInfo) : Prop :=
  ∀ (c : Nat) (a : ArrowArray) (col : ColumnInfo) arrowPrecision scale values precision declared,
    batch.columns[c]? = some a → cols[c]? = some col →
      a.data = .decimal128 arrowPrecision scale values → col.typ = .numeric precision declared →
        0 ≤ scale.toInt ∨ ∀ k < batch.numRows, nullAt a.nulls k = false →
          ∀ u, values[k]? = some u → u.val = 0

section

variable {ext : Extern} {cols : List ColumnInfo} {all : List Charged} {buf : EmitBuffer}
  {sent : List EmitTable} {rowNumber : UInt64} {batch : RecordBatch} {accs : List ColAccessor}

/-- The cell that the accessor of a decimal column makes. -/
theorem decimalCell_iff {a : ArrowArray} (hwf : a.WF batch.numRows) {col : ColumnInfo}
    {acc : ColAccessor} (hacc : accessor? a.data col.typ = some acc)
    (P : Int8 → I128 → List UInt8 → Prop) {k : Nat} (hk : k < batch.numRows) :
    DecimalCell P a col k (acc.cell ext k) ↔
      ∀ arrowPrecision scale values precision declared,
        a.data = .decimal128 arrowPrecision scale values → col.typ = .numeric precision declared →
          ∀ u, values[k]? = some u → P scale u (writeDecimal [] ⟨u, scale.toUInt8⟩) := by
  unfold DecimalCell
  refine forall₃_congr fun arrowPrecision scale values => forall₂_congr fun precision declared =>
    forall₂_congr fun hdata htyp => ?_
  have hlen := hwf.data
  rw [hdata] at hlen hacc
  rw [htyp] at hacc
  obtain rfl := Option.some.inj hacc
  have hget := @BatchPacker.Made.getD_eq_getElem? _ values _ _ hlen hk ⟨0, zero_mem_i128⟩
  constructor
  · rintro ⟨text, u, htext, hu, hP⟩ u' hu'
    obtain rfl := Option.some.inj (hu.symm.trans hu')
    obtain rfl := Option.some.inj (hget.trans hu)
    obtain rfl := WireCell.string.inj htext
    exact hP
  · intro hall
    exact ⟨_, _, rfl, hget.symm, hall _ hget.symm⟩

theorem DecimalsFit.cells (hext : ext.Documented)
    (h : buf.Holds ext cols (EmitBuffer.Recorded cols) all sent)
    (hcells : batch.numRows ≠ 0 → ∀ a ∈ batch.columns, a.CostFits)
    (hfit : DecimalsFit batch cols) :
    EmitsCells ext cols buf sent rowNumber batch (DecimalCell KeepsDecimal) := by
  apply emitsCells hext h rowNumber batch
  intro c a col acc ha hcol hacc k hk hnull
  have hmem := List.mem_of_getElem? ha
  rw [decimalCell_iff (batch.wf a hmem) hacc KeepsDecimal hk]
  intro arrowPrecision scale values precision declared hdata htyp u hu
  rw [keepsDecimal_iff]
  have hcost := hcells (Nat.ne_zero_of_lt hk) a hmem _ _ _ hdata
  rcases hfit c a col _ _ _ _ _ ha hcol hdata htyp with hscale | hzero
  · exact .inl hscale
  · exact hcost.imp_right fun hlow => ⟨hzero k hk hnull u hu, hlow⟩

theorem DecimalsFit.of_cells (hext : ext.Documented)
    (h : buf.Holds ext cols (EmitBuffer.Recorded cols) all sent)
    (hacc : buildAccessors ext batch cols = .ok accs)
    (hcells : EmitsCells ext cols buf sent rowNumber batch (DecimalCell KeepsDecimal)) :
    DecimalsFit batch cols := by
  intro c a col arrowPrecision scale values precision declared ha hcol hdata htyp
  by_cases hscale : 0 ≤ scale.toInt
  · exact .inl hscale
  refine .inr fun k hk hnull u hu => ?_
  obtain ⟨acc, hmatch, hcell⟩ := hcells.cell hext h hacc ha hcol hk hnull
  rw [decimalCell_iff (batch.wf a (List.mem_of_getElem? ha)) hmatch KeepsDecimal hk] at hcell
  have hkeeps := hcell _ _ _ _ _ hdata htyp u hu
  rw [keepsDecimal_iff] at hkeeps
  exact (hkeeps.resolve_left hscale).1

end

/-- **When decimal columns keep their values.**  For every batch that the accessors accept and every
buffer that it is pushed onto: the decimals keep their values, at costs that cover their texts and
that are computed without an overflow, exactly if the scales of the columns that feed NUMERIC are
not negative, or the cells zero, and the costs fit. -/
theorem pushBatch_decimal {ext : Extern} (hext : ext.Documented) {cols : List ColumnInfo}
    {all : List Charged} {buf : EmitBuffer} {sent : List EmitTable}
    (h : buf.Holds ext cols (EmitBuffer.Recorded cols) all sent) (rowNumber : UInt64)
    (batch : RecordBatch) {accs : List ColAccessor}
    (hacc : buildAccessors ext batch cols = .ok accs) :
    KeepsDecimals ext cols buf sent rowNumber batch ↔
      DecimalsFit batch cols ∧ (batch.numRows ≠ 0 → buf.ChargeFits batch cols) := by
  have hcosts := @Checked.pushBatch_ok_iff _ ext cols record batch accs rowNumber buf sent
    (fun _ _ => rfl) hacc
  constructor
  · rintro ⟨hcomputed, hcells⟩
    exact ⟨.of_cells hext h hacc hcells, hcosts.mp hcomputed⟩
  · rintro ⟨hfit, hcharge⟩
    exact ⟨hcosts.mpr hcharge, hfit.cells hext h fun hrows => (hcharge hrows).cells⟩

/-- One column of one decimal. -/
def decimalBatch (scale : Int8) (u : I128) : RecordBatch where
  numRows := 1
  columns := [⟨.decimal128 38 scale [u], none⟩]
  wf := by
    intro a ha
    obtain rfl := List.mem_singleton.mp ha
    exact ⟨rfl, fun bits hbits => by cases hbits⟩

def numericColumn : ColumnInfo := ⟨"N", .numeric 18 2, "DECIMAL(18,2)", none, none, none⟩

theorem buildAccessors_decimalBatch (scale : Int8) (u : I128) :
    buildAccessors .reference (decimalBatch scale u) [numericColumn]
      = .ok [.decimal128 [u] scale] :=
  rfl

/-- A scale of 2. -/
theorem pushBatch_decimal_sample :
    let batch := decimalBatch 2 ⟨12345, by decide⟩
    KeepsDecimals .reference [numericColumn] .new [] 0 batch ↔ DecimalsFit batch [numericColumn] ∧
      (batch.numRows ≠ 0 → EmitBuffer.new.ChargeFits batch [numericColumn]) :=
  pushBatch_decimal Extern.reference_documented EmitBuffer.holds_new 0 _
    (buildAccessors_decimalBatch 2 _)

/-- With a scale of -2 the number 500 is accepted and not written. -/
theorem not_pushBatch_decimal :
    ¬ ∀ ext : Extern, ext.Documented → ∀ cols all buf sent,
      EmitBuffer.Holds ext cols (EmitBuffer.Recorded cols) all buf sent → ∀ rowNumber batch accs,
        buildAccessors ext batch cols = .ok accs →
          KeepsDecimals ext cols buf sent rowNumber batch := by
  intro h
  have hacc := buildAccessors_decimalBatch (-2) ⟨5, by decide⟩
  have hkeeps := h .reference Extern.reference_documented [numericColumn] [] .new []
    EmitBuffer.holds_new 0 _ _ hacc
  have hfit := DecimalsFit.of_cells Extern.reference_documented EmitBuffer.holds_new hacc
    hkeeps.cells
  rcases hfit 0 _ _ 38 (-2) _ 18 2 rfl rfl rfl rfl with hscale | hzero
  · revert hscale
    decide
  · have hfive := hzero 0 (by decide) rfl _ rfl
    revert hfive
    decide

end ExaUdf
