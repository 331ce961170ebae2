import Mathlib.Data.List.Induction
import Mathlib.Data.Nat.Digits.Lemmas
import Mathlib.Tactic.Ring

/-!
# Decimal digits in ASCII

`render n` is the shortest decimal form of `n`, `padded w n` its last `w` digits with leading
zeros, `padStart` what a formatter does with a width, `value` the number a run of digits stands for.
`value_render` and `value_padded` are the two round trips, and a run of digits is known from its
length and its value (`eq_of_value_eq`).

`parseInt` reads a signed decimal number into a range the way a checked accumulator does: an
optional sign, at least one digit, an error as soon as a step leaves the range.  `parseInt_eq_ok`:
it succeeds exactly on the `Signed` numbers in range, whatever leading zeros they have.
-/

namespace Digits

/-- `b` is one of `'0'` to `'9'`. -/
def isDigit (b : UInt8) : Bool :=
  48 ≤ b.toNat && b.toNat ≤ 57

/-- The ASCII digit `d`, for `d < 10`. -/
def digit (d : Nat) : UInt8 :=
  UInt8.ofNat (48 + d)

/-- The decimal form of `n` without leading zeros. -/
def render (n : Nat) : List UInt8 :=
  if n = 0 then [digit 0] else (Nat.digits 10 n).reverse.map digit

/-- The last `w` decimal digits of `n`. -/
def padded : Nat → Nat → List UInt8
  | 0, _ => []
  | w + 1, n => padded w (n / 10) ++ [digit (n % 10)]

/-- The decimal form of an integer, with a minus sign where it is negative. -/
def renderInt (n : Int) : List UInt8 :=
  (if n < 0 then [45] else []) ++ render n.natAbs

/-- `bs` with zeros in front of it, at least `w` bytes wide. -/
def padStart (w : Nat) (bs : List UInt8) : List UInt8 :=
  List.replicate (w - bs.length) (digit 0) ++ bs

/-- The number the digits `bs` stand for. -/
def value (bs : List UInt8) : Nat :=
  bs.foldl (fun v b => 10 * v + (b.toNat - 48)) 0

/-! ### Digits -/

theorem digit_toNat {d : Nat} (h : d < 10) : (digit d).toNat = 48 + d := by
  rw [digit, UInt8.toNat_ofNat']
  omega

theorem isDigit_digit {d : Nat} (h : d < 10) : isDigit (digit d) = true := by
  rw [isDigit, digit_toNat h]
  simp only [Bool.and_eq_true, decide_eq_true_eq]
  omega

theorem isDigit_iff {b : UInt8} : isDigit b = true ↔ 48 ≤ b.toNat ∧ b.toNat ≤ 57 := by
  simp [isDigit]

/-! ### Values -/

@[simp] theorem value_nil : value [] = 0 := rfl

theorem value_append_singleton (bs : List UInt8) (b : UInt8) :
    value (bs ++ [b]) = 10 * value bs + (b.toNat - 48) := by
  simp [value]

theorem value_append_digit (bs : List UInt8) {d : Nat} (h : d < 10) :
    value (bs ++ [digit d]) = 10 * value bs + d := by
  rw [value_append_singleton, digit_toNat h, Nat.add_sub_cancel_left]

theorem value_append (as bs : List UInt8) :
    value (as ++ bs) = value as * 10 ^ bs.length + value bs := by
  induction bs using List.reverseRecOn with
  | nil => simp
  | append_singleton bs b ih =>
    rw [← List.append_assoc, value_append_singleton, value_append_singleton, ih,
      List.length_append, List.length_singleton, pow_succ]
    ring

theorem value_zeros (k : Nat) : value (List.replicate k (digit 0)) = 0 := by
  induction k with
  | zero => rfl
  | succ k ih =>
    rw [List.replicate_succ', value_append_digit _ (by omega), ih]

theorem value_map_reverse (ds : List Nat) (h : ∀ d ∈ ds, d < 10) :
    value (ds.reverse.map digit) = Nat.ofDigits 10 ds := by
  induction ds with
  | nil => rfl
  | cons d ds ih =>
    rw [List.reverse_cons, List.map_append, List.map_singleton,
      value_append_digit _ (h d List.mem_cons_self), ih fun e he => h e (List.mem_cons_of_mem d he),
      Nat.ofDigits_cons, Nat.add_comm]

/-- **Round trip**: the decimal form of `n` stands for `n`. -/
theorem value_render (n : Nat) : value (render n) = n := by
  rw [render]
  split_ifs with h
  · subst h; rfl
  · rw [value_map_reverse _ fun d hd => Nat.digits_lt_base (by omega) hd, Nat.ofDigits_digits]

theorem isDigit_of_mem_render {n : Nat} {b : UInt8} (h : b ∈ render n) : isDigit b = true := by
  rw [render] at h
  split_ifs at h with hn
  · rw [List.mem_singleton.mp h]
    exact isDigit_digit (by omega)
  · obtain ⟨d, hd, rfl⟩ := List.mem_map.mp h
    exact isDigit_digit (Nat.digits_lt_base (by omega) (List.mem_reverse.mp hd))

theorem render_ne_nil (n : Nat) : render n ≠ [] := by
  rw [render]
  split_ifs with h
  · simp
  · simpa [Nat.digits_eq_nil_iff_eq_zero] using h

@[simp] theorem padded_length (w n : Nat) : (padded w n).length = w := by
  induction w generalizing n with
  | zero => rfl
  | succ w ih => rw [padded, List.length_append, ih, List.length_singleton]

theorem isDigit_of_mem_padded {w n : Nat} {b : UInt8} (h : b ∈ padded w n) :
    isDigit b = true := by
  induction w generalizing n with
  | zero => simp [padded] at h
  | succ w ih =>
    rw [padded, List.mem_append, List.mem_singleton] at h
    obtain h | rfl := h
    · exact ih h
    · exact isDigit_digit (by omega)

/-- **Round trip**: a padded field stands for `n`, as far as its digits reach. -/
theorem value_padded (w n : Nat) : value (padded w n) = n % 10 ^ w := by
  induction w generalizing n with
  | zero => simp [padded, Nat.mod_one]
  | succ w ih =>
    have hmod : n % 10 ^ (w + 1) = n % 10 + 10 * (n / 10 % 10 ^ w) := by
      rw [pow_succ, Nat.mul_comm, Nat.mod_mul]
    rw [padded, value_append_digit _ (by omega), ih, hmod, Nat.add_comm]

theorem value_padded_of_lt {w n : Nat} (h : n < 10 ^ w) : value (padded w n) = n := by
  rw [value_padded, Nat.mod_eq_of_lt h]

theorem value_cons (b : UInt8) (bs : List UInt8) :
    value (b :: bs) = (b.toNat - 48) * 10 ^ bs.length + value bs := by
  rw [← List.singleton_append, value_append]
  simp [value]

theorem value_lt {bs : List UInt8} (h : ∀ b ∈ bs, isDigit b = true) :
    value bs < 10 ^ bs.length := by
  induction bs with
  | nil => exact Nat.one_pos
  | cons b bs ih =>
    have hb := isDigit_iff.mp (h b List.mem_cons_self)
    have hbs := ih fun c hc => h c (List.mem_cons_of_mem b hc)
    have hle : (b.toNat - 48) * 10 ^ bs.length ≤ 9 * 10 ^ bs.length :=
      Nat.mul_le_mul_right _ (by omega)
    rw [value_cons, List.length_cons, pow_succ]
    omega

/-- **Injectivity**: as many digits with the same value are the same digits. -/
theorem eq_of_value_eq {as bs : List UInt8} (hlen : as.length = bs.length)
    (ha : ∀ b ∈ as, isDigit b = true) (hb : ∀ b ∈ bs, isDigit b = true)
    (h : value as = value bs) : as = bs := by
  induction as generalizing bs with
  | nil => exact (List.length_eq_zero_iff.mp hlen.symm).symm
  | cons a as ih =>
    obtain - | ⟨b, bs⟩ := bs
    · cases hlen
    · have hlen' : as.length = bs.length := Nat.succ.inj hlen
      have hdigitA := isDigit_iff.mp (ha a List.mem_cons_self)
      have hdigitB := isDigit_iff.mp (hb b List.mem_cons_self)
      have hrestA := fun c hc => ha c (List.mem_cons_of_mem a hc)
      have hrestB := fun c hc => hb c (List.mem_cons_of_mem b hc)
      have hltA := value_lt hrestA
      have hltB := value_lt hrestB
      rw [value_cons, value_cons, hlen'] at h
      rw [hlen'] at hltA
      -- The leading digit is the quotient by the power of ten, the rest is the remainder.
      have hpos : 0 < 10 ^ bs.length := Nat.pow_pos (by omega)
      have hquot := congrArg (· / 10 ^ bs.length) h
      simp only [Nat.mul_comm _ (10 ^ bs.length), Nat.mul_add_div hpos,
        Nat.div_eq_of_lt hltA, Nat.div_eq_of_lt hltB, Nat.add_zero] at hquot
      rw [hquot] at h
      rw [ih hlen' hrestA hrestB (Nat.add_left_cancel h),
        UInt8.toNat_inj.mp (show a.toNat = b.toNat by omega)]

theorem render_length_le {n w : Nat} (hw : 0 < w) (h : n < 10 ^ w) : (render n).length ≤ w := by
  rw [render]
  split_ifs with hn
  · exact hw
  · rw [List.length_map, List.length_reverse]
    exact (Nat.digits_length_le_iff (by omega) n).mpr h

theorem isDigit_of_mem_padStart {w : Nat} {bs : List UInt8} (h : ∀ b ∈ bs, isDigit b = true) :
    ∀ b ∈ padStart w bs, isDigit b = true := by
  intro b hb
  rw [padStart, List.mem_append] at hb
  obtain hb | hb := hb
  · rw [List.eq_of_mem_replicate hb]
    exact isDigit_digit (by omega)
  · exact h b hb

theorem value_padStart (w : Nat) (bs : List UInt8) : value (padStart w bs) = value bs := by
  rw [padStart, value_append, value_zeros, Nat.zero_mul, Nat.zero_add]

theorem padStart_length {w : Nat} {bs : List UInt8} (h : bs.length ≤ w) :
    (padStart w bs).length = w := by
  rw [padStart, List.length_append, List.length_replicate]
  omega

/-- A field as wide as its number needs is the number, padded with zeros. -/
theorem padded_eq_padStart {w n : Nat} (hw : 0 < w) (h : n < 10 ^ w) :
    padded w n = padStart w (render n) := by
  apply eq_of_value_eq
  · rw [padded_length, padStart_length (render_length_le hw h)]
  · exact fun _ => isDigit_of_mem_padded
  · exact isDigit_of_mem_padStart fun _ => isDigit_of_mem_render
  · rw [value_padded_of_lt h, value_padStart, value_render]

/-! ### Checked parsing -/

/-- Why a decimal number did not parse. -/
inductive ParseError where
  | empty
  | invalidDigit
  | posOverflow
  | negOverflow
  deriving DecidableEq, Repr

/-- Fold digits into `acc`, adding each with `sign`, and stop where the range `lo..=hi` is left. -/
def accumulate (lo hi sign : Int) (overflow : ParseError) : Int → List UInt8 → Except ParseError Int
  | acc, [] => .ok acc
  | acc, b :: bs =>
    if !isDigit b then .error .invalidDigit
    else
      let scaled := acc * 10
      let next := scaled + sign * ((b.toNat - 48 : Nat) : Int)
      if lo ≤ scaled ∧ scaled ≤ hi ∧ lo ≤ next ∧ next ≤ hi then
        accumulate lo hi sign overflow next bs
      else .error overflow

/-- Read a decimal number in `lo..=hi` with an optional sign. -/
def parseInt (lo hi : Int) : List UInt8 → Except ParseError Int
  | [] => .error .empty
  | [43] => .error .invalidDigit
  | [45] => .error .invalidDigit
  | 43 :: bs => accumulate lo hi 1 .posOverflow 0 bs
  | 45 :: bs => accumulate lo hi (-1) .negOverflow 0 bs
  | bs => accumulate lo hi 1 .posOverflow 0 bs

/-- The accumulator passes through `sign * n` with `n` growing, so the last step decides. -/
theorem accumulate_digits {lo hi sign : Int} (overflow : ParseError)
    (hsign : sign = 1 ∨ sign = -1) (hlo : lo ≤ 0) (hhi : 0 ≤ hi) (bs : List UInt8)
    (hbs : ∀ b ∈ bs, isDigit b = true) (n : Nat)
    (hfit : lo ≤ sign * ((n * 10 ^ bs.length + value bs : Nat) : Int) ∧
      sign * ((n * 10 ^ bs.length + value bs : Nat) : Int) ≤ hi) :
    accumulate lo hi sign overflow (sign * n) bs
      = .ok (sign * ((n * 10 ^ bs.length + value bs : Nat) : Int)) := by
  induction bs generalizing n with
  | nil => simp [accumulate]
  | cons b bs ih =>
    have hb := hbs b List.mem_cons_self
    have hstep : n * 10 ^ (b :: bs).length + value (b :: bs)
        = (10 * n + (b.toNat - 48)) * 10 ^ bs.length + value bs := by
      rw [value_cons, List.length_cons, pow_succ]
      ring
    rw [hstep] at hfit ⊢
    have hpow : 1 ≤ 10 ^ bs.length := Nat.one_le_pow _ _ (by omega)
    have hle : 10 * n + (b.toNat - 48) ≤ (10 * n + (b.toNat - 48)) * 10 ^ bs.length :=
      Nat.le_mul_of_pos_right _ hpow
    have hnext : sign * n * 10 + sign * ((b.toNat - 48 : Nat) : Int)
        = sign * ((10 * n + (b.toNat - 48) : Nat) : Int) := by
      push_cast
      ring
    have hscaled : sign * (n : Int) * 10 = sign * ((10 * n : Nat) : Int) := by
      push_cast
      ring
    have hrange : lo ≤ sign * ((10 * n : Nat) : Int) ∧ sign * ((10 * n : Nat) : Int) ≤ hi ∧
        lo ≤ sign * ((10 * n + (b.toNat - 48) : Nat) : Int) ∧
        sign * ((10 * n + (b.toNat - 48) : Nat) : Int) ≤ hi := by
      obtain rfl | rfl := hsign <;> omega
    rw [accumulate, hb]
    simp only [Bool.not_true, Bool.false_eq_true, if_false]
    rw [hnext, hscaled, if_pos hrange]
    exact ih (fun c hc => hbs c (List.mem_cons_of_mem b hc)) _ hfit

theorem accumulate_zero {lo hi sign : Int} (overflow : ParseError)
    (hsign : sign = 1 ∨ sign = -1) (hlo : lo ≤ 0) (hhi : 0 ≤ hi) {bs : List UInt8}
    (hbs : ∀ b ∈ bs, isDigit b = true)
    (hfit : lo ≤ sign * value bs ∧ sign * value bs ≤ hi) :
    accumulate lo hi sign overflow 0 bs = .ok (sign * value bs) := by
  have h := accumulate_digits overflow hsign hlo hhi bs hbs 0 (by simpa using hfit)
  simpa using h

theorem accumulate_mem_range {lo hi sign : Int} {overflow : ParseError} {bs : List UInt8}
    {acc n : Int} (hacc : lo ≤ acc ∧ acc ≤ hi)
    (h : accumulate lo hi sign overflow acc bs = .ok n) : lo ≤ n ∧ n ≤ hi := by
  induction bs generalizing acc with
  | nil =>
    rw [accumulate] at h
    obtain rfl := Except.ok.inj h
    exact hacc
  | cons b bs ih =>
    rw [accumulate] at h
    split at h
    · cases h
    · dsimp only at h
      split at h
      · rename_i hrange
        exact ih ⟨hrange.2.2.1, hrange.2.2.2⟩ h
      · cases h

/-- What parses is in range. -/
theorem parseInt_mem_range {lo hi : Int} (hlo : lo ≤ 0) (hhi : 0 ≤ hi) {bs : List UInt8} {n : Int}
    (h : parseInt lo hi bs = .ok n) : lo ≤ n ∧ n ≤ hi := by
  unfold parseInt at h
  split at h
  · cases h
  · cases h
  · cases h
  · exact accumulate_mem_range ⟨hlo, hhi⟩ h
  · exact accumulate_mem_range ⟨hlo, hhi⟩ h
  · exact accumulate_mem_range ⟨hlo, hhi⟩ h

/-- Digits without a sign parse to their value. -/
theorem parseInt_digits {lo hi : Int} (hlo : lo ≤ 0) {bs : List UInt8} (hne : bs ≠ [])
    (hbs : ∀ b ∈ bs, isDigit b = true) (hfit : (value bs : Int) ≤ hi) :
    parseInt lo hi bs = .ok (value bs) := by
  obtain ⟨b, rest, rfl⟩ := List.exists_cons_of_ne_nil hne
  have hb := isDigit_iff.mp (hbs b List.mem_cons_self)
  have hplus : b ≠ 43 := by rintro rfl; simp at hb
  have hminus : b ≠ 45 := by rintro rfl; simp at hb
  have hfit : lo ≤ 1 * (value (b :: rest) : Int) ∧ 1 * (value (b :: rest) : Int) ≤ hi := by omega
  have hacc := accumulate_zero .posOverflow (.inl rfl) hlo (by omega) hbs hfit
  rw [one_mul] at hacc
  rw [← hacc]
  unfold parseInt
  split <;> simp_all

/-- Digits after a minus sign parse to the negated value. -/
theorem parseInt_neg_digits {lo hi : Int} (hhi : 0 ≤ hi) {bs : List UInt8} (hne : bs ≠ [])
    (hbs : ∀ b ∈ bs, isDigit b = true) (hfit : lo ≤ -(value bs : Int)) :
    parseInt lo hi (45 :: bs) = .ok (-(value bs : Int)) := by
  obtain ⟨b, rest, rfl⟩ := List.exists_cons_of_ne_nil hne
  have hfit : lo ≤ -1 * (value (b :: rest) : Int) ∧ -1 * (value (b :: rest) : Int) ≤ hi := by omega
  have hacc := accumulate_zero .negOverflow (.inr rfl) (by omega) hhi hbs hfit
  rw [neg_one_mul] at hacc
  rw [← hacc]
  rfl

/-- Digits after a plus sign parse to their value. -/
theorem parseInt_plus_digits {lo hi : Int} (hlo : lo ≤ 0) {bs : List UInt8} (hne : bs ≠ [])
    (hbs : ∀ b ∈ bs, isDigit b = true) (hfit : (value bs : Int) ≤ hi) :
    parseInt lo hi (43 :: bs) = .ok (value bs) := by
  obtain ⟨b, rest, rfl⟩ := List.exists_cons_of_ne_nil hne
  have hfit : lo ≤ 1 * (value (b :: rest) : Int) ∧ 1 * (value (b :: rest) : Int) ≤ hi := by omega
  have hacc := accumulate_zero .posOverflow (.inl rfl) hlo (by omega) hbs hfit
  rw [one_mul] at hacc
  rw [← hacc]
  rfl

/-- What the accumulator accepts is digits, and its result is what they stand for. -/
theorem accumulate_ok {lo hi sign : Int} {overflow : ParseError} {bs : List UInt8} {m : Nat}
    {n : Int} (h : accumulate lo hi sign overflow (sign * m) bs = .ok n) :
    (∀ b ∈ bs, isDigit b = true) ∧ n = sign * ((m * 10 ^ bs.length + value bs : Nat) : Int) := by
  induction bs generalizing m with
  | nil =>
    rw [accumulate] at h
    obtain rfl := Except.ok.inj h
    simp
  | cons b bs ih =>
    rw [accumulate] at h
    split at h
    · cases h
    · rename_i hb
      rw [Bool.not_eq_true, Bool.not_eq_false'] at hb
      dsimp only at h
      split at h
      · have hnext : sign * m * 10 + sign * ((b.toNat - 48 : Nat) : Int)
            = sign * ((10 * m + (b.toNat - 48) : Nat) : Int) := by
          push_cast
          ring
        rw [hnext] at h
        obtain ⟨hbs, hn⟩ := ih h
        refine ⟨?_, ?_⟩
        · intro c hc
          obtain rfl | hc := List.mem_cons.mp hc
          · exact hb
          · exact hbs c hc
        · rw [hn, value_cons, List.length_cons, pow_succ]
          congr 2
          ring
      · cases h

theorem accumulate_zero_ok {lo hi sign : Int} {overflow : ParseError} {bs : List UInt8} {n : Int}
    (h : accumulate lo hi sign overflow 0 bs = .ok n) :
    (∀ b ∈ bs, isDigit b = true) ∧ n = sign * (value bs : Int) := by
  have hzero : (0 : Int) = sign * ((0 : Nat) : Int) := by simp
  rw [hzero] at h
  simpa using accumulate_ok h

/-- A number may have one of these in front of its digits. -/
def signs : List (List UInt8) := [[], [43], [45]]

/-- The number with sign `sign` and magnitude `v`. -/
def signed (sign : List UInt8) (v : Nat) : Int :=
  if sign = [45] then -(v : Int) else v

/-- `bs` is an optional sign and at least one digit, and stands for `n`. -/
def Signed (bs : List UInt8) (n : Int) : Prop :=
  ∃ sign ∈ signs, ∃ ds, ds ≠ [] ∧ (∀ b ∈ ds, isDigit b = true) ∧ bs = sign ++ ds ∧
    n = signed sign (value ds)

/-- **What parses** is exactly the signed numbers in range. -/
theorem parseInt_eq_ok {lo hi : Int} (hlo : lo ≤ 0) (hhi : 0 ≤ hi) {bs : List UInt8} {n : Int} :
    parseInt lo hi bs = .ok n ↔ Signed bs n ∧ lo ≤ n ∧ n ≤ hi := by
  constructor
  · intro h
    refine ⟨?_, parseInt_mem_range hlo hhi h⟩
    unfold parseInt at h
    split at h
    · cases h
    · cases h
    · cases h
    · rename_i ds hnil
      obtain ⟨hds, hn⟩ := accumulate_zero_ok h
      refine ⟨[43], by decide, ds, ?_, hds, rfl, ?_⟩
      · rintro rfl
        exact hnil rfl
      · rw [hn, one_mul]
        rfl
    · rename_i ds hnil
      obtain ⟨hds, hn⟩ := accumulate_zero_ok h
      refine ⟨[45], by decide, ds, ?_, hds, rfl, ?_⟩
      · rintro rfl
        exact hnil rfl
      · rw [hn, neg_one_mul]
        rfl
    · rename_i hnil _ _ _ _
      obtain ⟨hds, hn⟩ := accumulate_zero_ok h
      refine ⟨[], by decide, bs, hnil, hds, rfl, ?_⟩
      rw [hn, one_mul]
      rfl
  · rintro ⟨⟨sign, hsign, ds, hne, hds, rfl, rfl⟩, hrange⟩
    simp only [signs, List.mem_cons, List.not_mem_nil, or_false] at hsign
    obtain rfl | rfl | rfl := hsign
    · exact parseInt_digits hlo hne hds hrange.2
    · exact parseInt_plus_digits hlo hne hds hrange.2
    · exact parseInt_neg_digits hhi hne hds hrange.1

/-- A text stands for one number. -/
theorem Signed.unique {bs : List UInt8} {n m : Int} (hn : Signed bs n) (hm : Signed bs m) :
    n = m := by
  have hparse : ∀ k, Signed bs k → k = n ∨ k = m →
      parseInt (-(n.natAbs + m.natAbs)) (n.natAbs + m.natAbs) bs = .ok k := by
    intro k hk hor
    rw [parseInt_eq_ok (by omega) (by omega)]
    exact ⟨hk, by omega⟩
  exact Except.ok.inj ((hparse n hn (.inl rfl)).symm.trans (hparse m hm (.inr rfl)))

end Digits
