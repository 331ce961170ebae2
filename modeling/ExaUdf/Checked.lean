import ExaUdf.Text

/-!
# Indexing and arithmetic with the checks of the language

Where the other modules compute with unbounded numbers, a step here panics when an index lies
outside its slice or a result leaves its type, and a cast loses the bits that do not fit.
-/

namespace ExaUdf

namespace Checked

/-- Why a step panics. -/
inductive Panic where
  | outOfBounds
  | overflow
  deriving DecidableEq, Repr

/-- `b[i]`. -/
def index (b : List UInt8) (i : Nat) : Except Panic UInt8 :=
  match b[i]? with
  | some c => .ok c
  | none => .error .outOfBounds

/-- `&b[i..j]`. -/
def range (b : List UInt8) (i j : Nat) : Except Panic (List UInt8) :=
  if i ≤ j ∧ j ≤ b.length then .ok (slice b i j) else .error .outOfBounds

/-- A `u32` step with result `n`. -/
def u32 (n : Nat) : Except Panic Nat :=
  if n < 2 ^ 32 then .ok n else .error .overflow

/-- `m - n` on unsigned numbers. -/
def sub (m n : Nat) : Except Panic Nat :=
  if n ≤ m then .ok (m - n) else .error .overflow

/-- A `usize` step with result `n`. -/
def usize (n : Nat) : Except Panic Nat :=
  if n < 2 ^ 64 then .ok n else .error .overflow

/-- An `i32` step with result `n`. -/
def i32 (n : Int) : Except Panic Int :=
  if -2 ^ 31 ≤ n ∧ n < 2 ^ 31 then .ok n else .error .overflow

/-- An `i64` step with result `n`. -/
def i64 (n : Int) : Except Panic Int :=
  if -2 ^ 63 ≤ n ∧ n < 2 ^ 63 then .ok n else .error .overflow

/-- `n as u32`, which keeps the low 32 bits. -/
def asU32 (n : Int) : Nat :=
  (n % 2 ^ 32).toNat

/-- `n as usize`, which keeps the low 64 bits. -/
def asUsize (n : Int) : Nat :=
  (n % 2 ^ 64).toNat

/-! ### Steps one after the other -/

theorem ok_bind {α β : Type} (a : α) (f : α → Except Panic β) :
    ((Except.ok a : Except Panic α) >>= f) = f a :=
  rfl

theorem bind_eq_ok {α β : Type} {x : Except Panic α} {f : α → Except Panic β} {b : β} :
    (x >>= f) = .ok b ↔ ∃ a, x = .ok a ∧ f a = .ok b := by
  cases x with
  | error e =>
    constructor
    · intro h
      cases h
    · rintro ⟨a, h, -⟩
      cases h
  | ok a =>
    constructor
    · intro h
      exact ⟨a, rfl, h⟩
    · rintro ⟨a', h, hf⟩
      cases h
      exact hf

theorem usize_of_lt {n : Nat} (h : n < 2 ^ 64) : usize n = .ok n :=
  if_pos h

theorem usize_eq_ok {n m : Nat} : usize n = .ok m ↔ m = n ∧ n < 2 ^ 64 := by
  unfold usize
  by_cases h : n < 2 ^ 64
  · rw [if_pos h, Except.ok.injEq, eq_comm]
    exact (and_iff_left h).symm
  · rw [if_neg h]
    constructor
    · intro hok
      cases hok
    · exact fun hlt => absurd hlt.2 h

theorem asU32_eq {n : Int} (h : 0 ≤ n ∧ n < 2 ^ 32) : asU32 n = n.toNat := by
  rw [asU32, Int.emod_eq_of_lt h.1 h.2]

theorem asUsize_eq {n : Int} (h : 0 ≤ n ∧ n < 2 ^ 64) : asUsize n = n.toNat := by
  rw [asUsize, Int.emod_eq_of_lt h.1 h.2]

end Checked

end ExaUdf
