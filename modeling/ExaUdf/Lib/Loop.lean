import Mathlib.Tactic.Common

/-!
# Loops with a variant

A `Loop` steps a state to a result or to another state, with a natural number that goes down at
every further round, so that it always ends.  `run` computes by structural recursion on that number.

`run_eq` is the equation of the loop, `run_rule` and `run_elim` its rules for an invariant,
`run_rel` the one for a relation, and `induct` goes over the rounds.
-/

/-- A loop over `σ` with results in `α`. -/
structure Loop (σ α : Type) where
  step : σ → α ⊕ σ
  variant : σ → Nat
  decreases : ∀ s s', step s = .inr s' → variant s' < variant s

namespace Loop

variable {σ α : Type}

/-- At most `n` rounds. -/
def rounds (step : σ → α ⊕ σ) : Nat → σ → Option α
  | 0, _ => none
  | n + 1, s =>
    match step s with
    | .inl a => some a
    | .inr s' => rounds step n s'

theorem rounds_isSome (L : Loop σ α) (n : Nat) (s : σ) (h : L.variant s < n) :
    (rounds L.step n s).isSome = true := by
  induction n generalizing s with
  | zero => exact absurd h (Nat.not_lt_zero _)
  | succ n ih =>
    unfold rounds
    cases hstep : L.step s with
    | inl a => rfl
    | inr s' =>
      have hdec := L.decreases s s' hstep
      exact ih s' (by omega)

/-- The result of the loop. -/
def run (L : Loop σ α) (s : σ) : α :=
  (rounds L.step (L.variant s + 1) s).get (L.rounds_isSome _ s (Nat.lt_succ_self _))

/-- More rounds than needed change nothing. -/
theorem rounds_eq_run (L : Loop σ α) (n : Nat) (s : σ) (h : L.variant s < n) :
    rounds L.step n s = some (L.run s) := by
  have hmono : ∀ (n m : Nat) (s : σ), L.variant s < n → L.variant s < m →
      rounds L.step n s = rounds L.step m s := by
    intro n
    induction n with
    | zero => exact fun m s h => absurd h (Nat.not_lt_zero _)
    | succ n ih =>
      intro m s hn hm
      obtain ⟨m, rfl⟩ : ∃ k, m = k + 1 := ⟨m - 1, by omega⟩
      unfold rounds
      cases hstep : L.step s with
      | inl a => rfl
      | inr s' =>
        have hdec := L.decreases s s' hstep
        exact ih m s' (by omega) (by omega)
  unfold run
  rw [Option.some_get]
  exact hmono n _ s h (Nat.lt_succ_self _)

/-- **The equation of the loop.** -/
theorem run_eq (L : Loop σ α) (s : σ) :
    L.run s = match L.step s with
      | .inl a => a
      | .inr s' => L.run s' := by
  have hrun := L.rounds_eq_run (L.variant s + 1) s (Nat.lt_succ_self _)
  unfold rounds at hrun
  cases hstep : L.step s with
  | inl a =>
    rw [hstep] at hrun
    exact (Option.some.inj hrun).symm
  | inr s' =>
    rw [hstep] at hrun
    have hdec := L.decreases s s' hstep
    exact Option.some.inj (hrun.symm.trans (L.rounds_eq_run _ s' (by omega)))

theorem run_of_inl {L : Loop σ α} {s : σ} {a : α} (h : L.step s = .inl a) : L.run s = a := by
  rw [run_eq, h]

theorem run_of_inr {L : Loop σ α} {s s' : σ} (h : L.step s = .inr s') : L.run s = L.run s' := by
  rw [run_eq, h]

/-- Induction over the rounds of the loop. -/
theorem induct (L : Loop σ α) {motive : σ → Prop}
    (h : ∀ s, (∀ s', L.step s = .inr s' → motive s') → motive s) (s : σ) : motive s := by
  induction hn : L.variant s using Nat.strongRecOn generalizing s with
  | ind n ih => exact h s fun s' hstep => ih _ (hn ▸ L.decreases s s' hstep) s' rfl

/-- **Invariant rule**: what a round keeps until the loop ends holds of its result. -/
theorem run_rule (L : Loop σ α) {P : σ → Prop} {Q : α → Prop}
    (hdone : ∀ s a, P s → L.step s = .inl a → Q a)
    (hnext : ∀ s s', P s → L.step s = .inr s' → P s') {s : σ} (h : P s) : Q (L.run s) := by
  revert h
  induction s using L.induct with
  | _ s ih =>
    intro h
    rw [run_eq]
    cases hstep : L.step s with
    | inl a => exact hdone s a h hstep
    | inr s' => exact ih s' hstep (hnext s s' h hstep)

/-- The invariant rule, for a fact about each round. -/
theorem run_elim (L : Loop σ α) {P : σ → Prop} {Q : α → Prop}
    (hstep : ∀ s, P s → (L.step s).elim Q P) {s : σ} (h : P s) : Q (L.run s) := by
  refine L.run_rule (P := P) (Q := Q) ?_ ?_ h
  · intro s' a hP heq
    have hround := hstep s' hP
    rw [heq] at hround
    exact hround
  · intro s' s'' hP heq
    have hround := hstep s' hP
    rw [heq] at hround
    exact hround

/-- **Relation rule**: a reflexive and transitive relation that every round respects relates the
state before the loop to its result. -/
theorem run_rel (L : Loop σ α) {τ : Type} (view : σ → τ) (out : α → τ) {R : τ → τ → Prop}
    (hrefl : ∀ t, R t t) (htrans : ∀ {a b c}, R a b → R b c → R a c)
    (hstep : ∀ s, R (view s) ((L.step s).elim out view)) (s : σ) : R (view s) (out (L.run s)) := by
  refine L.run_rule (P := fun s' => R (view s) (view s')) (Q := fun a => R (view s) (out a)) ?_ ?_
    (hrefl _)
  · intro s' a hR heq
    have hlast := hstep s'
    rw [heq] at hlast
    exact htrans hR hlast
  · intro s' s'' hR heq
    have hround := hstep s'
    rw [heq] at hround
    exact htrans hR hround

/-- Past its first round a loop respects what every round respects. -/
theorem step_rel (L : Loop σ α) {τ : Type} (view : σ → τ) (out : α → τ) {R : τ → τ → Prop}
    (hrefl : ∀ t, R t t) (htrans : ∀ {a b c}, R a b → R b c → R a c)
    (hstep : ∀ s, R (view s) ((L.step s).elim out view)) (s : σ) :
    R ((L.step s).elim out view) (out (L.run s)) := by
  rw [run_eq]
  cases L.step s with
  | inl a => exact hrefl _
  | inr s' => exact L.run_rel view out hrefl htrans hstep s'

end Loop
