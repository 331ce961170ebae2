import Mathlib.Tactic.Common

/-!
# Programs that call out

A `Prog Op Ans α` either is `done` with a result or calls an operation and goes on with the
answer.  `exec` runs it against a handler that answers each call from a state.

The rules below lift what one call preserves to what a whole program preserves: `exec_invariant`
for a property of the state, `exec_rel` for a relation between the state before and after, and
`exec_sim` for two handlers.
`Reaches` names the points that a run goes through, and `Returns` says what a program returns after
its calls have been answered in a given way.
-/

/-- A program over the operations `Op`, where `op` is answered by an `Ans op`. -/
inductive Prog (Op : Type) (Ans : Op → Type) (α : Type) : Type where
  | done (a : α)
  | call (op : Op) (k : Ans op → Prog Op Ans α)

namespace Prog

variable {Op : Type} {Ans : Op → Type} {α σ : Type}

/-- Run a program, answering each call by `handle`. -/
def exec (handle : (op : Op) → σ → Ans op × σ) : Prog Op Ans α → σ → α × σ
  | done a, s => (a, s)
  | call op k, s => exec handle (k (handle op s).1) (handle op s).2

variable {handle : (op : Op) → σ → Ans op × σ}

@[simp] theorem exec_done (a : α) (s : σ) : exec handle (done a) s = (a, s) := rfl

theorem exec_call (op : Op) (k : Ans op → Prog Op Ans α) (s : σ) :
    exec handle (call op k) s = exec handle (k (handle op s).1) (handle op s).2 := rfl

/-- Run a program, and go on with its result. -/
def bind {β : Type} : Prog Op Ans α → (α → Prog Op Ans β) → Prog Op Ans β
  | done a, f => f a
  | call op k, f => call op fun ans => bind (k ans) f

theorem exec_bind {β : Type} (p : Prog Op Ans α) (f : α → Prog Op Ans β) (s : σ) :
    exec handle (p.bind f) s = exec handle (f (exec handle p s).1) (exec handle p s).2 := by
  induction p generalizing s with
  | done a => rfl
  | call op k ih => exact ih _ _

/-- **Invariant rule**: what every call preserves, every program preserves. -/
theorem exec_invariant (handle : (op : Op) → σ → Ans op × σ) {I : σ → Prop}
    (hcall : ∀ op s, I s → I (handle op s).2) (p : Prog Op Ans α) {s : σ} (h : I s) :
    I (exec handle p s).2 := by
  induction p generalizing s with
  | done a => exact h
  | call op k ih => exact ih _ (hcall op s h)

/-- **Relation rule**: a reflexive and transitive relation that every call respects relates the
states before and after a whole program. -/
theorem exec_rel (handle : (op : Op) → σ → Ans op × σ) {R : σ → σ → Prop} (hrefl : ∀ s, R s s)
    (htrans : ∀ {a b c}, R a b → R b c → R a c) (hcall : ∀ op s, R s (handle op s).2)
    (p : Prog Op Ans α) (s : σ) : R s (exec handle p s).2 := by
  induction p generalizing s with
  | done a => exact hrefl s
  | call op k ih => exact htrans (hcall op s) (ih _ _)

/-- **Simulation rule**: two handlers that answer every call alike, while a relation between what is
left to run and their states is kept, give a program the same result. -/
theorem exec_sim {τ : Type} {handle' : (op : Op) → τ → Ans op × τ}
    {R : Prog Op Ans α → σ → τ → Prop}
    (hcall : ∀ op k s t, R (call op k) s t → (handle op s).1 = (handle' op t).1 ∧
      R (k (handle op s).1) (handle op s).2 (handle' op t).2)
    {p : Prog Op Ans α} {s : σ} {t : τ} (h : R p s t) :
    (exec handle p s).1 = (exec handle' p t).1 ∧
      R (done (exec handle p s).1) (exec handle p s).2 (exec handle' p t).2 := by
  induction p generalizing s t with
  | done a => exact ⟨rfl, h⟩
  | call op k ih =>
    obtain ⟨hans, hrest⟩ := hcall op k s t h
    rw [exec_call, exec_call, ← hans]
    exact ih _ hrest

/-! ### Results -/

/-- After calls that were answered as listed, the program returns `a`. -/
inductive Returns : Prog Op Ans α → List ((op : Op) × Ans op) → α → Prop where
  | done (a : α) : Returns (done a) [] a
  | call {op : Op} {k : Ans op → Prog Op Ans α} {ans : Ans op} {calls : List ((op : Op) × Ans op)}
    {a : α} : Returns (k ans) calls a → Returns (call op k) (⟨op, ans⟩ :: calls) a

/-- **A run returns what its calls make it return**, if the state keeps a journal of them. -/
theorem exec_returns {journal : σ → List ((op : Op) × Ans op)}
    (hjournal : ∀ op s, journal (handle op s).2 = journal s ++ [⟨op, (handle op s).1⟩])
    (p : Prog Op Ans α) (s : σ) :
    ∃ calls, journal (exec handle p s).2 = journal s ++ calls ∧
      p.Returns calls (exec handle p s).1 := by
  induction p generalizing s with
  | done a => exact ⟨[], (List.append_nil _).symm, .done a⟩
  | call op k ih =>
    obtain ⟨calls, hcalls, hreturns⟩ := ih (handle op s).1 (handle op s).2
    refine ⟨⟨op, (handle op s).1⟩ :: calls, ?_, .call hreturns⟩
    rw [exec_call, hcalls, hjournal, List.append_assoc]
    rfl

/-! ### Points of a run -/

/-- Running `p` in state `s` comes to the point where `p'` is left to run in state `s'`. -/
inductive Reaches (handle : (op : Op) → σ → Ans op × σ) :
    Prog Op Ans α → σ → Prog Op Ans α → σ → Prop where
  | refl (p : Prog Op Ans α) (s : σ) : Reaches handle p s p s
  | call {op : Op} {k : Ans op → Prog Op Ans α} {s s' : σ} {p' : Prog Op Ans α} :
    Reaches handle (k (handle op s).1) (handle op s).2 p' s' → Reaches handle (.call op k) s p' s'

/-- Whoever comes to a call of an operation comes to a first one: a property that the other
operations keep holds there. -/
theorem Reaches.first {handle : (op : Op) → σ → Ans op × σ} {I : σ → Prop} {target : Op}
    (hkeep : ∀ op s, op ≠ target → I s → I (handle op s).2) {p : Prog Op Ans α} {s : σ}
    (hstart : I s) {p' : Prog Op Ans α} {s' : σ} (h : Reaches handle p s p' s')
    {k : Ans target → Prog Op Ans α} (hp' : p' = .call target k) :
    ∃ k' s'', Reaches handle p s (.call target k') s'' ∧ I s'' := by
  induction h with
  | refl p s =>
    subst hp'
    exact ⟨k, s, .refl _ _, hstart⟩
  | @call op k₁ s s' p' h ih =>
    by_cases hop : op = target
    · subst hop
      exact ⟨k₁, s, .refl _ _, hstart⟩
    · obtain ⟨k', s'', hreach, hI⟩ := ih (hkeep op s hop hstart) hp'
      exact ⟨k', s'', .call hreach, hI⟩

end Prog
