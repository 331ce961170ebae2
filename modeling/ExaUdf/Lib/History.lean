import Mathlib.Tactic.Common

/-!
# Every point of a history

`Always P xs` says that each event of the history `xs` is as `P` says, given what came before it.
`always_concat` is the step and `always_append` the composition of histories.
-/

namespace History

variable {α : Type}

/-- `P before x` holds of each event `x` and the events `before` it. -/
def Always (P : List α → α → Prop) (xs : List α) : Prop :=
  ∀ before x after, xs = before ++ x :: after → P before x

theorem always_nil {P : List α → α → Prop} : Always P [] := by
  intro before x after h
  cases before <;> cases h

/-- **Composition.** -/
theorem always_append {P : List α → α → Prop} {xs ys : List α} :
    Always P (xs ++ ys) ↔ Always P xs ∧ Always (fun before => P (xs ++ before)) ys := by
  constructor
  · intro h
    refine ⟨fun before x after heq => h before x (after ++ ys) ?_,
      fun before x after heq => h (xs ++ before) x after ?_⟩
    · rw [heq, List.append_assoc, List.cons_append]
    · rw [heq, List.append_assoc]
  · rintro ⟨hxs, hys⟩ before x after heq
    rcases List.append_eq_append_iff.mp heq with ⟨mid, rfl, hrest⟩ | ⟨mid, rfl, hrest⟩
    · exact hys mid x after hrest
    · cases mid with
      | nil =>
        have hnext := hys [] x after hrest.symm
        rwa [List.append_nil, List.append_nil] at hnext
      | cons y mid =>
        obtain ⟨rfl, -⟩ := List.cons.inj hrest
        exact hxs before x mid rfl

/-- **Step.** -/
theorem always_concat {P : List α → α → Prop} {xs : List α} {x : α} :
    Always P (xs ++ [x]) ↔ Always P xs ∧ P xs x := by
  rw [always_append]
  refine and_congr_right fun _ => ⟨fun h => ?_, fun h before y after heq => ?_⟩
  · exact List.append_nil xs ▸ h [] x [] rfl
  · cases before with
    | nil =>
      obtain ⟨rfl, -⟩ := List.cons.inj heq
      rwa [List.append_nil]
    | cons z before =>
      obtain ⟨-, hrest⟩ := List.cons.inj heq
      cases before <;> cases hrest

theorem Always.iff {P Q : List α → α → Prop} {xs : List α}
    (h : Always (fun before x => P before x ↔ Q before x) xs) : Always P xs ↔ Always Q xs :=
  ⟨fun hP before x after heq => (h before x after heq).mp (hP before x after heq),
    fun hQ before x after heq => (h before x after heq).mpr (hQ before x after heq)⟩

end History
