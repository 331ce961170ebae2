import Mathlib.Tactic.Common

/-!
# Matrices as flat lists, row by row

A matrix with `n` columns is the list of its rows' cells, one row after the other: the cell of row
`i` and column `c` is item `i * n + c` (`getElem?_flatMap`).  `setAll` sets a list of positions, and
`setAll_eq_flatMap` is the case of a matrix of bits that is made by setting positions, in whatever
order.
-/

namespace RowMajor

variable {α β : Type}

theorem length_flatMap {f : α → List β} {n : Nat} {xs : List α} (h : ∀ x ∈ xs, (f x).length = n) :
    (xs.flatMap f).length = xs.length * n := by
  induction xs with
  | nil => simp
  | cons x xs ih =>
    rw [List.flatMap_cons, List.length_append, h x List.mem_cons_self,
      ih fun y hy => h y (List.mem_cons_of_mem x hy), List.length_cons, Nat.succ_mul, Nat.add_comm]

/-- **A cell of a matrix.** -/
theorem getElem?_flatMap {f : α → List β} {n : Nat} {xs : List α}
    (h : ∀ x ∈ xs, (f x).length = n) (i : Nat) {c : Nat} (hc : c < n) :
    (xs.flatMap f)[i * n + c]? = xs[i]?.bind fun x => (f x)[c]? := by
  induction xs generalizing i with
  | nil => simp
  | cons x xs ih =>
    have hx := h x List.mem_cons_self
    rw [List.flatMap_cons]
    cases i with
    | zero =>
      rw [List.getElem?_append_left (by omega)]
      simp
    | succ i =>
      have hpos : (i + 1) * n + c = n + (i * n + c) := by rw [Nat.succ_mul]; omega
      rw [List.getElem?_append_right (by omega), hpos, hx, Nat.add_sub_cancel_left,
        ih (fun y hy => h y (List.mem_cons_of_mem x hy))]
      simp

/-- Different cells have different positions. -/
theorem index_inj {n i j c d : Nat} (hc : c < n) (hd : d < n) (h : i * n + c = j * n + d) :
    i = j ∧ c = d := by
  have hi : (i * n + c) / n = i := by
    rw [Nat.add_comm, Nat.add_mul_div_right _ _ (by omega), Nat.div_eq_of_lt hc, Nat.zero_add]
  have hj : (j * n + d) / n = j := by
    rw [Nat.add_comm, Nat.add_mul_div_right _ _ (by omega), Nat.div_eq_of_lt hd, Nat.zero_add]
  rw [h, hj] at hi
  subst hi
  exact ⟨rfl, Nat.add_left_cancel h⟩

/-! ### Setting positions -/

/-- Set the items at the given positions. -/
def setAll (positions : List Nat) (x : α) (xs : List α) : List α :=
  positions.foldl (fun xs k => xs.set k x) xs

@[simp] theorem setAll_nil (x : α) (xs : List α) : setAll [] x xs = xs := rfl

theorem setAll_append (ps qs : List Nat) (x : α) (xs : List α) :
    setAll (ps ++ qs) x xs = setAll qs x (setAll ps x xs) :=
  List.foldl_append

theorem length_setAll (positions : List Nat) (x : α) (xs : List α) :
    (setAll positions x xs).length = xs.length := by
  induction positions generalizing xs with
  | nil => rfl
  | cons k ks ih => exact (ih (xs.set k x)).trans List.length_set

theorem getElem?_setAll (positions : List Nat) (x : α) (xs : List α) {k : Nat}
    (hk : k < xs.length) :
    (setAll positions x xs)[k]? = if k ∈ positions then some x else xs[k]? := by
  induction positions generalizing xs with
  | nil => simp
  | cons j js ih =>
    have hstep := ih (xs.set j x) (by rwa [List.length_set])
    rw [show setAll (j :: js) x xs = setAll js x (xs.set j x) from rfl, hstep]
    by_cases hmem : k ∈ js
    · simp [hmem]
    · by_cases hj : j = k
      · subst hj
        simp [hmem, hk]
      · simp [hmem, List.getElem?_set_ne hj, Ne.symm hj]

/-- **A matrix made by setting positions**: if position `base + i * n + c` is set exactly where row
`i` has a set bit in column `c`, then clearing all bits and setting the positions gives the
matrix. -/
theorem setAll_eq_flatMap {f : α → List Bool} {n : Nat} {xs : List α}
    (h : ∀ x ∈ xs, (f x).length = n) (front : List Bool) (positions : List Nat)
    (hge : ∀ k ∈ positions, front.length ≤ k)
    (hset : ∀ i c x, c < n → xs[i]? = some x →
      (front.length + (i * n + c) ∈ positions ↔ (f x)[c]? = some true)) :
    setAll positions true (front ++ List.replicate (xs.length * n) false)
      = front ++ xs.flatMap f := by
  apply List.ext_getElem?
  intro k
  -- Positions before the matrix, in it, and after it.
  by_cases hk : k < front.length
  · have hmem : k ∉ positions := fun hmem => Nat.not_le_of_lt hk (hge k hmem)
    rw [getElem?_setAll _ _ _ (by rw [List.length_append]; omega), if_neg hmem,
      List.getElem?_append_left hk, List.getElem?_append_left hk]
  · obtain ⟨j, rfl⟩ := Nat.exists_eq_add_of_le (Nat.le_of_not_lt hk)
    rw [List.getElem?_append_right (by omega), Nat.add_sub_cancel_left]
    by_cases hj : j < xs.length * n
    · -- Position `j` of the matrix is row `j / n`, column `j % n`.
      have hn : 0 < n := Nat.pos_of_mul_pos_left (Nat.zero_lt_of_lt hj)
      have hc : j % n < n := Nat.mod_lt j hn
      have hi : j / n < xs.length := Nat.div_lt_of_lt_mul (by rwa [Nat.mul_comm])
      have hj' : j / n * n + j % n = j := Nat.div_add_mod' j n
      have hx : xs[j / n]? = some xs[j / n] := List.getElem?_eq_getElem hi
      have hcell := getElem?_flatMap h (j / n) hc
      have hlen : j % n < (f xs[j / n]).length := by rwa [h _ (List.getElem_mem hi)]
      rw [hx, Option.bind_some, hj'] at hcell
      have hiff := hset (j / n) (j % n) _ hc hx
      rw [hj'] at hiff
      rw [getElem?_setAll _ _ _ (by simp; omega), hcell,
        List.getElem?_append_right (by omega), Nat.add_sub_cancel_left,
        List.getElem?_replicate, if_pos hj]
      by_cases hbit : (f xs[j / n])[j % n]? = some true
      · rw [if_pos (hiff.mpr hbit), hbit]
      · rw [if_neg (mt hiff.mp hbit)]
        rw [List.getElem?_eq_getElem hlen] at hbit ⊢
        simpa using hbit
    · rw [List.getElem?_eq_none (by rw [length_setAll]; simp; omega),
        List.getElem?_eq_none (by rw [length_flatMap h]; omega)]

end RowMajor
