import Mathlib.Algebra.GroupWithZero.Nat
import Mathlib.Tactic.Common

/-!
# Batches that end at a threshold

Items with a cost are gathered and handed over together as soon as their costs reach a limit.
`add` is that loop over any receiver, which may refuse a batch; the items of a refused batch are
gone.  `add_rule` is its rule: every batch ends at the limit (`Threshold`), and what has been handed
over and what is left are together the items, in order.  `add_sim` compares two receivers.  `cut` is
the loop with a receiver that keeps all batches.
-/

namespace Batching

variable {α σ τ ε : Type} (limit : Nat) (cost : α → Nat)

def total (xs : List α) : Nat :=
  (xs.map cost).sum

/-- The costs reach the limit with the last item, and not before. -/
def Threshold (xs : List α) : Prop :=
  ∃ before x, xs = before ++ [x] ∧ total cost before < limit ∧
    limit ≤ total cost before + cost x

/-- Add items to those that are waiting, and hand over whenever the costs reach the limit. -/
def add (send : List α → σ → Except ε Unit × σ) :
    List α → List α → σ → Except ε Unit × List α × σ
  | [], waiting, s => (.ok (), waiting, s)
  | x :: xs, waiting, s =>
    if limit ≤ total cost (waiting ++ [x]) then
      match send (waiting ++ [x]) s with
      | (.error e, s) => (.error e, [], s)
      | (.ok (), s) => add send xs [] s
    else add send xs (waiting ++ [x]) s

variable {limit cost}

@[simp] theorem total_nil : total cost ([] : List α) = 0 := rfl

@[simp] theorem total_append (xs ys : List α) :
    total cost (xs ++ ys) = total cost xs + total cost ys := by
  simp [total]

@[simp] theorem total_singleton (x : α) : total cost [x] = cost x :=
  Nat.add_zero (cost x)

/-- An item that stays below the limit is only added. -/
theorem add_of_lt (limit : Nat) (cost : α → Nat) (send : List α → σ → Except ε Unit × σ)
    {waiting : List α} {x : α} (s : σ) (h : total cost waiting + cost x < limit) :
    add limit cost send [x] waiting s = (.ok (), waiting ++ [x], s) := by
  have hbelow : ¬ limit ≤ total cost (waiting ++ [x]) := by
    rw [total_append, total_singleton]
    omega
  unfold add
  rw [if_neg hbelow]
  rfl

/-- **Rule for batches.**  `I done s` says that the items `done` have been handed over, and `F` what
holds once a batch has been refused.  The items that are added are `Q`, and all items are `P`. -/
theorem add_rule (send : List α → σ → Except ε Unit × σ) {I F : List α → σ → Prop}
    {P Q : α → Prop} (hQP : ∀ x, Q x → P x)
    (hsend : ∀ done before x s, Q x → (∀ y ∈ before, P y) → total cost before < limit →
      limit ≤ total cost before + cost x → I done s →
      match send (before ++ [x]) s with
      | (.ok (), s') => I (done ++ (before ++ [x])) s'
      | (.error _, s') => F (done ++ (before ++ [x])) s')
    {xs waiting : List α} (done : List α) {s : σ} (hxs : ∀ x ∈ xs, Q x)
    (hwaiting : ∀ x ∈ waiting, P x) (hbelow : total cost waiting < limit) (h : I done s) :
    match add limit cost send xs waiting s with
    | (.ok (), rest, s') => ∃ done', done' ++ rest = done ++ waiting ++ xs ∧
        total cost rest < limit ∧ (∀ x ∈ rest, P x) ∧ I done' s'
    | (.error _, rest, s') =>
      rest = [] ∧ ∃ taken, taken <+: xs ∧ taken ≠ [] ∧ F (done ++ waiting ++ taken) s' := by
  -- What has been handed over moves into `done` with each flush.
  induction xs generalizing waiting done s with
  | nil => exact ⟨done, (List.append_nil _).symm, hbelow, hwaiting, h⟩
  | cons x xs ih =>
    have hx := hxs x List.mem_cons_self
    have hrest : ∀ y ∈ xs, Q y := fun y hy => hxs y (List.mem_cons_of_mem x hy)
    unfold add
    split_ifs with hfull
    · have hfull' : limit ≤ total cost waiting + cost x := by
        rwa [total_append, total_singleton] at hfull
      have hsent := hsend done waiting x s hx hwaiting hbelow hfull' h
      generalize send (waiting ++ [x]) s = r at hsent
      obtain ⟨e | u, s'⟩ := r
      · refine ⟨rfl, [x], ⟨xs, rfl⟩, List.cons_ne_nil _ _, ?_⟩
        rwa [List.append_assoc]
      -- After a flush nothing waits, which is below any limit that was not reached at once.
      · have hlimit : total cost ([] : List α) < limit := Nat.lt_of_le_of_lt (Nat.zero_le _) hbelow
        have htail := ih _ hrest (fun y hy => absurd hy List.not_mem_nil) hlimit hsent
        dsimp only
        split <;> rename_i hadd <;> rw [hadd] at htail
        · obtain ⟨done', heq, hlt, hP, hI⟩ := htail
          exact ⟨done', by simpa using heq, hlt, hP, hI⟩
        · obtain ⟨rfl, taken, hle, -, hF⟩ := htail
          refine ⟨rfl, x :: taken, List.cons_prefix_cons.mpr ⟨rfl, hle⟩, List.cons_ne_nil _ _, ?_⟩
          simpa using hF
    · have hbelow' : total cost (waiting ++ [x]) < limit := Nat.lt_of_not_le hfull
      have hwaiting' : ∀ y ∈ waiting ++ [x], P y := by
        intro y hy
        rcases List.mem_append.mp hy with hy | hy
        · exact hwaiting y hy
        · exact List.mem_singleton.mp hy ▸ hQP x hx
      have htail := ih _ hrest hwaiting' hbelow' h
      split <;> rename_i hadd <;> rw [hadd] at htail
      · obtain ⟨done', heq, hlt, hP, hI⟩ := htail
        exact ⟨done', by simpa using heq, hlt, hP, hI⟩
      · obtain ⟨rfl, taken, hle, -, hF⟩ := htail
        refine ⟨rfl, x :: taken, List.cons_prefix_cons.mpr ⟨rfl, hle⟩, List.cons_ne_nil _ _, ?_⟩
        simpa using hF

/-- Receivers that answer alike batch alike. -/
theorem add_sim (limit : Nat) (cost : α → Nat) (send : List α → σ → Except ε Unit × σ)
    (send' : List α → τ → Except ε Unit × τ) {S : σ → τ → Prop}
    (hsend : ∀ xs s t, S s t → (send xs s).1 = (send' xs t).1 ∧ S (send xs s).2 (send' xs t).2)
    (xs waiting : List α) {s : σ} {t : τ} (h : S s t) :
    (add limit cost send xs waiting s).1 = (add limit cost send' xs waiting t).1 ∧
      (add limit cost send xs waiting s).2.1 = (add limit cost send' xs waiting t).2.1 ∧
      S (add limit cost send xs waiting s).2.2 (add limit cost send' xs waiting t).2.2 := by
  induction xs generalizing waiting s t with
  | nil => exact ⟨rfl, rfl, h⟩
  | cons x xs ih =>
    unfold add
    split_ifs
    · have hsame := hsend (waiting ++ [x]) s t h
      generalize send (waiting ++ [x]) s = r at hsame
      generalize send' (waiting ++ [x]) t = r' at hsame
      obtain ⟨res, s'⟩ := r
      obtain ⟨res', t'⟩ := r'
      obtain ⟨rfl, hS⟩ := hsame
      cases res with
      | error e => exact ⟨rfl, rfl, hS⟩
      | ok u => exact ih [] hS
    · exact ih _ h

/-! ### Cutting a list into batches -/

/-- Keep every batch. -/
def keep (batch : List α) (batches : List (List α)) : Except Empty Unit × List (List α) :=
  (.ok (), batches ++ [batch])

/-- The items in batches, with what is left over in a last one. -/
def cut (limit : Nat) (cost : α → Nat) (xs : List α) : List (List α) :=
  let r := add limit cost keep xs [] []
  if r.2.1.isEmpty then r.2.2 else r.2.2 ++ [r.2.1]

/-- Each batch but the last reaches the limit, and none does before its last item. -/
structure Cut (limit : Nat) (cost : α → Nat) (batches : List (List α)) : Prop where
  nonempty : ∀ batch ∈ batches, batch ≠ []
  below : ∀ batch ∈ batches, total cost batch.dropLast < limit
  full : ∀ batch ∈ batches.dropLast, limit ≤ total cost batch

theorem Threshold.total_dropLast {xs : List α} (h : Threshold limit cost xs) :
    xs ≠ [] ∧ total cost xs.dropLast < limit ∧ limit ≤ total cost xs := by
  obtain ⟨before, x, rfl, hbelow, hfull⟩ := h
  rw [List.dropLast_concat, total_append, total_singleton]
  exact ⟨List.concat_ne_nil x before, hbelow, hfull⟩

theorem total_dropLast_le (xs : List α) : total cost xs.dropLast ≤ total cost xs := by
  obtain rfl | ⟨before, x, rfl⟩ := List.eq_nil_or_concat xs
  · exact Nat.le_refl _
  · rw [List.concat_eq_append, List.dropLast_concat, total_append]
    exact Nat.le_add_right _ _

theorem Cut.of_threshold {batches : List (List α)} {rest : List α}
    (h : ∀ batch ∈ batches, Threshold limit cost batch) (hrest : total cost rest < limit) :
    Cut limit cost (if rest.isEmpty then batches else batches ++ [rest]) := by
  split_ifs with hempty
  · exact ⟨fun b hb => (h b hb).total_dropLast.1, fun b hb => (h b hb).total_dropLast.2.1,
      fun b hb => (h b (List.dropLast_subset _ hb)).total_dropLast.2.2⟩
  · refine ⟨?_, ?_, ?_⟩
    · intro b hb
      rcases List.mem_append.mp hb with hb | hb
      · exact (h b hb).total_dropLast.1
      · rw [List.mem_singleton.mp hb]
        rintro rfl
        exact hempty rfl
    · intro b hb
      rcases List.mem_append.mp hb with hb | hb
      · exact (h b hb).total_dropLast.2.1
      · rw [List.mem_singleton.mp hb]
        exact Nat.lt_of_le_of_lt (total_dropLast_le rest) hrest
    · rw [List.dropLast_concat]
      exact fun b hb => (h b hb).total_dropLast.2.2

/-- **Cutting** loses nothing. -/
theorem cut_spec (hlimit : 0 < limit) (xs : List α) :
    (cut limit cost xs).flatten = xs ∧ Cut limit cost (cut limit cost xs) := by
  have hadd := @add_rule α (List (List α)) Empty limit cost keep
    (fun done batches => done = batches.flatten ∧ ∀ b ∈ batches, Threshold limit cost b)
    (fun _ _ => False) (fun _ => True) (fun _ => True) (fun _ h => h)
    ?_ xs [] [] [] (fun _ _ => trivial) (fun _ _ => trivial) hlimit
    ⟨rfl, fun b hb => absurd hb List.not_mem_nil⟩
  · unfold cut
    generalize add limit cost keep xs [] [] = r at hadd ⊢
    obtain ⟨e | u, rest, batches⟩ := r
    · exact e.elim
    · obtain ⟨done, hdone, hbelow, -, rfl, hfull⟩ := hadd
      refine ⟨?_, .of_threshold hfull hbelow⟩
      dsimp only
      rw [List.nil_append, List.nil_append] at hdone
      split_ifs with hempty
      · rw [← hdone, List.isEmpty_iff.mp hempty, List.append_nil]
      · rw [← hdone, List.flatten_append, List.flatten_singleton]
  · rintro done before x batches - - hbelow hfull ⟨rfl, hall⟩
    refine ⟨?_, fun b hb => ?_⟩
    · rw [List.flatten_append, List.flatten_singleton]
    · rcases List.mem_append.mp hb with hb | hb
      · exact hall b hb
      · rw [List.mem_singleton.mp hb]
        exact ⟨before, x, rfl, hbelow, hfull⟩

/-- One more item, if the receiver keeps it. -/
theorem add_keep_cons (x : α) (xs waiting : List α) (batches : List (List α)) :
    add limit cost keep (x :: xs) waiting batches
      = if limit ≤ total cost (waiting ++ [x]) then
          add limit cost keep xs [] (batches ++ [waiting ++ [x]])
        else add limit cost keep xs (waiting ++ [x]) batches := by
  rw [add]
  rfl

theorem Cut.map {β : Type} {cost' : β → Nat} {f : α → β} {batches : List (List α)}
    (hf : ∀ b ∈ batches, ∀ x ∈ b, cost' (f x) = cost x) (h : Cut limit cost batches) :
    Cut limit cost' (batches.map (List.map f)) := by
  have htotal : ∀ xs : List α, (∀ x ∈ xs, cost' (f x) = cost x) →
      total cost' (xs.map f) = total cost xs := by
    intro xs hxs
    rw [total, List.map_map]
    exact congrArg List.sum (List.map_congr_left hxs)
  refine ⟨?_, ?_, ?_⟩
  · intro b hb
    obtain ⟨b', hb', rfl⟩ := List.mem_map.mp hb
    exact fun hnil => h.nonempty b' hb' (List.map_eq_nil_iff.mp hnil)
  · intro b hb
    obtain ⟨b', hb', rfl⟩ := List.mem_map.mp hb
    rw [← List.map_dropLast, htotal _ fun x hx => hf b' hb' x (List.dropLast_subset _ hx)]
    exact h.below b' hb'
  · intro b hb
    rw [← List.map_dropLast] at hb
    obtain ⟨b', hb', rfl⟩ := List.mem_map.mp hb
    rw [htotal _ (hf b' (List.dropLast_subset _ hb'))]
    exact h.full b' hb'

end Batching
