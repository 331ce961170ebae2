import Mathlib.Data.List.DropRight
import Mathlib.Data.List.TakeWhile
import Mathlib.Tactic.Common

/-!
# Searches in noisy lists

`Search.first` is the first value that a list reads as.  A list is `Thinned` if some of its noise
is taken out.  `first_thinned_iff`: a reader that also reads noise finds what it should find, in a
list and however that list is thinned, exactly if it reads nothing else before the right place.

The second part is about trimming at both ends (`trimming_comm`) and at one end by several
predicates (`rdropWhile_of_imp`).
-/

namespace Search

variable {α β : Type}

/-! ### Thinning -/

/-- The second list is the first one without some of its `noise`. -/
inductive Thinned (noise : α → Prop) : List α → List α → Prop
  | nil : Thinned noise [] []
  | keep (a : α) {as bs : List α} (h : Thinned noise as bs) : Thinned noise (a :: as) (a :: bs)
  | drop {a : α} {as bs : List α} (ha : noise a) (h : Thinned noise as bs) :
    Thinned noise (a :: as) bs

theorem Thinned.refl (noise : α → Prop) (as : List α) : Thinned noise as as := by
  induction as with
  | nil => exact .nil
  | cons a as ih => exact .keep a ih

theorem Thinned.subset {noise : α → Prop} {as bs : List α} (h : Thinned noise as bs) :
    bs ⊆ as := by
  induction h with
  | nil => exact List.Subset.refl []
  | keep a _ ih => exact List.cons_subset_cons a ih
  | drop _ _ ih => exact List.subset_cons_of_subset _ ih

/-- What reads as nothing does not matter. -/
theorem Thinned.findSome?_eq {noise : α → Prop} {read : α → Option β}
    (hread : ∀ a, noise a → read a = none) {as bs : List α} (h : Thinned noise as bs) :
    bs.findSome? read = as.findSome? read := by
  induction h with
  | nil => rfl
  | keep a _ ih => rw [List.findSome?_cons, List.findSome?_cons, ih]
  | drop ha _ ih => rw [List.findSome?_cons, hread _ ha, ih]

/-! ### The first value -/

/-- The first value that is read. -/
def first (default : β) (read : α → Option β) (as : List α) : β :=
  (as.findSome? read).getD default

theorem first_cons_some {default : β} {read : α → Option β} {a : α} {b : β}
    (h : read a = some b) (as : List α) : first default read (a :: as) = b := by
  rw [first, List.findSome?_cons, h]
  rfl

theorem first_cons_none {default : β} {read : α → Option β} {a : α} (h : read a = none)
    (as : List α) : first default read (a :: as) = first default read as := by
  rw [first, List.findSome?_cons, h, first]

/-- An optional value is its own default. -/
theorem first_map_some (read : α → Option β) (as : List α) :
    first none (fun a => (read a).map some) as = as.findSome? read := by
  induction as with
  | nil => rfl
  | cons a as ih =>
    rw [List.findSome?_cons]
    cases h : read a with
    | none => rw [first_cons_none (by rw [h, Option.map_none]), ih]
    | some b => rw [first_cons_some (by rw [h, Option.map_some])]

theorem first_append_cons {default : β} {read : α → Option β} {before : List α}
    (hbefore : ∀ c ∈ before, read c = none) {a : α} {b : β} (h : read a = some b)
    (after : List α) : first default read (before ++ a :: after) = b := by
  induction before with
  | nil => exact first_cons_some h after
  | cons c before ih =>
    obtain ⟨hc, hbefore⟩ := List.forall_mem_cons.mp hbefore
    rw [List.cons_append, first_cons_none hc, ih hbefore]

/-- The first value is one that is read, or the default. -/
theorem first_eq_iff {default : β} {read : α → Option β} {as : List α} {b : β} :
    first default read as = b ↔
      (∃ before a after, as = before ++ a :: after ∧ read a = some b ∧
        ∀ c ∈ before, read c = none) ∨
      (∀ a ∈ as, read a = none) ∧ b = default := by
  rw [← List.findSome?_eq_some_iff, ← List.findSome?_eq_none_iff, first]
  cases as.findSome? read with
  | none => simp [eq_comm]
  | some c => simp

section

variable {noise : α → Prop} {default : β} {read spec : α → Option β}

/-- Before the first right place a reader may only read what is found there. -/
def Undisturbed (default : β) (read spec : α → Option β) (as : List α) : Prop :=
  ∀ before a after, as = before ++ a :: after → (∀ c ∈ before, spec c = none) →
    ∀ b, read a = some b → first default spec as = b

theorem Undisturbed.tail {a : α} {as : List α} (ha : spec a = none)
    (h : Undisturbed default read spec (a :: as)) : Undisturbed default read spec as := by
  intro before c after heq hbefore b hc
  have hfirst := h (a :: before) c after (by rw [heq, List.cons_append])
    (List.forall_mem_cons.mpr ⟨ha, hbefore⟩) b hc
  rwa [first_cons_none ha] at hfirst

/-- An undisturbed reader finds the right value, whatever noise is taken out. -/
theorem Undisturbed.first_eq (hnoise : ∀ a, noise a → spec a = none)
    (hspec : ∀ a, read a = none → spec a = none) {as bs : List α} (hthin : Thinned noise as bs)
    (h : Undisturbed default read spec as) : first default read bs = first default spec as := by
  induction hthin with
  | nil => rfl
  | @keep a as bs _ ih =>
    have hhead : ∀ b, read a = some b → first default spec (a :: as) = b :=
      h [] a as rfl (by simp)
    cases hread : read a with
    | some b => rw [first_cons_some hread, hhead b hread]
    | none =>
      have ha := hspec a hread
      rw [first_cons_none hread, first_cons_none ha, ih (h.tail ha)]
  | @drop a as bs ha _ ih =>
    rw [first_cons_none (hnoise a ha), ih (h.tail (hnoise a ha))]

/-- **Searches that noise does not disturb**: exactly if nothing else is read before the right
place. -/
theorem first_thinned_iff (hnoise : ∀ a, noise a → spec a = none)
    (hspec : ∀ a, read a = none → spec a = none)
    (hvalue : ∀ a b, ¬ noise a → spec a = none → read a = some b →
      b ≠ default ∧ ∀ c, spec c ≠ some b) (as : List α) :
    (∀ bs, Thinned noise as bs → first default read bs = first default spec as) ↔
      Undisturbed default read spec as := by
  refine ⟨fun h => ?_, fun h bs hthin => h.first_eq hnoise hspec hthin⟩
  induction as with
  | nil =>
    intro before a after heq
    simp at heq
  | cons c as ih =>
    intro before a after heq hbefore b hb
    cases before with
    | nil =>
      rw [List.nil_append, List.cons.injEq] at heq
      rw [← h _ (.refl noise _), first_cons_some (heq.1 ▸ hb)]
    | cons d before =>
      rw [List.cons_append, List.cons.injEq] at heq
      obtain ⟨rfl, heq⟩ := heq
      obtain ⟨hc, hbefore⟩ := List.forall_mem_cons.mp hbefore
      rw [first_cons_none hc] at h ⊢
      refine ih (fun bs hthin => ?_) before a after heq hbefore b hb
      by_cases hn : noise c
      · exact h bs (.drop hn hthin)
      · cases hread : read c with
        | none => rw [← h _ (.keep c hthin), first_cons_none hread]
        | some r =>
          -- What was read here by mistake is no right value, so it was found in place of one.
          obtain ⟨hdefault, hvalues⟩ := hvalue c r hn hc hread
          have hfirst := h _ (.refl noise _)
          rw [first_cons_some hread, eq_comm, first_eq_iff] at hfirst
          obtain ⟨-, e, -, -, he, -⟩ | ⟨-, he⟩ := hfirst
          · exact absurd he (hvalues e)
          · exact absurd he hdefault

end

/-! ### Trimming -/

section

variable {p q : α → Bool}

theorem rdropWhile_append_of_forall (l : List α) {t : List α} (h : ∀ a ∈ t, p a = true) :
    (l ++ t).rdropWhile p = l.rdropWhile p := by
  rw [List.rdropWhile, List.reverse_append, List.dropWhile_append_of_pos (by simpa using h),
    List.rdropWhile]

theorem rdropWhile_append_of_ne_nil (l : List α) {t : List α} (h : t.rdropWhile p ≠ []) :
    (l ++ t).rdropWhile p = l ++ t.rdropWhile p := by
  have hne : t.reverse.dropWhile p ≠ [] := fun hnil => h (by rw [List.rdropWhile, hnil]; rfl)
  rw [List.rdropWhile, List.reverse_append, List.dropWhile_append, if_neg (by simpa using hne),
    List.reverse_append, List.reverse_reverse, List.rdropWhile]

/-- What was trimmed by less is trimmed by more as before. -/
theorem rdropWhile_of_imp (h : ∀ a, q a = true → p a = true) (l : List α) :
    (l.rdropWhile q).rdropWhile p = l.rdropWhile p := by
  have hsplit := rdropWhile_append_of_forall (p := p) (l.rdropWhile q) (t := l.rtakeWhile q)
    fun a ha => h a (List.mem_rtakeWhile_imp ha)
  rwa [List.rdropWhile_append_rtakeWhile, eq_comm] at hsplit

/-- What was trimmed by more is not trimmed by less. -/
theorem rdropWhile_self_of_imp (h : ∀ a, q a = true → p a = true) (l : List α) :
    (l.rdropWhile p).rdropWhile q = l.rdropWhile p := by
  rw [List.rdropWhile_eq_self_iff]
  exact fun hne hq => List.rdropWhile_last_not p l hne (h _ hq)

theorem rdropWhile_append_of_not (hpq : ∀ a, p a = true → q a = false) (l : List α) {t : List α}
    (ht : ∀ a ∈ t, p a = true) (hne : t ≠ []) : (l ++ t).rdropWhile q = l ++ t := by
  rw [List.rdropWhile_eq_self_iff]
  intro hne' hlast
  rw [List.getLast_append_of_ne_nil hne' hne, hpq _ (ht _ (List.getLast_mem hne))] at hlast
  cases hlast

/-- Three runs at the end are trimmed one after the other. -/
theorem rdropWhile_runs (hpq : ∀ a, p a = true → q a = false) {l t₁ t₂ t₃ : List α}
    (hp : l.rdropWhile p = l) (hq : l.rdropWhile q = l) (h₁ : ∀ a ∈ t₁, p a = true)
    (h₂ : ∀ a ∈ t₂, q a = true) (h₃ : ∀ a ∈ t₃, p a = true) :
    (((l ++ (t₁ ++ (t₂ ++ t₃))).rdropWhile p).rdropWhile q).rdropWhile p = l := by
  have hqp : ∀ a, q a = true → p a = false := by
    intro a ha
    by_contra hpa
    rw [hpq a (Bool.not_eq_false _ ▸ hpa)] at ha
    cases ha
  rw [← List.append_assoc, ← List.append_assoc, rdropWhile_append_of_forall _ h₃]
  by_cases hne₂ : t₂ = []
  · rw [hne₂, List.append_nil, rdropWhile_append_of_forall l h₁, hp, hq, hp]
  · rw [rdropWhile_append_of_not hqp _ h₂ hne₂, rdropWhile_append_of_forall _ h₂]
    by_cases hne₁ : t₁ = []
    · rw [hne₁, List.append_nil, hq, hp]
    · rw [rdropWhile_append_of_not hpq _ h₁ hne₁, rdropWhile_append_of_forall l h₁, hp]

/-- A prefix of a list that starts well starts well. -/
theorem dropWhile_of_prefix {l t : List α} (hl : l.dropWhile p = l) (ht : t <+: l) :
    t.dropWhile p = t := by
  cases t with
  | nil => rfl
  | cons a t =>
    obtain ⟨s, rfl⟩ := ht
    rw [List.dropWhile_eq_self_iff] at hl ⊢
    intro _
    simpa using hl (by simp)

/-- The two ends are trimmed in either order. -/
theorem trimming_comm (l : List α) :
    (l.rdropWhile p).dropWhile p = (l.dropWhile p).rdropWhile p := by
  have hstart : (l.dropWhile p).dropWhile p = l.dropWhile p := List.dropWhile_idempotent p l
  have hprefix := dropWhile_of_prefix hstart (List.rdropWhile_prefix p _)
  by_cases hnil : (l.dropWhile p).rdropWhile p = []
  · have hall : ∀ a ∈ l, p a = true := by
      intro a ha
      rw [← List.takeWhile_append_dropWhile (p := p) (l := l), List.mem_append] at ha
      obtain htake | hdrop := ha
      · exact List.mem_takeWhile_imp htake
      · exact List.rdropWhile_eq_nil_iff.mp hnil a hdrop
    rw [List.rdropWhile_eq_nil_iff.mpr hall, List.dropWhile_eq_nil_iff.mpr hall]
    rfl
  · have hsplit := rdropWhile_append_of_ne_nil (l.takeWhile p) hnil
    rw [List.takeWhile_append_dropWhile] at hsplit
    rw [hsplit, List.dropWhile_append_of_pos fun a ha => List.mem_takeWhile_imp ha, hprefix]

end

/-- No piece has a separator. -/
theorem not_mem_splitOn [BEq α] [LawfulBEq α] (sep : α) (l : List α) :
    ∀ piece ∈ l.splitOn sep, sep ∉ piece := by
  induction l with
  | nil => simp
  | cons a l ih =>
    rw [List.splitOn_cons_eq_if_modifyHead]
    cases hsplit : l.splitOn sep with
    | nil => exact absurd hsplit (List.splitOn_ne_nil sep l)
    | cons piece pieces =>
      rw [hsplit] at ih
      obtain ⟨hhead, htail⟩ := List.forall_mem_cons.mp ih
      split_ifs with ha
      · exact List.forall_mem_cons.mpr ⟨List.not_mem_nil, ih⟩
      · refine List.forall_mem_cons.mpr ⟨?_, htail⟩
        rw [List.mem_cons, not_or]
        exact ⟨fun heq => ha (by simp [heq]), hhead⟩

end Search
