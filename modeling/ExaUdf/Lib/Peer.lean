import Mathlib.Tactic.Common

/-!
# Peers that answer

A `Peer` gets requests one at a time and gives one answer to each, until it refuses one.  `replies`
are its answers to a list of requests, and `after` is its state once all of them are answered.  The
`_append` lemmas cut a list of requests where all of them have been answered so far.
-/

/-- A peer in a state of `σ` answers a request or refuses it. -/
abbrev Peer (σ Q R : Type) := σ → Q → Option (R × σ)

namespace Peer

variable {σ Q R : Type} (peer : Peer σ Q R)

/-- The answers, up to the first request that is refused. -/
def replies : σ → List Q → List R
  | _, [] => []
  | s, q :: qs =>
    match peer s q with
    | none => []
    | some (r, s') => r :: replies s' qs

/-- The state after requests that are all answered. -/
def after : σ → List Q → Option σ
  | s, [] => some s
  | s, q :: qs =>
    match peer s q with
    | none => none
    | some (_, s') => after s' qs

/-- The state in which the peer stops: after all requests, or at the first that is refused. -/
def stop : σ → List Q → σ
  | s, [] => s
  | s, q :: qs =>
    match peer s q with
    | none => s
    | some (_, s') => stop s' qs

variable {peer} {s s' s'' : σ} {q : Q} {r : R} {qs : List Q}

theorem replies_cons (h : peer s q = some (r, s')) (qs : List Q) :
    peer.replies s (q :: qs) = r :: peer.replies s' qs := by
  rw [replies, h]

theorem after_cons (h : peer s q = some (r, s')) (qs : List Q) :
    peer.after s (q :: qs) = peer.after s' qs := by
  rw [after, h]

theorem stop_cons (h : peer s q = some (r, s')) (qs : List Q) :
    peer.stop s (q :: qs) = peer.stop s' qs := by
  rw [stop, h]

theorem replies_of_refused (h : peer s q = none) (qs : List Q) : peer.replies s (q :: qs) = [] := by
  rw [replies, h]

theorem after_of_refused (h : peer s q = none) (qs : List Q) : peer.after s (q :: qs) = none := by
  rw [after, h]

theorem stop_of_refused (h : peer s q = none) (qs : List Q) : peer.stop s (q :: qs) = s := by
  rw [stop, h]

/-- **Induction over answered requests.** -/
theorem after_induct (peer : Peer σ Q R) {motive : σ → List Q → Prop}
    (hnil : ∀ s, motive s []) (hcons : ∀ s q r s' qs, peer s q = some (r, s') → motive s' qs →
      motive s (q :: qs)) (hrefused : ∀ s q qs, peer s q = none → motive s (q :: qs))
    (s : σ) (qs : List Q) : motive s qs := by
  induction qs generalizing s with
  | nil => exact hnil s
  | cons q qs ih =>
    rcases h : peer s q with _ | ⟨r, s'⟩
    · exact hrefused s q qs h
    · exact hcons s q r s' qs h (ih s')

theorem after_append (s : σ) (qs qs' : List Q) :
    peer.after s (qs ++ qs') = (peer.after s qs).bind fun s' => peer.after s' qs' := by
  induction s, qs using after_induct peer with
  | hnil s => rfl
  | hcons s q r s' qs h ih =>
    rw [List.cons_append, after_cons h, after_cons h]
    exact ih
  | hrefused s q qs h =>
    rw [List.cons_append, after_of_refused h, after_of_refused h]
    rfl

theorem replies_append (h : peer.after s qs = some s') (qs' : List Q) :
    peer.replies s (qs ++ qs') = peer.replies s qs ++ peer.replies s' qs' := by
  induction qs generalizing s with
  | nil =>
    cases h
    rfl
  | cons q qs ih =>
    rcases hq : peer s q with _ | ⟨r, s₁⟩
    · rw [after_of_refused hq] at h
      cases h
    · rw [after_cons hq] at h
      rw [List.cons_append, replies_cons hq, replies_cons hq, ih h, List.cons_append]

theorem stop_append (h : peer.after s qs = some s') (qs' : List Q) :
    peer.stop s (qs ++ qs') = peer.stop s' qs' := by
  induction qs generalizing s with
  | nil =>
    cases h
    rfl
  | cons q qs ih =>
    rcases hq : peer s q with _ | ⟨r, s₁⟩
    · rw [after_of_refused hq] at h
      cases h
    · rw [after_cons hq] at h
      rw [List.cons_append, stop_cons hq, ih h]

end Peer
