import ExaUdf.Equiv.Bridge

/-!
# `next` at the end of a group

Once `next` has returned `false` because the database answered `MT_NEXT` with `MT_DONE`, a further
`next` sends another `MT_NEXT`: nothing in the bridge remembers the end.  So `next` is stable at the
boundary exactly for the UDFs that do not call it again (`next_stable_iff`).
-/

namespace ExaUdf

namespace HostContextBridge

variable (env : Env) (m : UdfMeta)

/-- `next` says that the group has ended, after the database answered `MT_NEXT` with `MT_DONE`. -/
def AtBoundary (b : HostContextBridge) : Prop :=
  (b.next env m).1 = .ok false ∧
    ∃ f, (b.next env m).2.world.log.getLast? = some (.answered f (.ok .done))

/-- `next` says that the group has ended, sends nothing and keeps the row. -/
def NextStable (b : HostContextBridge) : Prop :=
  (b.next env m).1 = .ok false ∧ sends (b.next env m).2.world.log = sends b.world.log ∧
    (b.next env m).2.input = b.input

/-- Running `p` in state `b` comes to a call of `next` in state `later`, after the boundary. -/
def CallsNextAgain (p : UdfProg) (b later : HostContextBridge) : Prop :=
  ∃ k b₁ k', p.Reaches (handle env m) b (.call .next k) b₁ ∧ AtBoundary env m b₁ ∧
    (k (handle env m .next b₁).1).Reaches (handle env m) (handle env m .next b₁).2
      (.call .next k') later

/-- `next` has been called, and there is no further row in the current batch. -/
def Drained (b : HostContextBridge) : Prop :=
  b.started = true ∧ ¬ b.input.currentRow + 1 < b.input.nRows

variable {env m}

/-! ### The end of the group -/

theorem refill_drained {b : HostContextBridge} (h : Drained b)
    (hend : (b.refill env m).1 = .ok false) : Drained (b.refill env m).2 := by
  refine (refillLoop env m).run_rule (P := Drained)
    (Q := fun r => r.1 = .ok false → Drained r.2) ?_ ?_ h hend
  · rintro b₁ r hb₁ hstep hres
    have hinv := refillStep_inv env m b₁
    change b₁.refillStep env m = _ at hstep
    rw [hstep] at hinv
    cases hinv with
    | ended => exact hb₁
    | failed | undecodable | loaded => cases hres
  · intro b₁ b₂ hb₁ hstep
    have hinv := refillStep_inv env m b₁
    change b₁.refillStep env m = _ at hstep
    rw [hstep] at hinv
    cases hinv with
    | @empty table feed input _ _ hrows =>
      exact ⟨hb₁.1, show ¬ input.currentRow + 1 < input.nRows by omega⟩

/-- Once there is no further row, `next` is `refill`. -/
theorem Drained.next_eq (hm : m.inputIter = .multiple) {b : HostContextBridge} (h : Drained b) :
    b.next env m = b.refill env m := by
  unfold next advanceRow InputRowSet.advance
  rw [hm]
  dsimp only
  rw [if_pos h.1, if_neg h.2]

theorem AtBoundary.drained (hm : m.inputIter = .multiple) {b : HostContextBridge}
    (h : AtBoundary env m b) : Drained (handle env m .next b).2 := by
  have hend := h.1
  show Drained (b.next env m).2
  by_cases hdrained : Drained b
  · rw [hdrained.next_eq hm] at hend ⊢
    exact refill_drained hdrained hend
  -- Otherwise this is the first call, on an empty batch.
  unfold next advanceRow InputRowSet.advance at hend ⊢
  rw [hm] at hend ⊢
  dsimp only at hend ⊢
  split_ifs at hend ⊢ with hstarted hmore hempty
  · cases hend
  · exact absurd ⟨hstarted, hmore⟩ hdrained
  · have hrows : b.input.nRows = 0 := by simpa [InputRowSet.isEmpty] using hempty
    refine refill_drained ⟨rfl, ?_⟩ hend
    show ¬ b.input.currentRow + 1 < b.input.nRows
    omega
  · cases hend

/-- After the end, `next` asks the database again. -/
theorem Drained.not_stable (hm : m.inputIter = .multiple) {b : HostContextBridge}
    (h : Drained b) : ¬ NextStable env m b := by
  rintro ⟨hend, hsame, -⟩
  rw [h.next_eq hm] at hend hsame
  exact refill_sends b hend hsame

theorem Drained.answer {op : CtxOp} (hop : op ≠ .next) {b : HostContextBridge} (h : Drained b) :
    Drained (handle env m op b).2 := by
  obtain ⟨hinput, hstarted⟩ := answer_cursor m env hop b
  refine ⟨hstarted.trans h.1, ?_⟩
  show ¬ (b.answer env m op).2.input.currentRow + 1 < (b.answer env m op).2.input.nRows
  rw [hinput]
  exact h.2

/-- **The group boundary.**  `next` is stable after the end of a SET group exactly when the
invocation does not call it again. -/
theorem next_stable_iff (hm : m.inputIter = .multiple) (p : UdfProg) (b : HostContextBridge) :
    (∀ later, CallsNextAgain env m p b later → NextStable env m later) ↔
      ∀ later, ¬ CallsNextAgain env m p b later := by
  constructor
  · rintro hstable later ⟨k, b₁, k', hreach, hboundary, hagain⟩
    obtain ⟨k'', first, hfirst, hdrained⟩ := @Prog.Reaches.first _ _ _ _ (handle env m) Drained
      .next (fun op b hop hb => hb.answer hop) _ _ (hboundary.drained hm) _ _ hagain _ rfl
    exact hdrained.not_stable hm (hstable first ⟨k, b₁, k'', hreach, hboundary, hfirst⟩)
  · intro hnever later hagain
    exact absurd hagain (hnever later)

/-- A group of one row, whose first batch is loaded, on a channel that answers every further
`MT_NEXT` with `MT_DONE`. -/
def oneRowGroup : HostContextBridge :=
  let w := { Runtime.connect (.replicate 3 (.ofType .mtDone)) with
    proto := { Protocol.new with phase := .run } }
  .new ⟨w, none⟩ ⟨[.int32 1], 1, 1, [0], 0, 1⟩

/-- Metadata of a SET script that emits one INTEGER column. -/
def setMeta : UdfMeta :=
  let column : ColumnDefinition := ⟨"A", some 2, "INTEGER", none, none, none⟩
  .fromPb ⟨2, 2, [column], [column], false⟩
    ⟨"DB", "8.0", "F", "%udf_object /f.so;", 1, 1, 1, 0, 0, 0, "S", none, none, none⟩

/-- A UDF that calls `next` until it has returned `false`. -/
theorem next_stable_iff_sample :
    let env := Env.reference (.emitting fun _ => .done ⟨0, ""⟩)
    let p : UdfProg := .call .next fun _ => .call .next fun _ => .done ⟨0, ""⟩
    (∀ later, CallsNextAgain env setMeta p oneRowGroup later → NextStable env setMeta later) ↔
      ∀ later, ¬ CallsNextAgain env setMeta p oneRowGroup later := by
  intro env p
  exact next_stable_iff (m := setMeta) rfl p oneRowGroup

/-- A UDF that calls `next` once more sends another `MT_NEXT`. -/
theorem next_not_stable :
    ¬ ∀ (env : Env) (m : UdfMeta), m.inputIter = .multiple → ∀ (p : UdfProg)
      (b later : HostContextBridge), CallsNextAgain env m p b later → NextStable env m later := by
  intro hclaim
  let env := Env.reference (.emitting fun _ => .done ⟨0, ""⟩)
  let once : UdfProg := .call .next fun _ => .done ⟨0, ""⟩
  let p : UdfProg := .call .next fun _ => .call .next fun _ => once
  let first := (handle env setMeta .next oneRowGroup).2
  let later := (handle env setMeta .next first).2
  have hboundary : AtBoundary env setMeta first :=
    ⟨by decide +kernel, .request (first.world.proto.nextRequest), rfl⟩
  have hstable := hclaim env setMeta rfl p oneRowGroup later
    ⟨_, first, _, .call (.refl _ _), hboundary, .refl once later⟩
  have hsent := congrArg List.length hstable.2.1
  revert hsent
  decide +kernel

end HostContextBridge

end ExaUdf
