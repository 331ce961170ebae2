import ExaUdf.Equiv.Pushed
import ExaUdf.Shim

/-!
# One output row for each invocation of a RETURNS function

`runOnce_events` says what an invocation leaves in the history, and `runOnce_returned` what it
leaves if the function is run by the RETURNS shim: what the function did, and then the `set_return`
of what it returned.  `Invocations` reads the history of a group as a list of such invocations.

The host accepts a `set_return` from anywhere.  `runGroup_oneRowEach`: every invocation that
succeeds adds exactly the row of what it returned, and a group that ends well has sent one row for
each, exactly if no function gets a `set_return` of its own accepted.
-/

namespace ExaUdf

open HostContextBridge

variable {env : Env} {m : UdfMeta}

/-! ### What an invocation leaves -/

/-- The call that an event notes. -/
def Event.call? : Event → Option ((op : CtxOp) × CtxAns op)
  | .call _ op ans => some ⟨op, ans⟩
  | _ => none

/-- The calls in a stretch of the history. -/
def callsOf (events : List Event) : List ((op : CtxOp) × CtxAns op) :=
  events.filterMap Event.call?

/-- An event that can happen while a UDF runs: a call, or something on the wire. -/
def Event.isInside : Event → Bool
  | .call .. => true
  | e => !e.isNote

theorem Event.call?_of_isNote {e : Event} (h : e.isNote = false) : e.call? = none := by
  cases e <;> first | rfl | cases h

theorem Event.isInside_of_isNote {e : Event} (h : e.isNote = false) : e.isInside = true := by
  cases e <;> first | rfl | cases h

theorem callsOf_of_isNote {events : List Event} (h : ∀ e ∈ events, e.isNote = false) :
    callsOf events = [] :=
  List.filterMap_eq_nil_iff.mpr fun e he => Event.call?_of_isNote (h e he)

theorem request_wire (env : Env) (f : Frame) (w : World) :
    World.Adds (fun e => e.isNote = false) w (w.request env f).2 := by
  refine World.Adds.request (P := fun e => e.isNote = false) rfl (fun _ => rfl) (fun e he => ?_) w
  cases e <;> first | rfl | cases he

theorem feedRel_wire (env : Env) :
    Feed.Rel env fun fd fd' => World.Adds (fun e => e.isNote = false) fd.world fd'.world where
  refl fd := World.Adds.refl fd.world
  trans := World.Adds.trans
  next fd := Feed.fetchStep_world env fd ▸ request_wire env _ fd.world
  emit fd _ _ := request_wire env _ fd.world
  lookup fd _ := request_wire env _ fd.world

namespace HostContextBridge

/-- A call leaves what its exchanges leave, and the note of itself. -/
theorem handle_events (op : CtxOp) (b : HostContextBridge) :
    ∃ events, (∀ e ∈ events, e.isNote = false) ∧ (b.handle env m op).2.world.log
      = b.world.log ++ (events ++ [.call b.input.currentRowNumber op (b.handle env m op).1]) := by
  obtain ⟨events, hlog, hwire⟩ := answer_rel m (feedRel_wire env) op b
  refine ⟨events, hwire, ?_⟩
  show (b.answer env m op).2.world.log ++ _ = _
  rw [hlog, List.append_assoc]
  rfl

theorem handle_calls (op : CtxOp) (b : HostContextBridge) :
    callsOf (b.handle env m op).2.world.log
      = callsOf b.world.log ++ [⟨op, (b.handle env m op).1⟩] := by
  obtain ⟨events, hwire, hlog⟩ := @handle_events env m op b
  rw [hlog, callsOf, List.filterMap_append, List.filterMap_append, ← callsOf, ← callsOf,
    callsOf_of_isNote hwire]
  rfl

theorem handle_inside (op : CtxOp) (b : HostContextBridge) :
    World.Adds (fun e => e.isInside = true) b.world (b.handle env m op).2.world := by
  obtain ⟨events, hwire, hlog⟩ := @handle_events env m op b
  refine ⟨_, hlog, fun e he => ?_⟩
  rcases List.mem_append.mp he with he | he
  · exact Event.isInside_of_isNote (hwire e he)
  · exact List.mem_singleton.mp he ▸ rfl

/-- What a program over the context leaves. -/
theorem exec_events {α : Type} (p : Prog CtxOp CtxAns α) (b : HostContextBridge) :
    ∃ events, (p.exec (handle env m) b).2.world.log = b.world.log ++ events ∧
      (∀ e ∈ events, e.isInside = true) ∧
      p.Returns (callsOf events) (p.exec (handle env m) b).1 := by
  obtain ⟨events, hlog, hinside⟩ := Prog.exec_rel (handle env m)
    (R := fun b b' : HostContextBridge => World.Adds (fun e => e.isInside = true) b.world b'.world)
    (fun b => World.Adds.refl b.world) World.Adds.trans handle_inside p b
  obtain ⟨calls, hcalls, hreturns⟩ :=
    @Prog.exec_returns _ _ _ _ _ (fun b => callsOf b.world.log) handle_calls p b
  refine ⟨events, hlog, hinside, ?_⟩
  -- The calls noted in the log are the calls that were made.
  rw [hlog, callsOf, List.filterMap_append] at hcalls
  rwa [callsOf, List.append_cancel_left hcalls]

end HostContextBridge

/-! ### Invocations of a RETURNS function -/

section Returns

variable {α : Type} [IntoValue α] {body : List Event → Prog CtxOp CtxAns (BodyExit (Option α))}
  {L : List Event}

/-- An invocation that has succeeded: what happened up to the `set_return` of the shim, the number
of the row under the cursor then, and what the function returned. -/
structure Returned (α : Type) where
  during : List Event
  rowNumber : UInt64
  value : Option α

namespace Returned

/-- The `set_return` of the shim. -/
def call (r : Returned α) : Event :=
  .call r.rowNumber (.setReturn (r.value.map intoValue)) (.ok ())

/-- The returned value passes the check of output rows. -/
def Accepted (env : Env) (m : UdfMeta) (r : Returned α) : Prop :=
  ∃ cost, checkOutputRow env.toExtern [(r.value.map intoValue).getD .null] m.outputColumns
    = .ok cost

/-- The output row of the invocation. -/
def row (env : Env) (m : UdfMeta) (r : Returned α) : WireRow :=
  wireRow env.toExtern m.outputColumns r.rowNumber [(r.value.map intoValue).getD .null]

end Returned

/-- The history of a group since `L`, with the invocations that have succeeded. -/
inductive Invocations (env : Env) (m : UdfMeta)
    (body : List Event → Prog CtxOp CtxAns (BodyExit (Option α)))
    (L : List Event) : List Event → List (Returned α) → Prop where
  | nil : Invocations env m body L [] []
  | wire {G : List Event} {rs : List (Returned α)} {e : Event} : Invocations env m body L G rs →
    e.isNote = false → Invocations env m body L (G ++ [e]) rs
  | returned {G : List Event} {rs : List (Returned α)} {r : Returned α} :
    Invocations env m body L G rs → (∀ e ∈ r.during, e.isInside = true) →
    (body (L ++ G)).Returns (callsOf r.during) (.ok r.value) → r.Accepted env m →
    Invocations env m body L (G ++ .runStart :: (r.during ++ [r.call, .runEnd (.ok ())]))
      (rs ++ [r])

/-- What is left of the history of a group at the end: nothing, or an invocation that failed. -/
inductive Leftover : List Event → Prop where
  | nil : Leftover []
  | failed {during : List Event} {e : RuntimeError} : (∀ x ∈ during, x.isInside = true) →
    Leftover (.runStart :: (during ++ [.runEnd (.error e)]))

theorem Invocations.wires {G : List Event} {rs : List (Returned α)}
    (h : Invocations env m body L G rs) {events : List Event}
    (hwire : ∀ e ∈ events, e.isNote = false) : Invocations env m body L (G ++ events) rs := by
  induction events generalizing G with
  | nil => rwa [List.append_nil]
  | cons e events ih =>
    have hrest := ih (h.wire (hwire e List.mem_cons_self))
      fun e' he' => hwire e' (List.mem_cons_of_mem e he')
    rwa [List.append_assoc] at hrest

/-- Running the shim: the function first, and then the `set_return` of what it returned. -/
theorem returnsShim_exec (handle : (op : CtxOp) → HostContextBridge → CtxAns op × HostContextBridge)
    (p : Prog CtxOp CtxAns (BodyExit (Option α))) (b : HostContextBridge) :
    (returnsShim p).exec handle b =
      match p.exec handle b with
      | (.ok ret, b) =>
        let r := handle (.setReturn (ret.map intoValue)) b
        (lifecycleExit (match (r.1 : Except UdfError Unit) with
          | .ok () => .ok ()
          | .error e => .err e), r.2)
      | (.err e, b) => (lifecycleExit (.err e), b)
      | (.panic, b) => (lifecycleExit .panic, b) := by
  rw [returnsShim, lifecycleShim, returnsBody, Prog.exec_bind, Prog.exec_bind]
  generalize p.exec handle b = r
  obtain ⟨ret | e | -, b⟩ := r
  · dsimp only
    rw [Prog.exec_call]
    generalize handle _ b = a
    obtain ⟨e | u, b⟩ := a <;> rfl
  · rfl
  · rfl

/-- A `set_return` that is accepted has passed the check of output rows. -/
theorem setReturn_accepted (value : Option Value) (b : HostContextBridge) (u : Unit)
    (h : ((b.handle env m (.setReturn value)).1 : Except UdfError Unit) = .ok u) :
    ∃ cost, checkOutputRow env.toExtern [value.getD .null] m.outputColumns = .ok cost := by
  change (b.pushOutputRow env m [value.getD .null]).1 = .ok u at h
  unfold pushOutputRow at h
  cases hcheck : checkOutputRow env.toExtern [value.getD .null] m.outputColumns with
  | error e =>
    rw [hcheck] at h
    cases h
  | ok cost => exact ⟨cost, rfl⟩

/-- **An invocation by the shim** that succeeds is one of `Invocations`; one that fails is left
over. -/
theorem runOnce_returned {udf : LoadedUdf} (hudf : udf.run = fun log => returnsShim (body log))
    (b : HostContextBridge) :
    match runOnce env m udf b with
    | (.ok (), b') => ∃ r : Returned α,
      b'.world.log = b.world.log ++ .runStart :: (r.during ++ [r.call, .runEnd (.ok ())]) ∧
      (∀ e ∈ r.during, e.isInside = true) ∧
      (body b.world.log).Returns (callsOf r.during) (.ok r.value) ∧ r.Accepted env m
    | (.error _, b') => ∃ last, b'.world.log = b.world.log ++ last ∧ Leftover last := by
  rcases hshim : (udf.run b.world.log).exec (handle env m)
    ({ b with lastError := none }.push .runStart) with ⟨exit, b'⟩
  -- The host looks at the return code alone to tell success from failure.
  by_cases hrc : exit.rc = 0
  · have hrun : runOnce env m udf b = (.ok (), b'.push (.runEnd (.ok ()))) := by
      unfold runOnce
      rw [hshim]
      dsimp only
      rw [lifecycleResult, if_pos hrc]
      rfl
    rw [hrun]
    rw [hudf, returnsShim_exec] at hshim
    obtain ⟨before, hbefore, hinside, hreturns⟩ := @exec_events env m _
      (body b.world.log) ({ b with lastError := none }.push .runStart)
    generalize (body b.world.log).exec (handle env m) _ = r at hshim hbefore hreturns
    obtain ⟨ret | e | -, b₁⟩ := r
    · obtain ⟨wire, hwire, hlog⟩ := @handle_events env m
        (.setReturn (ret.map intoValue)) b₁
      have haccepted := @setReturn_accepted env m (ret.map intoValue) b₁
      dsimp only at hshim
      generalize b₁.handle env m _ = r at hshim hlog haccepted
      obtain ⟨e | u, b₂⟩ := r
      -- The shim has turned the rejected `set_return` into an error exit.
      · obtain ⟨rfl, -⟩ := Prod.mk.inj hshim
        cases hrc
      · obtain ⟨-, rfl⟩ := Prod.mk.inj hshim
        refine ⟨⟨before ++ wire, b₁.input.currentRowNumber, ret⟩, ?_, fun e he => ?_, ?_, ?_⟩
        · change b₁.world.log = b.world.log ++ [.runStart] ++ before at hbefore
          show b₂.world.log ++ _ = _
          rw [hlog, hbefore]
          simp [Returned.call]
        · rcases List.mem_append.mp he with he | he
          · exact hinside e he
          · exact Event.isInside_of_isNote (hwire e he)
        · rw [callsOf, List.filterMap_append, ← callsOf, ← callsOf, callsOf_of_isNote hwire,
            List.append_nil]
          exact hreturns
        · exact haccepted _ rfl
    · obtain ⟨rfl, -⟩ := Prod.mk.inj hshim
      cases hrc
    · obtain ⟨rfl, -⟩ := Prod.mk.inj hshim
      cases hrc
  · obtain ⟨e, hres⟩ : ∃ e, (lifecycleResult "run" exit).mapError
        (·.withRecordedDetail b'.lastError) = .error e := by
      rw [lifecycleResult, if_neg hrc]
      exact ⟨_, rfl⟩
    have hrun : runOnce env m udf b = (.error e, b'.push (.runEnd (.error e))) := by
      unfold runOnce
      rw [hshim]
      dsimp only
      rw [hres]
    obtain ⟨events, hlog, hinside, -⟩ := @exec_events env m _ (udf.run b.world.log)
      ({ b with lastError := none }.push .runStart)
    rw [hshim] at hlog
    rw [hrun]
    refine ⟨.runStart :: (events ++ [.runEnd (.error e)]), ?_, .failed hinside⟩
    change b'.world.log = b.world.log ++ [.runStart] ++ events at hlog
    show b'.world.log ++ _ = _
    rw [hlog]
    simp

/-- Since `L` there were successful invocations, and maybe a last one that failed. -/
def Told (env : Env) (m : UdfMeta) (body : List Event → Prog CtxOp CtxAns (BodyExit (Option α)))
    (L : List Event) (ended : Prop) (w : World) : Prop :=
  ∃ G rs last, w.log = L ++ (G ++ last) ∧ Invocations env m body L G rs ∧ Leftover last ∧
    (ended → last = [])

theorem Told.wires {ended : Prop} {w w' : World} (h : Told env m body L True w)
    (hwire : World.Adds (fun e => e.isNote = false) w w') : Told env m body L ended w' := by
  obtain ⟨G, rs, last, hG, hrs, -, hlast⟩ := h
  obtain rfl := hlast trivial
  obtain ⟨events, hlog, hevents⟩ := hwire
  refine ⟨G ++ events, rs, [], ?_, hrs.wires hevents, .nil, fun _ => rfl⟩
  rw [hlog, hG, List.append_nil, List.append_nil, List.append_assoc]

theorem driveGroupRows_told {udf : LoadedUdf} (hudf : udf.run = fun log => returnsShim (body log))
    {b : HostContextBridge} (h : Told env m body L True b.world) :
    Told env m body L ((driveGroupRows env m udf b).1 = none)
      (driveGroupRows env m udf b).2.world := by
  have hadvance : ∀ (b : HostContextBridge) res b', Told env m body L True b.world →
      b.advanceRow env m = (res, b') → Told env m body L True b'.world := by
    intro b res b' h ha
    have hwire := advanceRow_rel m (feedRel_wire env).toFetchRel b
    rw [ha] at hwire
    exact h.wires hwire
  have hdrive := driveGroupRows_rule env m udf
    (P := fun b => Told env m body L True b.world) (I := fun b => Told env m body L True b.world)
    (Q := fun b => Told env m body L True b.world) (F := fun _ b => Told env m body L False b.world)
    (fun b b' h hr => ?_) (fun b e b' h hr => ?_) (fun _ b => hadvance b _)
    (fun _ b => hadvance b _) (fun _ b e b' h ha => ?_) (fun _ b h => h) h
  · cases hres : (driveGroupRows env m udf b).1 with
    | none =>
      obtain ⟨G, rs, last, hG, hrs, hlast, hend⟩ := hdrive.1 hres
      exact ⟨G, rs, last, hG, hrs, hlast, fun _ => hend trivial⟩
    | some e =>
      obtain ⟨G, rs, last, hG, hrs, hlast, -⟩ := hdrive.2 e hres
      exact ⟨G, rs, last, hG, hrs, hlast, fun h => nomatch h⟩
  · have hrun := @runOnce_returned env m _ _ _ _ hudf b
    rw [hr] at hrun
    obtain ⟨r, hlog, hinside, hreturns, haccepted⟩ := hrun
    obtain ⟨G, rs, last, hG, hrs, -, hlast⟩ := h
    obtain rfl := hlast trivial
    rw [List.append_nil] at hG
    rw [hG] at hreturns
    refine ⟨_, _, [], ?_, hrs.returned hinside hreturns haccepted, .nil, fun _ => rfl⟩
    rw [hlog, hG, List.append_nil, List.append_assoc]
  · have hrun := @runOnce_returned env m _ _ _ _ hudf b
    rw [hr] at hrun
    obtain ⟨last, hlog, hleft⟩ := hrun
    obtain ⟨G, rs, last', hG, hrs, -, hlast⟩ := h
    obtain rfl := hlast trivial
    rw [List.append_nil] at hG
    exact ⟨G, rs, last, by rw [hlog, hG, List.append_assoc], hrs, hleft, False.elim⟩
  · obtain ⟨G, rs, last, hG, hrs, hlast, -⟩ := hadvance b _ b' h ha
    exact ⟨G, rs, last, hG, hrs, hlast, False.elim⟩

/-- The history of a group. -/
theorem runGroup_told {udf : LoadedUdf} (hudf : udf.run = fun log => returnsShim (body log))
    (w : World) :
    Told env m body w.log ((runGroup env m udf w).1 = .ok none) (runGroup env m udf w).2 := by
  have hstart : Told env m body w.log True w :=
    ⟨[], [], [], (List.append_nil _).symm, .nil, .nil, fun _ => rfl⟩
  have hfirst := firstNonemptyInput_rel m (feedRel_wire env).toFetchRel ⟨w, none⟩
  unfold runGroup
  split <;> rename_i hf <;> rw [hf] at hfirst
  · exact hstart.wires hfirst
  · rename_i fd
    exact hstart.wires (World.Adds.trans hfirst
      (endGroup_rel (feedRel_wire env).toWriteRel fd EmitBuffer.new))
  · rename_i input fd
    have hdrive := @driveGroupRows_told env m _ _ _ _ _ hudf
      (HostContextBridge.new fd input) (hstart.wires hfirst)
    split <;> rename_i hd <;> rw [hd] at hdrive
    · obtain ⟨G, rs, last, hG, hrs, hlast, -⟩ := hdrive
      exact ⟨G, rs, last, hG, hrs, hlast, fun h => nomatch h⟩
    · rename_i b
      obtain ⟨G, rs, last, hG, hrs, hlast, hend⟩ := hdrive
      have hlive : Told env m body w.log True b.world :=
        ⟨G, rs, last, hG, hrs, hlast, fun _ => hend rfl⟩
      exact hlive.wires (endGroup_rel (feedRel_wire env).toWriteRel b.toFeed b.emitBuf)

/-! ### What the invocations push -/

/-- A `set_return` whose value does not pass the check of output rows; any other event is fine. -/
def Event.Rejected (env : Env) (m : UdfMeta) (e : Event) : Prop :=
  ∀ rowNumber value ans, e = .call rowNumber (.setReturn value) ans →
    ∃ err, checkOutputRow env.toExtern [value.getD .null] m.outputColumns = .error err

/-- In a RETURNS session rows come from `set_return` alone. -/
theorem Event.rejected_iff (hm : m.outputIter = .exactlyOnce) (e : Event) :
    e.Rejected env m ↔ e.pushedRows env m = [] := by
  by_cases hset : ∃ rowNumber value ans, e = .call rowNumber (.setReturn value) ans
  · obtain ⟨rowNumber, value, ans, rfl⟩ := hset
    have hrows : Event.pushedRows env m (.call rowNumber (.setReturn value) ans)
        = (Push.row rowNumber [value.getD .null]).rows env.toExtern m.outputColumns := rfl
    rw [hrows, Push.rows, Push.pricedRows]
    cases hcheck : checkOutputRow env.toExtern [value.getD .null] m.outputColumns with
    | error err =>
      refine iff_of_true ?_ rfl
      rintro _ _ _ ⟨⟩
      exact ⟨err, hcheck⟩
    | ok cost =>
      refine iff_of_false (fun h => ?_) (fun h => nomatch h)
      obtain ⟨err, herr⟩ := h rowNumber value ans rfl
      rw [hcheck] at herr
      cases herr
  · refine iff_of_true (fun rowNumber value ans he => absurd ⟨_, _, _, he⟩ hset) ?_
    have hnone : e.push? m = none := by
      cases e with
      | call rowNumber op ans =>
        cases op with
        | emit values => exact if_pos hm
        | emitBatch imported =>
          cases imported with
          | error err => rfl
          | ok batch => exact if_pos hm
        | setReturn value => exact absurd ⟨_, _, _, rfl⟩ hset
        | _ => rfl
      | _ => rfl
    rw [Event.pushedRows, hnone]
    rfl

/-- The `set_return` of a shim adds its row. -/
theorem Returned.pushedRows_call {r : Returned α} (h : r.Accepted env m) :
    r.call.pushedRows env m = [r.row env m] := by
  obtain ⟨cost, hcost⟩ := h
  have hrows : r.call.pushedRows env m = (Push.row r.rowNumber
      [(r.value.map intoValue).getD .null]).rows env.toExtern m.outputColumns := rfl
  rw [hrows, Push.rows, Push.pricedRows, hcost]
  rfl

/-- An invocation adds one row exactly if its function adds none of its own. -/
theorem Returned.each_iff {r : Returned α} (h : r.Accepted env m) :
    (r.during ++ [r.call]).flatMap (Event.pushedRows env m) = [r.row env m] ↔
      ∀ e ∈ r.during, e.pushedRows env m = [] := by
  rw [List.flatMap_append, List.flatMap_singleton, r.pushedRows_call h,
    ← List.flatMap_eq_nil_iff]
  constructor
  · intro h
    exact List.append_cancel_right (h.trans (List.nil_append _).symm)
  · intro h
    rw [h]
    rfl

theorem Event.complete_of_pushedRows {e : Event} (h : e.pushedRows env m = []) :
    e.Complete env m := by
  intro p err hp
  rw [Event.pushedRows, hp] at h
  exact h

namespace Invocations

variable {G : List Event} {rs : List (Returned α)}

theorem countP (h : Invocations env m body L G rs) :
    G.countP Event.isRunStart = rs.length := by
  induction h with
  | nil => rfl
  | @wire G rs e _ hwire ih =>
    have hnone : e.isRunStart = false := by cases e <;> first | rfl | cases hwire
    rw [List.countP_append, ih, List.countP_singleton, hnone]
    rfl
  | @returned G rs r _ hinside _ _ ih =>
    have hduring : r.during.countP Event.isRunStart = 0 := by
      refine List.countP_eq_zero.mpr fun e he => ?_
      have hinside := hinside e he
      cases e <;> first | exact Bool.false_ne_true | cases hinside
    rw [List.countP_append, ih, List.countP_cons, List.countP_append, hduring, List.length_append]
    rfl

theorem accepted (h : Invocations env m body L G rs) : ∀ r ∈ rs, r.Accepted env m := by
  induction h with
  | nil => exact fun _ h => nomatch h
  | wire _ _ ih => exact ih
  | returned _ _ _ haccepted ih =>
    intro r hr
    rcases List.mem_append.mp hr with hr | hr
    · exact ih r hr
    · exact List.mem_singleton.mp hr ▸ haccepted

/-- If no function sets a value of its own, the rows of the group are those that were returned. -/
theorem pushedRows (h : Invocations env m body L G rs)
    (hrejected : ∀ r ∈ rs, ∀ e ∈ r.during, e.pushedRows env m = []) :
    G.flatMap (Event.pushedRows env m) = rs.map (Returned.row env m) ∧
      ∀ e ∈ G, e.Complete env m := by
  induction h with
  | nil => exact ⟨rfl, List.forall_mem_nil _⟩
  | @wire G rs e _ hwire ih =>
    obtain ⟨hrows, hcomplete⟩ := ih hrejected
    refine ⟨?_, fun e' he' => ?_⟩
    · rw [List.flatMap_append, hrows, List.flatMap_singleton, Event.pushedRows_of_isNote hwire,
        List.append_nil]
    · rcases List.mem_append.mp he' with he' | he'
      · exact hcomplete e' he'
      · obtain rfl := List.mem_singleton.mp he'
        exact Event.complete_of_pushedRows (Event.pushedRows_of_isNote hwire)
  | @returned G rs r _ _ _ haccepted ih =>
    obtain ⟨hrows, hcomplete⟩ := ih fun r hr => hrejected r (List.mem_append_left _ hr)
    have hnone := hrejected r (List.mem_append_right _ (List.mem_singleton.mpr rfl))
    refine ⟨?_, fun e he => ?_⟩
    · rw [List.flatMap_append, hrows, List.map_append, List.flatMap_cons, List.flatMap_append,
        List.flatMap_eq_nil_iff.mpr hnone, List.flatMap_cons, r.pushedRows_call haccepted]
      rfl
    · simp only [List.mem_append, List.mem_cons, List.not_mem_nil, or_false] at he
      rcases he with he | rfl | he | rfl | rfl
      · exact hcomplete e he
      · exact Event.complete_of_pushedRows rfl
      · exact Event.complete_of_pushedRows (hnone e he)
      · rintro p err ⟨⟩
      · exact Event.complete_of_pushedRows rfl

end Invocations

/-- One output row for each of the invocations `rs`, in a group with the history `G ++ last`. -/
structure OneRowEach (env : Env) (m : UdfMeta) (ended : Prop) (G last : List Event)
    (rs : List (Returned α)) : Prop where
  /-- An invocation adds the row of what it returned, and no other. -/
  each : ∀ r ∈ rs, (r.during ++ [r.call]).flatMap (Event.pushedRows env m) = [r.row env m]
  /-- Nothing else is sent, but rows of the invocation that failed. -/
  sent : ∃ sent more, sentRows m.outputColumns (G ++ last) = some sent ∧
    PushedBy env m more last ∧ sent <+: rs.map (Returned.row env m) ++ more
  /-- A group that ended well has sent them all. -/
  all : ended → sentRows m.outputColumns (G ++ last) = some (rs.map (Returned.row env m)) ∧
    rs.length = (G ++ last).countP Event.isRunStart

/-- **One output row for each invocation**, in order, exactly if no function gets a `set_return` of
its own accepted. -/
theorem runGroup_oneRowEach (hext : env.toExtern.Documented) (hm : m.outputIter = .exactlyOnce)
    {udf : LoadedUdf} (hudf : udf.run = fun log => returnsShim (body log)) (w : World) :
    ∃ G last rs, (runGroup env m udf w).2.log = w.log ++ (G ++ last) ∧
      Invocations env m body w.log G rs ∧ Leftover last ∧
      (OneRowEach env m ((runGroup env m udf w).1 = .ok none) G last rs ↔
        ∀ r ∈ rs, ∀ e ∈ r.during, e.Rejected env m) := by
  obtain ⟨G, rs, last, hlog, hrs, hlast, hended⟩ := @runGroup_told env m _ _ _ _ hudf w
  obtain ⟨G', rows, sent, hlog', hpushed, hsent, hle, hall⟩ := runGroup_pushed hext m udf w
  obtain rfl : G ++ last = G' := List.append_cancel_left (hlog.symm.trans hlog')
  refine ⟨G, last, rs, hlog, hrs, hlast, fun h r hr e he => ?_, fun hrejected => ?_⟩
  · have hnone := (Returned.each_iff (hrs.accepted r hr)).mp (h.each r hr) e he
    exact (Event.rejected_iff hm e).mpr hnone
  · have hnone : ∀ r ∈ rs, ∀ e ∈ r.during, e.pushedRows env m = [] :=
      fun r hr e he => (Event.rejected_iff hm e).mp (hrejected r hr e he)
    obtain ⟨hrows, hcomplete⟩ := hrs.pushedRows hnone
    obtain ⟨before, more, rfl, hbefore, hmore⟩ := hpushed.split
    obtain rfl := (hbefore.eq_of_complete hcomplete).trans hrows
    refine ⟨fun r hr => (Returned.each_iff (hrs.accepted r hr)).mpr (hnone r hr),
      ⟨sent, more, hsent, hmore, hle⟩, fun hok => ?_⟩
    -- Nothing is left over, so no row is lost.
    obtain rfl := hended hok
    obtain rfl : more = [] := hmore.eq_of_complete fun _ h => nomatch h
    rw [List.append_nil] at hall hsent hlog ⊢
    obtain rfl := hall hok hcomplete
    rw [List.append_nil] at hsent
    exact ⟨hsent, hrs.countP.symm⟩

end Returns

/-- A RETURNS function, compiled. -/
def LoadedUdf.returning {α : Type} [IntoValue α]
    (body : List Event → Prog CtxOp CtxAns (BodyExit (Option α))) : LoadedUdf :=
  { LoadedUdf.emitting fun log => returnsShim (body log) with outputShape := .returns }

/-- A group of two rows, and a function that returns a constant. -/
theorem runGroup_oneRowEach_sample :
    let body : List Event → Prog CtxOp CtxAns (BodyExit (Option Int32)) :=
      fun _ => .done (.ok (some 7))
    let udf := LoadedUdf.returning body
    let w := World.running [batchResponse [1, 2], .ofType .mtDone, .ofType .mtEmit]
    let env := Env.reference udf
    let m := integerMeta 1 1
    ∃ G last rs, (runGroup env m udf w).2.log = w.log ++ (G ++ last) ∧
      Invocations env m body w.log G rs ∧ Leftover last ∧
      (OneRowEach env m ((runGroup env m udf w).1 = .ok none) G last rs ↔
        ∀ r ∈ rs, ∀ e ∈ r.during, e.Rejected env m) := by
  intro body udf w env m
  exact runGroup_oneRowEach Extern.reference_documented rfl rfl w

/-- A function that calls `set_return` itself before it returns adds two rows. -/
theorem runGroup_not_oneRowEach :
    ¬ ∀ (env : Env) (m : UdfMeta), env.toExtern.Documented → m.outputIter = .exactlyOnce →
      ∀ (α : Type) [IntoValue α] (body : List Event → Prog CtxOp CtxAns (BodyExit (Option α)))
        (udf : LoadedUdf) (w : World) (G : List Event),
        udf.run = (fun log => returnsShim (body log)) → (runGroup env m udf w).1 = .ok none →
        (runGroup env m udf w).2.log = w.log ++ G →
        ∃ sent, sentRows m.outputColumns G = some sent ∧
          sent.length = G.countP Event.isRunStart := by
  intro hclaim
  let body : List Event → Prog CtxOp CtxAns (BodyExit (Option Int32)) :=
    fun _ => .call (.setReturn (some (.int32 1))) fun _ => .done (.ok (some 2))
  let udf := LoadedUdf.returning body
  let w := World.running [batchResponse [1], .ofType .mtDone, .ofType .mtEmit]
  let env := Env.reference udf
  let m := integerMeta 1 1
  have hok : (runGroup env m udf w).1.toOption.map Option.isNone = some true := by decide +kernel
  have hended : (runGroup env m udf w).1 = .ok none := by
    generalize (runGroup env m udf w).1 = res at hok
    obtain e | (- | early) := res
    · cases hok
    · rfl
    · cases hok
  have hsent : (sentRows m.outputColumns (runGroup env m udf w).2.log).map List.length
      = some 2 := by
    decide +kernel
  have hruns : (runGroup env m udf w).2.log.countP Event.isRunStart = 1 := by decide +kernel
  have hlog : (runGroup env m udf w).2.log = w.log ++ (runGroup env m udf w).2.log := by
    rw [show w.log = [] from rfl, List.nil_append]
  obtain ⟨sent, hrows, hlen⟩ := hclaim env m Extern.reference_documented rfl Int32 body udf w _ rfl
    hended hlog
  rw [hrows, Option.map_some, hlen, hruns] at hsent
  cases hsent

end ExaUdf
