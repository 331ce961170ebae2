import ExaUdf.Equiv.MockSession

/-!
# A group within a run cycle of the mock database

`InCycle` is the state of a group within a run cycle.  The operations of the bridge meet it: what is
emitted is acknowledged, and the rows come in the order of the cycle's batches, with their numbers.
-/

namespace ExaUdf

/-! ### Rows with their numbers -/

namespace InputRowSet

variable {rs : InputRowSet}

/-- The rows from the current one on, with their numbers. -/
def ahead (rs : InputRowSet) : List (UInt64 × List Value) :=
  (List.range' rs.currentRow (rs.nRows - rs.currentRow)).map fun i =>
    (rs.rowNumbers.getD i 0, rs.rowCells i)

theorem ahead_cons (h : rs.currentRow < rs.nRows) :
    rs.ahead = (rs.currentRowNumber, rs.rowCells rs.currentRow)
      :: { rs with currentRow := rs.currentRow + 1 }.ahead := by
  obtain ⟨k, hk⟩ : ∃ k, rs.nRows - rs.currentRow = k + 1 := ⟨rs.nRows - rs.currentRow - 1, by omega⟩
  have hrest : rs.nRows - (rs.currentRow + 1) = k := by omega
  show List.map _ (List.range' _ (rs.nRows - rs.currentRow)) = _ :: List.map _ (List.range' _
    (rs.nRows - (rs.currentRow + 1)))
  rw [hk, hrest, List.range'_succ]
  rfl

theorem ahead_nil (h : rs.nRows ≤ rs.currentRow) : rs.ahead = [] := by
  rw [ahead, Nat.sub_eq_zero_of_le h]
  rfl

end InputRowSet

/-- The rows of a batch, with their numbers; none if it does not decode. -/
def numberedRows (env : Env) (m : UdfMeta) (table : ExascriptTableData) :
    List (UInt64 × List Value) :=
  match InputRowSet.decode env.toExtern table m.inputColumns with
  | .ok rs => rs.ahead
  | .error _ => []

theorem numberedRows_of_decode {env : Env} {m : UdfMeta} {table : ExascriptTableData}
    {rs : InputRowSet} (h : InputRowSet.decode env.toExtern table m.inputColumns = .ok rs) :
    numberedRows env m table = rs.ahead := by
  rw [numberedRows, h]

namespace MockDb

open HostContextBridge

variable {fx : Fixture} {env : Env} {m : UdfMeta} {T : List Frame} {w w' w'' : World}
  {d d' : State} {f : Frame}

/-! ### Within a run cycle -/

/-- What has been sent is a part of `T`. -/
def SentOf (T : List Frame) (w : World) : Prop :=
  sends w.log <+: T

theorem SentOf.of_log (h : SentOf T w') (hlog : w.log <+: w'.log) : SentOf T w :=
  (hlog.filterMap Event.sent?).trans h

/-- A runtime within a run cycle, which in the end has sent `T`. -/
structure InCycle (fx : Fixture) (T : List Frame) (w : World) (d : State) : Prop where
  coupled : ∃ F, Coupled fx w d F ∧ sends w.log ++ F = T
  running : d.stage = .running

theorem InCycle.live (h : InCycle fx T w d) : w.dead = false := by
  obtain ⟨F, hcoupled, -⟩ := h.coupled
  exact hcoupled.live

/-- Between these worlds, calls have accepted these rows. -/
def Accepted (env : Env) (m : UdfMeta) (w w' : World) (rows : List WireRow) : Prop :=
  ∃ G, w'.log = w.log ++ G ∧ acceptedRows env.toExtern m.outputColumns G = rows

theorem Accepted.refl (env : Env) (m : UdfMeta) (w : World) : Accepted env m w w [] :=
  ⟨[], (List.append_nil _).symm, rfl⟩

theorem Accepted.trans {rows rows' : List WireRow} (h : Accepted env m w w' rows)
    (h' : Accepted env m w' w'' rows') : Accepted env m w w'' (rows ++ rows') := by
  obtain ⟨G, hlog, hrows⟩ := h
  obtain ⟨G', hlog', hrows'⟩ := h'
  refine ⟨G ++ G', by rw [hlog', hlog, List.append_assoc], ?_⟩
  rw [acceptedRows_append, hrows, hrows']

theorem Accepted.push (env : Env) (m : UdfMeta) (w : World) (e : Event) :
    Accepted env m w (w.push e) (e.acceptedRows env.toExtern m.outputColumns) :=
  ⟨[e], rfl, List.append_nil _⟩

/-- An event that sends nothing. -/
theorem InCycle.push (h : InCycle fx T w d) {e : Event} (he : e.sent? = none) :
    InCycle fx T (w.push e) d := by
  obtain ⟨F, hcoupled, hT⟩ := h.coupled
  refine ⟨⟨F, ⟨hcoupled.live, hcoupled.phase, hcoupled.inbox⟩, ?_⟩, h.running⟩
  show sends (w.log ++ [e]) ++ F = T
  rw [sends_append, show sends [e] = [] from List.filterMap_cons_none he, List.append_nil, hT]

/-- **An exchange of a run cycle**, unless it is a lookup. -/
theorem InCycle.request (h : InCycle fx T w d) (hf : f.IsInner)
    (hlookup : f.messageType ≠ MessageType.mtImport.toI32)
    (hsent : SentOf T (w.request env f).2) :
    ∃ r d' event, Answered fx d f r d' event ∧ (w.request env f).1 = .ok event ∧
      InCycle fx T (w.request env f).2 d' ∧ Accepted env m w (w.request env f).2 [] := by
  obtain ⟨F, hcoupled, hT⟩ := h.coupled
  obtain ⟨G, hlog, -, hone⟩ := Coupled.exists_log fx env f w
  obtain ⟨F', hF⟩ : sends G <+: F := by
    rw [SentOf, hlog, sends_append, ← hT] at hsent
    exact (List.prefix_append_right_inj _).mp hsent
  rw [← hF] at hcoupled
  obtain ⟨hsends, hfirst⟩ := hone d F' hcoupled
  rcases hanswer : fx.peer d f with _ | ⟨r, d'⟩
  · exact absurd (lookup_of_refused hanswer h.running hf) hlookup
  · obtain ⟨event, hanswered, hres, hcoupled', hlog'⟩ := hfirst.request_answered env hanswer
    obtain ⟨-, hstage, -⟩ := hanswered.inner h.running hf
    refine ⟨r, d', event, hanswered, hres, ⟨⟨F', hcoupled', ?_⟩, hstage⟩, _, hlog', rfl⟩
    rw [hlog, sends_append, List.append_assoc, hF, hT]

/-- `MT_NEXT` brings the next batch of the cycle. -/
theorem InCycle.next (m : UdfMeta) (h : InCycle fx T w d)
    (hsent : SentOf T (w.request env (.request w.proto.nextRequest)).2) :
    ∃ d', InCycle fx T (w.request env (.request w.proto.nextRequest)).2 d' ∧
      Accepted env m w (w.request env (.request w.proto.nextRequest)).2 [] ∧
      ((∃ table, (w.request env (.request w.proto.nextRequest)).1 = .ok (.nextData table) ∧
        d.input = table :: d'.input) ∨
      (w.request env (.request w.proto.nextRequest)).1 = .ok .done ∧ d.input = [] ∧
        d'.input = []) := by
  have hnext : (Frame.request w.proto.nextRequest).messageType = MessageType.mtNext.toI32 := rfl
  obtain ⟨r, d', event, hanswered, hres, hcycle, haccepted⟩ :=
    @InCycle.request _ _ m _ _ _ _ h (.next hnext) (by rw [hnext]; decide) hsent
  refine ⟨d', hcycle, haccepted, ?_⟩
  cases hanswered with
  | next _ _ hinput => exact .inl ⟨_, hres, hinput⟩
  | ended _ _ hinput => exact .inr ⟨hres, hinput, hinput⟩
  | emit _ hf => cases hf
  | client hstage | metadata hstage | run hstage | cleanup hstage | finished hstage =>
    rw [h.running] at hstage
    cases hstage
  | done _ htype => cases toI32_inj (hnext.symm.trans htype)

/-- `MT_EMIT` is acknowledged. -/
theorem InCycle.emit (m : UdfMeta) (h : InCycle fx T w d) {r : EmitRequest}
    (hsent : SentOf T (w.request env (.emit r)).2) :
    ∃ d' event, (w.request env (.emit r)).1 = .ok event ∧
      InCycle fx T (w.request env (.emit r)).2 d' ∧ d'.input = d.input ∧
      Accepted env m w (w.request env (.emit r)).2 [] := by
  have hemit : (Frame.emit r).messageType = MessageType.mtEmit.toI32 := rfl
  obtain ⟨q, d', event, hanswered, hres, hcycle, haccepted⟩ :=
    @InCycle.request _ _ m _ _ _ _ h (.emit r) (by rw [hemit]; decide) hsent
  refine ⟨d', event, hres, hcycle, ?_, haccepted⟩
  obtain ⟨-, -, -, -, -, hinput, -, hack⟩ := hanswered.inner h.running (.emit r)
  obtain rfl := hack r rfl
  exact hinput.symm

/-! ### Output -/

/-- A step from `w` to `w'` within the cycle, which accepts `rows` and takes no input. -/
def Keeps (fx : Fixture) (env : Env) (m : UdfMeta) (T : List Frame) (d : State) (w w' : World)
    (rows : List WireRow) : Prop :=
  ∃ d', InCycle fx T w' d' ∧ d'.input = d.input ∧ Accepted env m w w' rows

theorem InCycle.keeps (h : InCycle fx T w d) : Keeps fx env m T d w w [] :=
  ⟨d, h, rfl, .refl env m w⟩

theorem emitFlusher_cycle (m : UdfMeta) (h : InCycle fx T w d) {table : EmitTable}
    (hsent : SentOf T (emitFlusher env table w).2) :
    (emitFlusher env table w).1 = .ok () ∧
      Keeps fx env m T d w (emitFlusher env table w).2 [] := by
  unfold emitFlusher at hsent ⊢
  split_ifs at hsent ⊢ with hrows
  · exact ⟨rfl, h.keeps⟩
  have hemit := fun r hsent => @InCycle.emit fx env T w d m h r hsent
  specialize hemit (w.proto.emitRequest table)
  generalize w.request env (.emit (w.proto.emitRequest table)) = r at hemit hsent ⊢
  obtain ⟨e | event, w'⟩ := r
  · obtain ⟨d', event, hres, -⟩ := hemit hsent
    cases hres
  · obtain ⟨d', event', -, hcycle, hinput, haccepted⟩ := hemit hsent
    exact ⟨rfl, d', hcycle, hinput, haccepted⟩

/-- A row that fits is accepted. -/
theorem pushOutputRow_cycle {b : HostContextBridge} (h : InCycle fx T b.world d)
    {row : List Value} (hfits : (checkOutputRow env.toExtern row m.outputColumns).isOk = true)
    (hsent : SentOf T (b.pushOutputRow env m row).2.world) :
    (b.pushOutputRow env m row).1 = .ok () ∧ (b.pushOutputRow env m row).2.exit = b.exit ∧
      Keeps fx env m T d b.world (b.pushOutputRow env m row).2.world [] := by
  unfold pushOutputRow at hsent ⊢
  cases hcheck : checkOutputRow env.toExtern row m.outputColumns with
  | error e =>
    rw [hcheck] at hfits
    cases hfits
  | ok rowCost =>
    simp only [hcheck] at hsent ⊢
    split_ifs at hsent ⊢
    · obtain ⟨hres, hkeeps⟩ := emitFlusher_cycle m h hsent
      exact ⟨hres, rfl, hkeeps⟩
    · exact ⟨rfl, rfl, h.keeps⟩

/-- What is left in the buffer goes out at the end. -/
theorem endGroup_cycle (m : UdfMeta) (fd : Feed) (h : InCycle fx T fd.world d)
    (hexit : fd.exit = none) {buf : EmitBuffer} (hsent : SentOf T (endGroup env fd buf).2) :
    (endGroup env fd buf).1 = .ok none ∧
      Keeps fx env m T d fd.world (endGroup env fd buf).2 [] := by
  unfold endGroup at hsent ⊢
  rw [hexit] at hsent ⊢
  unfold tailFlush EmitBuffer.flush at hsent ⊢
  dsimp only at hsent ⊢
  by_cases hempty : buf.isEmpty = true
  · rw [if_pos hempty]
    exact ⟨rfl, h.keeps⟩
  · rw [if_neg hempty] at hsent ⊢
    have hemit := fun r hsent => @InCycle.emit fx env T fd.world d m h r hsent
    specialize hemit (fd.world.proto.emitRequest buf.table)
    generalize fd.world.request env (.emit (fd.world.proto.emitRequest buf.table)) = r
      at hemit hsent ⊢
    obtain ⟨e | event, w'⟩ := r
    · obtain ⟨d', event, hres, -⟩ := hemit hsent
      cases hres
    · obtain ⟨d', event', -, hcycle, hinput, haccepted⟩ := hemit hsent
      exact ⟨rfl, d', hcycle, hinput, haccepted⟩

/-! ### Input -/

/-- A fetch brings the next batch of the cycle. -/
theorem fetch_cycle (m : UdfMeta) {fd : Feed} (h : InCycle fx T fd.world d)
    (hsent : SentOf T (fd.fetch env).2.world) :
    ∃ d' w', InCycle fx T w' d' ∧ Accepted env m fd.world w' [] ∧
      ((∃ table, fd.fetch env = (.ok (some table), { fd with world := w' }) ∧
        d.input = table :: d'.input) ∨
      fd.fetch env = (.ok none, { fd with world := w' }) ∧ d.input = [] ∧ d'.input = []) := by
  have hrel := feedRel_log env
  have hgrow := (Feed.fetchLoop env).step_rel id Prod.snd
    (R := fun fd fd' => fd.world.log <+: fd'.world.log) hrel.refl hrel.trans hrel.next fd
  have hframe := hsent.of_log (T := T) hgrow
  have hworld := Feed.fetchStep_world env fd
  change SentOf T ((fd.fetchStep env).elim Prod.snd id).world at hframe
  rw [hworld] at hframe
  obtain ⟨d', hcycle, haccepted, hnext⟩ := h.next m hframe
  refine ⟨d', _, hcycle, haccepted, ?_⟩
  have hrun : ∀ {r}, fd.fetchStep env = .inl r → fd.fetch env = r := fun hstep =>
    Loop.run_of_inl (L := Feed.fetchLoop env) hstep
  rcases hr : fd.world.request env (.request fd.world.proto.nextRequest) with ⟨res, w'⟩
  rw [hr] at hnext
  rcases hnext with ⟨table, hres, hinput⟩ | ⟨hres, hinput, hlast⟩
  · obtain rfl : res = .ok (.nextData table) := hres
    exact .inl ⟨table, hrun (by rw [Feed.fetchStep, hr]), hinput⟩
  · obtain rfl : res = .ok .done := hres
    exact .inr ⟨hrun (by rw [Feed.fetchStep, hr]), hinput, hlast⟩

/-- The input of a cycle decodes. -/
def Legible (env : Env) (m : UdfMeta) (tables : List ExascriptTableData) : Prop :=
  ∀ table ∈ tables, Decodes env m table = true

theorem Legible.decode {table : ExascriptTableData} {tables : List ExascriptTableData}
    (h : Legible env m (table :: tables)) :
    ∃ rs, InputRowSet.decode env.toExtern table m.inputColumns = .ok rs := by
  have hdecodes := h table List.mem_cons_self
  unfold Decodes at hdecodes
  cases hdecode : InputRowSet.decode env.toExtern table m.inputColumns with
  | error e =>
    rw [hdecode] at hdecodes
    cases hdecodes
  | ok rs => exact ⟨rs, rfl⟩

/-- The rows to come in a cycle. -/
def State.later (env : Env) (m : UdfMeta) (d : State) : List (UInt64 × List Value) :=
  d.input.flatMap (numberedRows env m)

/-- Batches with rows: the first of them, or that there are none. -/
inductive Loads (env : Env) (m : UdfMeta) (d d' : State) : Option InputRowSet → Prop where
  | some {rs : InputRowSet} : rs.WF → rs.currentRow < rs.nRows →
    d.later env m = rs.ahead ++ d'.later env m → Loads env m d d' (some rs)
  | none : d.later env m = [] → d'.input = [] → Loads env m d d' none

/-- An empty batch is passed over. -/
theorem Loads.skip {table : ExascriptTableData} {rs : InputRowSet} {loaded : Option InputRowSet}
    (h : Loads env m d' d'' loaded) (hinput : d.input = table :: d'.input)
    (hdecode : InputRowSet.decode env.toExtern table m.inputColumns = .ok rs)
    (hempty : rs.nRows = 0) : Loads env m d d'' loaded := by
  have hlater : d.later env m = d'.later env m := by
    rw [State.later, hinput, List.flatMap_cons, numberedRows_of_decode hdecode,
      InputRowSet.ahead_nil (by omega)]
    rfl
  cases h with
  | some hwf hrow hrows => exact .some hwf hrow (hlater.trans hrows)
  | none hnone hinput' => exact .none (hlater.trans hnone) hinput'

/-- What looking for rows makes of a cycle. -/
structure Looked (fx : Fixture) (env : Env) (m : UdfMeta) (T : List Frame) (d : State) (w : World)
    (d' : State) (w' : World) (loaded : Option InputRowSet) : Prop where
  cycle : InCycle fx T w' d'
  accepted : Accepted env m w w' []
  suffix : d'.input <:+ d.input
  loads : Loads env m d d' loaded

theorem Looked.skip {table : ExascriptTableData} {rs : InputRowSet}
    {loaded : Option InputRowSet} (h : Looked fx env m T d' w' d'' w'' loaded)
    (haccepted : Accepted env m w w' []) (hinput : d.input = table :: d'.input)
    (hdecode : InputRowSet.decode env.toExtern table m.inputColumns = .ok rs)
    (hempty : rs.nRows = 0) : Looked fx env m T d w d'' w'' loaded where
  cycle := h.cycle
  accepted := haccepted.trans h.accepted
  suffix := h.suffix.trans (hinput ▸ List.suffix_cons _ _)
  loads := h.loads.skip hinput hdecode hempty

/-- A batch with rows ends the search. -/
theorem Looked.found {table : ExascriptTableData} {rs : InputRowSet}
    (hcycle : InCycle fx T w' d') (haccepted : Accepted env m w w' [])
    (hinput : d.input = table :: d'.input)
    (hdecode : InputRowSet.decode env.toExtern table m.inputColumns = .ok rs)
    (hrows : rs.nRows ≠ 0) : Looked fx env m T d w d' w' (some rs) where
  cycle := hcycle
  accepted := haccepted
  suffix := hinput ▸ List.suffix_cons _ _
  loads := by
    refine .some (InputRowSet.decode_wf hdecode) ?_ ?_
    · rw [(InputRowSet.decode_ok hdecode).2]
      exact Nat.pos_of_ne_zero hrows
    · rw [State.later, hinput, List.flatMap_cons, numberedRows_of_decode hdecode]
      rfl

/-- The end of the input ends the search. -/
theorem Looked.ended (hcycle : InCycle fx T w' d') (haccepted : Accepted env m w w' [])
    (hinput : d.input = []) (hinput' : d'.input = []) : Looked fx env m T d w d' w' none where
  cycle := hcycle
  accepted := haccepted
  suffix := by rw [hinput, hinput']
  loads := .none (by rw [State.later, hinput]; rfl) hinput'

/-- Nothing that the first fetch has sent is taken back. -/
theorem firstNonemptyInput_fetches (env : Env) (m : UdfMeta) (fd : Feed) :
    (fd.fetch env).2.world.log <+: ((firstNonemptyInput env m).run fd).2.world.log := by
  have hrel := feedRel_log env
  have hround : ∀ fd, ((firstNonemptyInputStep env m fd).elim Prod.snd id) = (fd.fetch env).2 := by
    intro fd
    unfold firstNonemptyInputStep
    rcases fd.fetch env with ⟨e | - | table, fd'⟩
    · rfl
    · rfl
    · dsimp only
      cases InputRowSet.fromProto env.toExtern table m.inputColumns with
      | error e => rfl
      | ok rows =>
        dsimp only
        split_ifs <;> rfl
  rw [← hround fd]
  refine (firstNonemptyInput env m).step_rel id Prod.snd
    (R := fun fd fd' => fd.world.log <+: fd'.world.log) hrel.refl hrel.trans (fun fd => ?_) fd
  show fd.world.log <+: ((firstNonemptyInputStep env m fd).elim Prod.snd id).world.log
  rw [hround]
  exact hrel.toFetchRel.fetch fd

/-- A group begins with the first batch that has rows. -/
theorem firstNonemptyInput_cycle (m : UdfMeta) (fd : Feed) (h : InCycle fx T fd.world d)
    (hlegible : Legible env m d.input)
    (hsent : SentOf T ((firstNonemptyInput env m).run fd).2.world) :
    ∃ loaded w' d', (firstNonemptyInput env m).run fd = (.ok loaded, { fd with world := w' }) ∧
      Looked fx env m T d fd.world d' w' loaded := by
  induction fd using (firstNonemptyInput env m).induct generalizing d with
  | _ fd ih =>
    have hfetched := firstNonemptyInput_fetches env m fd
    obtain ⟨d', w', hcycle, haccepted, hfetch⟩ := fetch_cycle m h (hsent.of_log hfetched)
    rcases hfetch with ⟨table, hfetch, hinput⟩ | ⟨hfetch, hinput, hinput'⟩
    · rw [hinput] at hlegible
      obtain ⟨rs, hdecode⟩ := hlegible.decode
      by_cases hempty : rs.nRows = 0
      · have hstep : firstNonemptyInputStep env m fd = .inr { fd with world := w' } := by
          simp [firstNonemptyInputStep, hfetch, InputRowSet.fromProto, hdecode,
            InputRowSet.isEmpty, hempty]
        have hrun : (firstNonemptyInput env m).run fd = _ := Loop.run_of_inr hstep
        rw [hrun] at hsent ⊢
        obtain ⟨loaded, w'', d'', hrest, hlooked⟩ :=
          ih _ hstep hcycle (fun t ht => hlegible t (List.mem_cons_of_mem _ ht)) hsent
        exact ⟨loaded, w'', d'', hrest, hlooked.skip haccepted hinput hdecode hempty⟩
      · have hstep : firstNonemptyInputStep env m fd = .inl (.ok (some rs), { fd with world := w' })
            := by
          simp [firstNonemptyInputStep, hfetch, InputRowSet.fromProto, hdecode,
            InputRowSet.isEmpty, hempty]
        exact ⟨some rs, w', d', Loop.run_of_inl hstep,
          .found hcycle haccepted hinput hdecode hempty⟩
    · have hstep : firstNonemptyInputStep env m fd = .inl (.ok none, { fd with world := w' }) := by
        rw [firstNonemptyInputStep, hfetch]
      exact ⟨none, w', d', Loop.run_of_inl hstep, .ended hcycle haccepted hinput hinput'⟩

/-- Nothing that the first fetch has sent is taken back. -/
theorem refill_fetches (env : Env) (m : UdfMeta) (b : HostContextBridge) :
    (b.toFeed.fetch env).2.world.log <+: (b.refill env m).2.world.log := by
  have hrel := feedRel_log env
  have hrest := (refillLoop env m).step_rel toFeed (fun r => r.2.toFeed)
    (R := fun fd fd' => fd.world.log <+: fd'.world.log) hrel.refl hrel.trans
    (refillStep_rel m hrel.toFetchRel) b
  change ((b.refillStep env m).elim (fun r => r.2.toFeed) toFeed).world.log <+: _ at hrest
  rwa [refillStep_feed] at hrest

/-- A batch that has been used up is followed by the next one that has rows.  At the end the bridge
is left with what it had, or with an empty batch. -/
theorem refill_cycle (m : UdfMeta) {b : HostContextBridge} (h : InCycle fx T b.world d)
    (hlegible : Legible env m d.input) (hsent : SentOf T (b.refill env m).2.world) :
    ∃ loaded w' d' input, b.refill env m = (.ok loaded.isSome, { b with world := w', input }) ∧
      Looked fx env m T d b.world d' w' loaded ∧ (∀ rs, loaded = some rs → input = rs) ∧
      (d.input = [] → input = b.input) := by
  induction b using (refillLoop env m).induct generalizing d with
  | _ b ih =>
    obtain ⟨d', w', hcycle, haccepted, hfetch⟩ :=
      fetch_cycle m h (hsent.of_log (refill_fetches env m b))
    rcases hfetch with ⟨table, hfetch, hinput⟩ | ⟨hfetch, hinput, hinput'⟩
    · rw [hinput] at hlegible
      obtain ⟨rs, hdecode⟩ := hlegible.decode
      by_cases hempty : rs.nRows = 0
      · have hstep : b.refillStep env m = .inr { b with world := w', input := rs } := by
          simp [refillStep, hfetch, InputRowSet.reload, hdecode, InputRowSet.isEmpty, hempty]
        have hrun : b.refill env m = _ := Loop.run_of_inr (L := refillLoop env m) hstep
        rw [hrun] at hsent ⊢
        obtain ⟨loaded, w'', d'', input, hrest, hlooked, hloaded, -⟩ :=
          ih _ hstep hcycle (fun t ht => hlegible t (List.mem_cons_of_mem _ ht)) hsent
        refine ⟨loaded, w'', d'', input, hrest, hlooked.skip haccepted hinput hdecode hempty,
          hloaded, fun hnone => ?_⟩
        rw [hinput] at hnone
        cases hnone
      · have hstep : b.refillStep env m = .inl (.ok true, { b with world := w', input := rs }) := by
          simp [refillStep, hfetch, InputRowSet.reload, hdecode, InputRowSet.isEmpty, hempty]
        refine ⟨some rs, w', d', rs, Loop.run_of_inl (L := refillLoop env m) hstep,
          .found hcycle haccepted hinput hdecode hempty, fun _ h => Option.some.inj h,
          fun hnone => ?_⟩
        rw [hinput] at hnone
        cases hnone
    · have hstep : b.refillStep env m = .inl (.ok false, { b with world := w' }) := by
        rw [refillStep, hfetch]
      exact ⟨none, w', d', b.input, Loop.run_of_inl (L := refillLoop env m) hstep,
        .ended hcycle haccepted hinput hinput', by simp, fun _ => rfl⟩

/-- The row after the current one, in this batch or in a later one. -/
theorem advanceRow_cycle (m : UdfMeta) {b : HostContextBridge} (h : InCycle fx T b.world d)
    (hlegible : Legible env m d.input) (hwf : b.input.WF)
    (hrow : b.input.currentRow < b.input.nRows)
    (hsent : SentOf T (b.advanceRow env m).2.world) :
    ∃ more w' d' input, b.advanceRow env m = (.ok more, { b with world := w', input }) ∧
      InCycle fx T w' d' ∧ Accepted env m b.world w' [] ∧ d'.input <:+ d.input ∧
      (d.input = [] → more = false → input = b.input) ∧
      (if more then input.WF ∧ input.currentRow < input.nRows ∧
        b.input.ahead ++ d.later env m = (b.input.currentRowNumber, b.input.rowCells
          b.input.currentRow) :: (input.ahead ++ d'.later env m)
      else b.input.ahead ++ d.later env m = [(b.input.currentRowNumber, b.input.rowCells
          b.input.currentRow)] ∧ d.later env m = [] ∧ d'.input = []) := by
  by_cases hmore : b.input.currentRow + 1 < b.input.nRows
  · have hadvance : b.advanceRow env m
        = (.ok true, { b with input.currentRow := b.input.currentRow + 1 }) := by
      simp only [advanceRow, InputRowSet.advance, if_pos hmore]
    refine ⟨true, b.world, d, _, hadvance, h, .refl env m _, List.suffix_rfl, by simp, ?_⟩
    rw [if_pos rfl]
    refine ⟨⟨hwf.cells, hwf.rowNumbers, .inr hmore⟩, hmore, ?_⟩
    rw [InputRowSet.ahead_cons hrow]
    rfl
  · have hadvance : b.advanceRow env m = b.refill env m := by
      simp only [advanceRow, InputRowSet.advance, if_neg hmore]
    rw [hadvance] at hsent ⊢
    obtain ⟨loaded, w', d', input, hrefill, hlooked, hloaded, hkept⟩ :=
      refill_cycle m h hlegible hsent
    have hlast : b.input.ahead = [(b.input.currentRowNumber, b.input.rowCells
        b.input.currentRow)] := by
      rw [InputRowSet.ahead_cons hrow, InputRowSet.ahead_nil (Nat.le_of_not_lt hmore)]
    refine ⟨_, w', d', input, hrefill, hlooked.cycle, hlooked.accepted, hlooked.suffix,
      fun hnone _ => hkept hnone, ?_⟩
    rw [hlast]
    obtain hloads := hlooked.loads
    cases hloads with
    | @some rs hwf' hrow' hlater =>
      obtain rfl := hloaded rs rfl
      exact ⟨hwf', hrow', by rw [hlater]; rfl⟩
    | none hlater hinput' => exact ⟨by rw [hlater]; rfl, hlater, hinput'⟩

end MockDb

end ExaUdf
