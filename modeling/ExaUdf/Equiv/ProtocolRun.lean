import ExaUdf.Equiv.Protocol

/-!
# Runs of the protocol state machine

`Protocol.discipline` is what holds of every step after any sequence of responses, by the invariant
`Disciplined`.  `Protocol.phases_forward` says when the phases of a run only move forward: exactly
when no `MT_CLEANUP` comes after `MT_FINISHED` or `MT_CLOSE`.
-/

namespace ExaUdf

namespace Protocol

/-- The state after a sequence of responses. -/
def after (rs : List ExascriptResponse) : Protocol :=
  rs.foldl (fun p r => (p.step r).2) new

/-- The events of a run that starts in state `p`. -/
def eventsFrom : Protocol → List ExascriptResponse → List HostEvent
  | _, [] => []
  | p, r :: rs => ((p.step r).1.toOption.map Prod.fst).toList ++ eventsFrom (p.step r).2 rs

def events (rs : List ExascriptResponse) : List HostEvent :=
  eventsFrom new rs

/-- The metadata that a run has brought. -/
def metas (rs : List ExascriptResponse) : List UdfMeta :=
  (events rs).filterMap fun
    | .udfMeta m => some m
    | _ => none

/-- The information of the most recent `MT_INFO`. -/
def lastInfo (rs : List ExascriptResponse) : Option ExascriptInfo :=
  (rs.filterMap ExascriptResponse.info?).getLast?

@[simp] theorem after_concat (rs : List ExascriptResponse) (r : ExascriptResponse) :
    after (rs ++ [r]) = ((after rs).step r).2 := by
  unfold after
  rw [List.foldl_append]
  rfl

theorem events_concat (rs : List ExascriptResponse) (r : ExascriptResponse) :
    events (rs ++ [r]) = events rs ++ (((after rs).step r).1.toOption.map Prod.fst).toList := by
  have hfrom : ∀ p, eventsFrom p (rs ++ [r]) = eventsFrom p rs
      ++ (((rs.foldl (fun p r => (p.step r).2) p).step r).1.toOption.map Prod.fst).toList := by
    induction rs with
    | nil =>
      intro p
      rw [List.nil_append, eventsFrom, eventsFrom, eventsFrom, List.append_nil]
      rfl
    | cons r' rs ih =>
      intro p
      rw [List.cons_append, eventsFrom, eventsFrom, ih, List.append_assoc]
      rfl
  exact hfrom new

theorem lastInfo_concat_none {r : ExascriptResponse} (h : r.info? = none)
    (rs : List ExascriptResponse) : lastInfo (rs ++ [r]) = lastInfo rs := by
  unfold lastInfo
  rw [List.filterMap_append, List.filterMap_cons_none h, List.filterMap_nil, List.append_nil]

theorem lastInfo_concat_some {r : ExascriptResponse} {info : ExascriptInfo}
    (h : r.info? = some info) (rs : List ExascriptResponse) :
    lastInfo (rs ++ [r]) = some info := by
  unfold lastInfo
  rw [List.filterMap_append, List.filterMap_cons_some h, List.filterMap_nil, List.getLast?_concat]

/-! ### Requests -/

/-- A request that the state machine builds. -/
inductive Builds (p : Protocol) : Frame → Prop where
  | client (name : String) : Builds p (.request (p.clientRequest name))
  | metadata : Builds p (.request p.metaRequest)
  | run : Builds p (.request p.runRequest)
  | next : Builds p (.request p.nextRequest)
  | emit (table : EmitTable) : Builds p (.emit (p.emitRequest table))
  | done : Builds p (.request p.doneRequest)
  | finished : Builds p (.request p.finishedReply)
  | close (message : Option String) : Builds p (.request (p.closeRequest message))
  | errorClose (code : Nat) (message : String) :
    Builds p (.request (p.errorCloseRequest code message))
  | ping (metaInfo : String) : Builds p (.request (p.pingReply metaInfo))
  | result (text : String) : Builds p (.request (p.returnRequest text))
  | undefinedCall (fn : String) : Builds p (.request (p.undefinedCallRequest fn))
  | importConnection (name : String) : Builds p (.request (p.importConnectionRequest name))

def frameConnectionId : Frame → UInt64
  | .request r => r.connectionId
  | .emit r => r.connectionId

theorem Builds.connectionId {p : Protocol} {f : Frame} (h : Builds p f) :
    frameConnectionId f = p.connectionId := by
  cases h <;> rfl

theorem step_connectionId (p : Protocol) (r : ExascriptResponse) :
    (p.step r).2.connectionId = r.connectionId := by
  have hspec := p.step_spec r
  generalize p.step r = stepped at hspec
  cases hspec <;> rfl

/-! ### Discipline -/

/-- What holds after any sequence of responses. -/
structure Disciplined (rs : List ExascriptResponse) : Prop where
  handshake : (after rs).phase = .handshake → metas rs = [] ∧ (after rs).pendingInfo = lastInfo rs
  run : (after rs).phase = .run →
    ∃ m, metas rs = [m] ∧ m.singleCallMode = (after rs).singleCallMode
  alive : (after rs).phase = .handshake ∨ (after rs).phase = .run →
    ∀ event ∈ events rs, event.isTeardown = false
  once : (metas rs).length ≤ 1

theorem metas_concat (rs : List ExascriptResponse) (r : ExascriptResponse) :
    metas (rs ++ [r]) = metas rs ++ (match ((after rs).step r).1 with
      | .ok (.udfMeta m, _) => [m]
      | _ => []) := by
  unfold metas
  rw [events_concat, List.filterMap_append]
  congr 1
  rcases ((after rs).step r).1 with e | ⟨event, action⟩
  · rfl
  · cases event <;> rfl

/-- A step that keeps the phase, and whose event is neither metadata nor the end. -/
theorem Disciplined.heard {rs : List ExascriptResponse} (h : Disciplined rs)
    {r : ExascriptResponse} (hstep : ((after rs).step r).2 = (after rs).heard r)
    (hmetas : metas (rs ++ [r]) = metas rs)
    (hinfo : (after rs).phase = .handshake → r.info? = none)
    (hevents : ∀ event ∈ (((after rs).step r).1.toOption.map Prod.fst).toList,
      event.isTeardown = false) : Disciplined (rs ++ [r]) := by
  have hafter : after (rs ++ [r]) = (after rs).heard r := by rw [after_concat, hstep]
  constructor
  · intro hphase
    rw [hafter] at hphase ⊢
    obtain ⟨hnone, hpending⟩ := h.handshake hphase
    rw [hmetas, lastInfo_concat_none (hinfo hphase)]
    exact ⟨hnone, hpending⟩
  · intro hphase
    rw [hafter] at hphase ⊢
    rw [hmetas]
    exact h.run hphase
  · intro hphase event hevent
    rw [hafter] at hphase
    rw [events_concat] at hevent
    exact (List.mem_append.mp hevent).elim (h.alive hphase event) (hevents event)
  · rw [hmetas]
    exact h.once

theorem disciplined (rs : List ExascriptResponse) : Disciplined rs := by
  induction rs using List.reverseRecOn with
  | nil =>
    exact ⟨fun _ => ⟨rfl, rfl⟩, (fun h => nomatch h), (fun _ _ h => nomatch h), Nat.zero_le _⟩
  | append_singleton rs r ih =>
    -- One case for each way in which the state machine can take the last response.
    have hspec := (after rs).step_spec r
    have hmetas := metas_concat rs r
    have hevents := events_concat rs r
    generalize hstep : (after rs).step r = stepped at hspec hmetas hevents
    have hafter : after (rs ++ [r]) = stepped.2 := by rw [after_concat, hstep]
    cases hspec with
    | error e htear hover hinfo =>
      refine ih.heard (by rw [hstep]) (hmetas.trans (List.append_nil _)) hinfo ?_
      rw [hstep]
      exact fun _ h => nomatch h
    -- A further `MT_INFO` of the handshake takes the place of the one before.
    | pending info hphase hinfo =>
      obtain ⟨hnone, -⟩ := ih.handshake hphase
      have hmetas' := hmetas.trans (List.append_nil _)
      refine ⟨fun _ => ?_, fun h => ?_, fun _ event hevent => ?_, ?_⟩
      · rw [hmetas', hafter, lastInfo_concat_some hinfo]
        exact ⟨hnone, rfl⟩
      · rw [hafter] at h
        cases hphase.symm.trans h
      · rw [hevents] at hevent
        refine (List.mem_append.mp hevent).elim (ih.alive (.inl hphase) event) fun h => ?_
        rw [List.mem_singleton.mp h]
        rfl
      · rw [hmetas']
        exact ih.once
    -- The only way into the run phase, where `metas` gets its single element.
    | metadata md info hphase =>
      obtain ⟨hnone, -⟩ := ih.handshake hphase
      rw [hnone] at hmetas
      refine ⟨fun h => ?_, fun _ => ⟨_, hmetas, ?_⟩, fun _ event hevent => ?_, ?_⟩
      · rw [hafter] at h
        cases h
      · rw [hafter]
        rfl
      · rw [hevents] at hevent
        refine (List.mem_append.mp hevent).elim (ih.alive (.inl hphase) event) fun h => ?_
        rw [List.mem_singleton.mp h]
        rfl
      · rw [hmetas]
        exact Nat.le_refl _
    | running event hrunning hphase _ _ =>
      have hplain : metas (rs ++ [r]) = metas rs ∧ event.isTeardown = false := by
        rw [hmetas]
        cases event <;> first | exact ⟨List.append_nil _, rfl⟩ | cases hrunning
      refine ih.heard (by rw [hstep]) hplain.1 (fun h => nomatch hphase.symm.trans h) ?_
      rw [hstep]
      exact fun _ h => List.mem_singleton.mp h ▸ hplain.2
    | ping s _ _ hinfo =>
      refine ih.heard (by rw [hstep]) (hmetas.trans (List.append_nil _)) (fun _ => hinfo) ?_
      rw [hstep]
      exact fun _ h => List.mem_singleton.mp h ▸ rfl
    | incidental event hevent _ _ hinfo =>
      have hplain : metas (rs ++ [r]) = metas rs ∧ event.isTeardown = false := by
        rw [hmetas]
        cases event <;> first | exact ⟨List.append_nil _, rfl⟩ | cases hevent
      refine ih.heard (by rw [hstep]) hplain.1 (fun _ => hinfo) ?_
      rw [hstep]
      exact fun _ h => List.mem_singleton.mp h ▸ hplain.2
    | cleanup | finished | close =>
      refine ⟨fun h => ?_, fun h => ?_, fun h => ?_, ?_⟩
      · rw [hafter] at h
        cases h
      · rw [hafter] at h
        cases h
      · rw [hafter] at h
        rcases h with h | h <;> cases h
      · rw [hmetas.trans (List.append_nil _)]
        exact ih.once

theorem step_error {p : Protocol} {r : ExascriptResponse} {e : ProtocolError}
    (h : (p.step r).1 = .error e) : (p.step r).2 = p.heard r := by
  have hspec := p.step_spec r
  generalize p.step r = stepped at hspec h
  cases hspec with
  | error => rfl
  | _ => cases h

theorem step_metadata {p : Protocol} {r : ExascriptResponse} {m : UdfMeta}
    {action : Option HostAction} (h : (p.step r).1 = .ok (.udfMeta m, action)) :
    p.phase = .handshake ∧ ∃ metadata info, r.metadata = some metadata ∧
      p.pendingInfo = some info ∧ m = .fromPb metadata info := by
  have hspec := p.step_spec r
  generalize p.step r = stepped at hspec h
  cases hspec with
  | metadata md info hphase hmd hpending =>
    cases h
    exact ⟨hphase, md, info, hmd, hpending, rfl⟩
  | running event hrunning =>
    cases h
    cases hrunning
  | incidental event hevent =>
    cases h
    cases hevent
  | _ => cases h

theorem isRunning_of_isIncidental {event : HostEvent} (h : event.isIncidental = true) :
    event.isRunning = false := by
  cases event <;> first | rfl | cases h

theorem step_running {p : Protocol} {r : ExascriptResponse} {event : HostEvent}
    {action : Option HostAction} (h : (p.step r).1 = .ok (event, action))
    (hrunning : event.isRunning = true) :
    p.phase = .run ∧ (event.isSingleCall = true → p.singleCallMode = true) := by
  have hspec := p.step_spec r
  generalize p.step r = stepped at hspec h
  cases hspec with
  | error => cases h
  | running event' _ hphase hmode =>
    cases h
    exact ⟨hphase, hmode⟩
  | incidental event' hevent =>
    cases h
    rw [isRunning_of_isIncidental hevent] at hrunning
    cases hrunning
  | _ =>
    cases h
    cases hrunning

theorem step_metaRequest {p : Protocol} {r : ExascriptResponse} {event : HostEvent}
    (h : (p.step r).1 = .ok (event, some .metaRequest)) :
    p.phase = .handshake ∧ event = .pending := by
  have hspec := p.step_spec r
  generalize p.step r = stepped at hspec h
  cases hspec with
  | pending info hphase =>
    cases h
    exact ⟨hphase, rfl⟩
  | _ => cases h

/-- **Discipline of the state machine.**  After any responses `rs`, for the next response `r`:
metadata comes at most once, and is made of that response's and of the most recent `MT_INFO`;
run-phase events come only after it and before the end, those of single calls only when it says so;
the metadata is asked for only before it came; an error changes nothing but the connection id; and
every request carries the connection id of the last response. -/
theorem discipline (rs : List ExascriptResponse) (r : ExascriptResponse) :
    (metas (rs ++ [r])).length ≤ 1 ∧
      (∀ m action, ((after rs).step r).1 = .ok (.udfMeta m, action) →
        ∃ metadata info, r.metadata = some metadata ∧ lastInfo rs = some info ∧
          m = .fromPb metadata info) ∧
      (∀ event action, ((after rs).step r).1 = .ok (event, action) → event.isRunning = true →
        (∃ m, metas rs = [m] ∧ (event.isSingleCall = true → m.singleCallMode = true)) ∧
          ∀ earlier ∈ events rs, earlier.isTeardown = false) ∧
      (∀ event, ((after rs).step r).1 = .ok (event, some .metaRequest) →
        metas (rs ++ [r]) = []) ∧
      (∀ e, ((after rs).step r).1 = .error e →
        ((after rs).step r).2 = { after rs with connectionId := r.connectionId }) ∧
      ∀ f, Builds (after (rs ++ [r])) f → frameConnectionId f = r.connectionId := by
  have hrs := disciplined rs
  refine ⟨(disciplined (rs ++ [r])).once, ?_, ?_, ?_, ?_, ?_⟩
  · intro m action h
    obtain ⟨hphase, md, info, hmd, hpending, hm⟩ := step_metadata h
    exact ⟨md, info, hmd, (hrs.handshake hphase).2.symm.trans hpending, hm⟩
  · intro event action h hrunning
    obtain ⟨hphase, hmode⟩ := step_running h hrunning
    obtain ⟨m, hm, hsame⟩ := hrs.run hphase
    exact ⟨⟨m, hm, fun hsingle => hsame.trans (hmode hsingle)⟩, hrs.alive (.inr hphase)⟩
  · intro event h
    obtain ⟨hphase, rfl⟩ := step_metaRequest h
    rw [metas_concat, h, (hrs.handshake hphase).1]
    rfl
  · intro e h
    exact step_error h
  · intro f hf
    rw [hf.connectionId, after_concat, step_connectionId]

/-! ### Phases -/

end Protocol

/-- The order of the phases. -/
def Phase.rank : Phase → Nat
  | .handshake => 0
  | .run => 1
  | .cleanup => 2
  | .done => 3

/-- `MT_FINISHED` or `MT_CLOSE`. -/
def ExascriptResponse.isFinal (r : ExascriptResponse) : Bool :=
  match r.messageType with
  | .mtFinished | .mtClose => true
  | _ => false

namespace Protocol

theorem isFinal_of_type {r : ExascriptResponse}
    (h : r.messageType = .mtFinished ∨ r.messageType = .mtClose) : r.isFinal = true := by
  unfold ExascriptResponse.isFinal
  rcases h with h | h <;> rw [h]

/-- Only a final response leads to the terminal phase. -/
theorem step_done {p : Protocol} {r : ExascriptResponse} (h : (p.step r).2.phase = .done) :
    p.phase = .done ∨ r.isFinal = true := by
  have hspec := p.step_spec r
  generalize p.step r = stepped at hspec h
  cases hspec with
  | finished hmt => exact .inr (isFinal_of_type (.inl hmt))
  | close _ hmt => exact .inr (isFinal_of_type (.inr hmt))
  | metadata | cleanup => cases h
  | _ => exact .inl h

theorem after_done {rs : List ExascriptResponse} (h : (after rs).phase = .done) :
    ∃ r ∈ rs, r.isFinal = true := by
  induction rs using List.reverseRecOn with
  | nil => cases h
  | append_singleton rs r ih =>
    rw [after_concat] at h
    rcases step_done h with hdone | hfinal
    · obtain ⟨r', hmem, hr'⟩ := ih hdone
      exact ⟨r', List.mem_append_left _ hmem, hr'⟩
    · exact ⟨r, List.mem_append_right _ List.mem_cons_self, hfinal⟩

/-- A response moves the phase forward, unless it is an `MT_CLEANUP` in the terminal phase. -/
theorem step_rank {p : Protocol} {r : ExascriptResponse}
    (h : r.messageType = .mtCleanup → p.phase ≠ .done) :
    p.phase.rank ≤ (p.step r).2.phase.rank := by
  have hle : p.phase.rank ≤ 3 := by cases p.phase <;> decide
  have hspec := p.step_spec r
  generalize p.step r = stepped at hspec
  cases hspec with
  | metadata _ _ hphase => exact hphase ▸ Nat.zero_le _
  | cleanup hmt =>
    have hphase := h hmt
    show p.phase.rank ≤ 2
    cases hp : p.phase <;> first | decide | exact absurd hp hphase
  | finished | close => exact hle
  | _ => exact Nat.le_refl _

theorem step_cleanup {p : Protocol} {r : ExascriptResponse} (h : r.messageType = .mtCleanup) :
    (p.step r).2.phase = .cleanup := by
  unfold step
  rw [h]

theorem step_final {p : Protocol} {r : ExascriptResponse} (h : r.isFinal = true) :
    (p.step r).2.phase = .done := by
  unfold ExascriptResponse.isFinal at h
  unfold step
  cases hmt : r.messageType <;> rw [hmt] at h <;> first | rfl | cases h

/-- The phases of a run only move forward, and stay at the terminal one. -/
def PhasesForward (rs : List ExascriptResponse) : Prop :=
  ∀ earlier later, earlier ++ later <+: rs →
    (after earlier).phase.rank ≤ (after (earlier ++ later)).phase.rank ∧
      ((∃ r ∈ earlier, r.isFinal = true) → (after (earlier ++ later)).phase = .done)

theorem phasesForward_of_pairwise {rs : List ExascriptResponse}
    (h : rs.Pairwise fun r r' => r.isFinal = true → r'.messageType ≠ .mtCleanup) :
    PhasesForward rs := by
  -- First the phases, over the responses that come later; then the terminal phase, which is last.
  have hrank : ∀ earlier later, earlier ++ later <+: rs →
      (after earlier).phase.rank ≤ (after (earlier ++ later)).phase.rank := by
    intro earlier later
    induction later using List.reverseRecOn with
    | nil => exact fun _ => (List.append_nil earlier).symm ▸ Nat.le_refl _
    | append_singleton later r ih =>
      intro hle
      rw [← List.append_assoc] at hle ⊢
      refine Nat.le_trans (ih ((List.prefix_append _ _).trans hle)) ?_
      rw [after_concat]
      refine step_rank fun hcleanup hdone => ?_
      obtain ⟨r', hmem, hfinal⟩ := after_done hdone
      have hpair := h.sublist hle.sublist
      exact (List.pairwise_append.mp hpair).2.2 r' hmem r List.mem_cons_self hfinal hcleanup
  intro earlier later hle
  refine ⟨hrank earlier later hle, fun ⟨r, hmem, hfinal⟩ => ?_⟩
  obtain ⟨before, rest, rfl⟩ := List.append_of_mem hmem
  have hat : (after (before ++ [r])).phase = .done := by rw [after_concat, step_final hfinal]
  have hsplit : before ++ r :: rest ++ later = (before ++ [r]) ++ (rest ++ later) := by
    simp only [List.append_assoc, List.cons_append, List.nil_append]
  have hall := hrank (before ++ [r]) (rest ++ later) (hsplit ▸ hle)
  rw [hat, ← hsplit] at hall
  revert hall
  cases (after (before ++ r :: rest ++ later)).phase <;> decide

/-- **Phases.**  In a run of the state machine the phases only move forward, and the terminal phase
is kept, exactly when no `MT_CLEANUP` comes after an `MT_FINISHED` or `MT_CLOSE`. -/
theorem phases_forward (rs : List ExascriptResponse) :
    PhasesForward rs ↔
      rs.Pairwise fun r r' => r.isFinal = true → r'.messageType ≠ .mtCleanup := by
  refine ⟨fun h => ?_, phasesForward_of_pairwise⟩
  induction rs using List.reverseRecOn with
  | nil => exact .nil
  | append_singleton rs r ih =>
    have hinit := ih fun earlier later hle => h earlier later (hle.trans (List.prefix_append _ _))
    refine List.pairwise_append.mpr ⟨hinit, List.pairwise_singleton _ _, ?_⟩
    intro final hmem r' hr' hfinal hcleanup
    obtain rfl := List.mem_singleton.mp hr'
    have hdone := (h rs [r'] List.prefix_rfl).2 ⟨final, hmem, hfinal⟩
    rw [after_concat, step_cleanup hcleanup] at hdone
    cases hdone

/-- `MT_CLEANUP` after `MT_FINISHED`. -/
theorem phases_backward : ¬ ∀ rs, PhasesForward rs := by
  intro hclaim
  have hrank := (hclaim [.ofType .mtFinished, .ofType .mtCleanup] [.ofType .mtFinished]
    [.ofType .mtCleanup] List.prefix_rfl).1
  revert hrank
  decide

end Protocol

end ExaUdf
