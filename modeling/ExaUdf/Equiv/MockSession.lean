import ExaUdf.Equiv.MockGroup
import ExaUdf.Equiv.Shipped

/-!
# A runtime against the mock database

A `Joint` is a session of the runtime and a run of the driver that hear each other: the frames that
the one sends are those that the other receives, in both directions.

* `joint_agrees`: both end well, or the driver reports what the runtime has failed of.
* `joint_delivers`: when they end well, the sink has seen, cycle by cycle, exactly the rows that the
  UDF's calls have pushed.
-/

namespace ExaUdf

namespace MockDb

open Protobuf

variable {fx : Fixture} {env : Env} {w w' : World} {d d' d'' : State} {f : Frame} {F : List Frame}
  {m : UdfMeta}

/-! ### The run phase -/

/-- A history with a group that has been opened. -/
theorem groupsOf_opened {L G : List Event} {q : ExascriptRequest}
    (hbetween : (groupsOf L).current = none) (hq : (Frame.request q).opensGroup = true)
    (hG : ∀ e ∈ G, e.isInner = true) :
    groupsOf (L ++ .send (.request q) :: G)
      = ⟨(groupsOf L).closed, some G, (groupsOf L).outside⟩ := by
  rw [groupsOf_append, List.foldl_cons, Groups.step, if_pos hq, hbetween, Groups.foldl_inside hG]
  simp

/-- What happens within a group, or outside, closes no group. -/
theorem groupsOf_inner {L G : List Event} (hG : ∀ e ∈ G, e.isInner = true) :
    (groupsOf (L ++ G)).closed = (groupsOf L).closed := by
  rw [groupsOf_append]
  rcases groupsOf L with ⟨closed, - | current, outside⟩
  · rw [Groups.foldl_outside hG]
  · rw [Groups.foldl_inside hG]

/-- A history with a group more. -/
theorem groupsOf_closed {L G : List Event} (G' : List Event) {q : ExascriptRequest}
    {closed : List (List Event)} {outside : List Event}
    (hL : groupsOf L = ⟨closed, some G, outside⟩)
    (hq : (Frame.request q).opensGroup = false) (hclose : (Frame.request q).closesGroup = true)
    (hG' : ∀ e ∈ G', e.isInner = true) :
    groupsOf (L ++ .send (.request q) :: G') = ⟨closed ++ [G], none, outside ++ G'⟩ := by
  rw [groupsOf_append, hL, List.foldl_cons, Groups.step, hq, if_neg Bool.false_ne_true,
    if_pos hclose, Groups.foldl_outside hG']
  rfl

/-- `MT_RUN` opens a cycle, or ends the session when there is none left. -/
theorem Coupled.request_run (env : Env) {R : List Event}
    (hlogR : (w.request env (.request w.proto.runRequest)).2.log = w.log ++ R)
    (h : Coupled fx w d (sends R ++ F)) (hstage : d.stage = .idle)
    (hbetween : (groupsOf w.log).current = none) :
    ∃ G d' event, w.request env (.request w.proto.runRequest) = (.ok event,
        (w.request env (.request w.proto.runRequest)).2) ∧
      Coupled fx (w.request env (.request w.proto.runRequest)).2 d' F ∧
      fx.peer.after d (sends R) = some d' ∧ d'.collected = d.collected ∧
      groupsOf (w.request env (.request w.proto.runRequest)).2.log
        = ⟨(groupsOf w.log).closed, some G, (groupsOf w.log).outside⟩ ∧
      (∀ cols, acceptedRows env.toExtern cols G = []) ∧ batchesOf G = [] ∧ ¬ SaidDone G ∧
      ((event = .run ∧ d'.stage = .running ∧ d'.emits = [] ∧ d.cycles = d'.input :: d'.cycles) ∨
      (event = .cleanup ∧ d'.stage = .finishing ∧ d'.cycles = [] ∧ d.cycles = [])) := by
  obtain ⟨R', hlogR', -, hone⟩ := exists_log fx env (.request w.proto.runRequest) w
  obtain rfl : R = R' := List.append_cancel_left (hlogR.symm.trans hlogR')
  obtain ⟨hsendsR, hfirst⟩ := hone d F h
  have hrun : (Frame.request w.proto.runRequest).messageType = MessageType.mtRun.toI32 := rfl
  have hanswer : ∃ r d', fx.peer d (.request w.proto.runRequest) = some (r, d') := by
    rw [Fixture.peer, answer, hstage]
    dsimp only
    rw [if_pos hrun]
    split <;> exact ⟨_, _, rfl⟩
  obtain ⟨r, d', hanswer⟩ := hanswer
  obtain ⟨event, hanswered, hres, hcoupled, hlog⟩ := hfirst.request_answered env hanswer
  have hopened := groupsOf_opened (G := [.recv r,
    .answered (.request w.proto.runRequest) (.ok event)]) hbetween
    (show (Frame.request w.proto.runRequest).opensGroup = true by rfl) (by simp [Event.isInner])
  rw [← hlog] at hopened
  have hafter : fx.peer.after d (sends R) = some d' := by
    rw [hsendsR]
    exact Peer.after_cons hanswer []
  have hdone : ∀ event', event' ≠ HostEvent.done →
      ¬ SaidDone [.recv r, .answered (.request w.proto.runRequest) (.ok event')] := by
    rintro event' hne ⟨g, hmem, -⟩
    simp only [List.mem_cons, reduceCtorEq, Event.answered.injEq, Except.ok.injEq, List.not_mem_nil,
      or_false, false_or] at hmem
    exact hne hmem.2.symm
  refine ⟨[.recv r, .answered (.request w.proto.runRequest) (.ok event)], d', event,
    Prod.ext hres rfl, hcoupled, hafter, ?_⟩
  cases hanswered with
  | run _ _ hcycles =>
    exact ⟨rfl, hopened, fun _ => rfl, rfl, hdone _ (by simp), .inl ⟨rfl, rfl, rfl, hcycles⟩⟩
  | cleanup _ _ hcycles =>
    exact ⟨rfl, hopened, fun _ => rfl, rfl, hdone _ (by simp), .inr ⟨rfl, rfl, hcycles, hcycles⟩⟩
  | emit _ hf => cases hf
  | client hstage' | metadata hstage' | next hstage' | ended hstage' | done hstage'
  | finished hstage' =>
    rw [hstage] at hstage'
    cases hstage'

/-- `MT_FINISHED` ends the session. -/
theorem Coupled.request_finished (env : Env)
    (h : Coupled fx w d (.request w.proto.finishedReply :: F)) (hstage : d.stage = .finishing) :
    fx.peer.after d [.request w.proto.finishedReply] = some { d with stage := .finished } ∧
      (w.request env (.request w.proto.finishedReply)).1 = .ok .finished ∧
      ∃ G, (w.request env (.request w.proto.finishedReply)).2.log = w.log ++ G ∧
        ∀ e ∈ G, e.isInner = true := by
  have hanswer : fx.peer d (.request w.proto.finishedReply)
      = some (reply .mtFinished, { d with stage := .finished }) := by
    rw [Fixture.peer, answer, hstage]
    rfl
  obtain ⟨event, hanswered, hres, -, hlog⟩ := h.request_answered env hanswer
  refine ⟨Peer.after_cons hanswer [], ?_, _, hlog, ?_⟩
  · rw [hres]
    generalize reply .mtFinished = r, ({ d with stage := .finished } : State) = d' at hanswered
    cases hanswered with
    | finished => rfl
    | emit _ hf => cases hf
    | client hstage' | metadata hstage' | run hstage' | cleanup hstage' | next hstage'
    | ended hstage' | done hstage' =>
      rw [hstage] at hstage'
      cases hstage'
  · intro e he
    simp only [List.mem_cons, List.not_mem_nil, or_false] at he
    rcases he with rfl | rfl | rfl <;> rfl

/-- `MT_DONE` closes a cycle. -/
theorem Coupled.request_done (env : Env) (h : Coupled fx w d (.request w.proto.doneRequest :: F))
    (hstage : d.stage = .running) :
    ∃ r, fx.peer d (.request w.proto.doneRequest) = some (r,
        { d with stage := .idle, emits := [], collected := d.collected ++ [d.emits] }) ∧
      w.request env (.request w.proto.doneRequest) = (.ok .done,
        (w.request env (.request w.proto.doneRequest)).2) ∧
      (w.request env (.request w.proto.doneRequest)).2.log = w.log ++
        [.send (.request w.proto.doneRequest), .recv r,
          .answered (.request w.proto.doneRequest) (.ok .done)] ∧
      Coupled fx (w.request env (.request w.proto.doneRequest)).2
        { d with stage := .idle, emits := [], collected := d.collected ++ [d.emits] } F := by
  have hdone : (Frame.request w.proto.doneRequest).messageType = MessageType.mtDone.toI32 := rfl
  have hanswer : ∃ r d', fx.peer d (.request w.proto.doneRequest) = some (r, d') := by
    rw [Fixture.peer, answer, hstage]
    exact ⟨_, _, rfl⟩
  obtain ⟨r, d', hanswer⟩ := hanswer
  obtain ⟨event, hanswered, hres, hcoupled, hlog⟩ := h.request_answered env hanswer
  cases hanswered with
  | done => exact ⟨_, hanswer, Prod.ext hres rfl, hlog, hcoupled⟩
  | emit _ hf => cases hf
  | next _ htype | ended _ htype => cases toI32_inj (hdone.symm.trans htype)
  | client hstage' | metadata hstage' | run hstage' | cleanup hstage' | finished hstage' =>
    rw [hstage] at hstage'
    cases hstage'

/-- What is known beforehand of a UDF over the cycles of a fixture: `P` of the rows that a group
accepts, and `B` of whatever goes wrong. -/
structure Foreseen (fx : Fixture) (env : Env) (m : UdfMeta) (udf : LoadedUdf)
    (P : List ExascriptTableData → List WireRow → Prop) (B : Prop) : Prop where
  single : m.singleCallMode = true → B
  hook : ∀ w e, (Cleanup.runHook udf (.ok ()) w).1 = .error e → B
  group : ∀ {w d F G}, (runGroup env m udf w).2.log = w.log ++ G → d.stage = .running →
    d.input ∈ fx.cycles → Coupled fx w d (sends G ++ F) →
    (B ∨ (runGroup env m udf w).1 = .ok none ∧ (runGroup env m udf w).2.dead = false) ∧
    ((runGroup env m udf w).1 = .ok none → (runGroup env m udf w).2.dead = false →
      P d.input (acceptedRows env.toExtern m.outputColumns G))

/-- Nothing need be known. -/
theorem Foreseen.unknown (fx : Fixture) (env : Env) (m : UdfMeta) (udf : LoadedUdf) :
    Foreseen fx env m udf (fun _ _ => True) True where
  single _ := trivial
  hook _ _ _ := trivial
  group _ _ _ _ := ⟨.inl trivial, fun _ _ => trivial⟩

variable {P : List ExascriptTableData → List WireRow → Prop} {B : Prop}

/-- Between these histories some cycles of the database have been the groups of the client. -/
def Cycled (env : Env) (m : UdfMeta) (P : List ExascriptTableData → List WireRow → Prop)
    (L L' : List Event) (d d' : State) : Prop :=
  ∃ cycles emits groups, d.cycles = cycles ++ d'.cycles ∧ d'.collected = d.collected ++ emits ∧
    (groupsOf L').closed = (groupsOf L).closed ++ groups ∧ List.Forall₂ Fed cycles groups ∧
    List.Forall₂ (Carries env m) emits groups ∧ List.Forall₂ (fun tables G =>
      P tables (acceptedRows env.toExtern m.outputColumns G)) cycles groups

theorem Cycled.trans {L L' L'' : List Event} (h : Cycled env m P L L' d d')
    (h' : Cycled env m P L' L'' d' d'') : Cycled env m P L L'' d d'' := by
  obtain ⟨cycles, emits, groups, hcycles, hcollected, hclosed, hfed, hcarry, hP⟩ := h
  obtain ⟨cycles', emits', groups', hcycles', hcollected', hclosed', hfed', hcarry', hP'⟩ := h'
  refine ⟨cycles ++ cycles', emits ++ emits', groups ++ groups', ?_, ?_, ?_,
    List.rel_append hfed hfed', List.rel_append hcarry hcarry', List.rel_append hP hP'⟩
  · rw [hcycles, hcycles', List.append_assoc]
  · rw [hcollected', hcollected, List.append_assoc]
  · rw [hclosed', hclosed, List.append_assoc]

/-- How the run phase ends. -/
inductive RunPhase (fx : Fixture) (env : Env) (m : UdfMeta)
    (P : List ExascriptTableData → List WireRow → Prop) (B : Prop) (w : World) (d : State)
    (H : List Event) (F : List Frame) : Except RuntimeError Unit × World → Prop where
  | finishing {w' : World} {d' : State} : Coupled fx w' d' F →
    fx.peer.after d (sends H) = some d' → d'.stage = .finishing → d'.cycles = [] →
    Cycled env m P w.log w'.log d d' → RunPhase fx env m P B w d H F (.ok (), w')
  | failed {e : RuntimeError} {w' : World} {d' : State} : B → Coupled fx w' d' F →
    fx.peer.after d (sends H) = some d' → d'.stage = .running →
    RunPhase fx env m P B w d H F (.error e, w')
  | lost {e : RuntimeError} {w' : World} : B → w'.dead = true → Lost fx d H →
    RunPhase fx env m P B w d H F (.error e, w')

/-- The end of the run phase leaves the groups as they are. -/
theorem Cycled.idle {L L' : List Event} (hclosed : (groupsOf L').closed = (groupsOf L).closed)
    (hcollected : d'.collected = d.collected) (hcycles : d.cycles = d'.cycles) :
    Cycled env m P L L' d d' :=
  ⟨[], [], [], hcycles, by rw [hcollected, List.append_nil], by rw [hclosed, List.append_nil],
    .nil, .nil, .nil⟩

/-- `MT_RUN` has opened a cycle: where the peer and the groups are then. -/
structure Opened (fx : Fixture) (env : Env) (w w₁ : World) (d d₁ : State) (R G₀ : List Event) :
    Prop where
  after : fx.peer.after d (sends R) = some d₁
  collected : d₁.collected = d.collected
  groups : groupsOf w₁.log = ⟨(groupsOf w.log).closed, some G₀, (groupsOf w.log).outside⟩
  noRows : ∀ cols, acceptedRows env.toExtern cols G₀ = []
  noBatches : batchesOf G₀ = []
  notDone : ¬ SaidDone G₀
  noEmits : d₁.emits = []
  cycles : d.cycles = d₁.input :: d₁.cycles

/-- A cycle has been closed, and the next one can be opened. -/
def Closes (fx : Fixture) (env : Env) (m : UdfMeta)
    (P : List ExascriptTableData → List WireRow → Prop) (w : World) (d : State) (H : List Event)
    (F : List Frame) (w' : World) : Prop :=
  ∃ d', Coupled fx w' d' F ∧ fx.peer.after d (sends H) = some d' ∧ d'.stage = .idle ∧
    (groupsOf w'.log).current = none ∧ Cycled env m P w.log w'.log d d'

section

variable {w₁ w₂ : World} {d₁ d₂ : State} {R G₀ G D : List Event}

/-- A cycle whose group fails is the last of the run phase. -/
theorem Opened.failed {e : RuntimeError} (h : Opened fx env w w₁ d d₁ R G₀) (hB : B)
    (hend : (∃ d₂, Coupled fx w₂ d₂ F ∧ Within fx d₁ d₂ G) ∨ w₂.dead = true ∧ Lost fx d₁ G) :
    RunPhase fx env m P B w d (R ++ G) F (.error e, w₂) := by
  rcases hend with ⟨d₂, hcoupled, hwithin⟩ | ⟨hdead, hlost⟩
  · refine .failed hB hcoupled ?_ hwithin.stage
    rw [sends_append, Peer.after_append, h.after]
    exact hwithin.after
  · exact .lost hB hdead (hlost.after h.after)

/-- A cycle whose group ends well is closed by `MT_DONE`. -/
theorem Opened.closed (h : Opened fx env w w₁ d d₁ R G₀) (hlogG : w₂.log = w₁.log ++ G)
    (hinner : ∀ e ∈ G, e.isInner = true) (hwithin : Within fx d₁ d₂ G)
    (hsent : SentAll env m w₁.log w₂)
    (hrows : P d₁.input (acceptedRows env.toExtern m.outputColumns G))
    (hsendsD : sends D = [.request w₂.proto.doneRequest])
    (hcoupled : Coupled fx w₂ d₂ (.request w₂.proto.doneRequest :: F)) :
    ∃ w₃, w₂.request env (.request w₂.proto.doneRequest) = (.ok .done, w₃) ∧
      Closes fx env m P w d (R ++ (G ++ D)) F w₃ := by
  obtain ⟨r, hpeer, hreq, hlog, hcoupled'⟩ := hcoupled.request_done env hwithin.stage
  have hgrown : groupsOf w₂.log = ⟨(groupsOf w.log).closed, some (G₀ ++ G),
      (groupsOf w.log).outside⟩ := by
    rw [hlogG, groupsOf_append, h.groups, Groups.foldl_inside hinner]
  have hclosed := groupsOf_closed
    [.recv r, .answered (.request w₂.proto.doneRequest) (.ok .done)] hgrown
    (show (Frame.request w₂.proto.doneRequest).opensGroup = false by rfl) (by rfl)
    (by simp [Event.isInner])
  rw [← hlog] at hclosed
  refine ⟨_, hreq, _, hcoupled', ?_, rfl, by rw [hclosed], [d₁.input], [d₂.emits], [_], ?_, ?_,
    by rw [hclosed], .cons (fed_of_within h.noBatches h.notDone hwithin) .nil, .cons ?_ .nil,
    .cons ?_ .nil⟩
  · rw [sends_append, Peer.after_append, h.after, sends_append]
    show fx.peer.after d₁ (sends G ++ sends D) = _
    rw [Peer.after_append, hwithin.after, hsendsD]
    exact Peer.after_cons hpeer []
  · rw [h.cycles, ← hwithin.cycles]
    rfl
  · show d₂.collected ++ [d₂.emits] = _
    rw [hwithin.collected, h.collected]
  -- The answer to `MT_RUN` is in the group, and pushes nothing.
  · rw [Carries, acceptedRows_append, h.noRows, List.nil_append]
    exact carries_of_group hwithin h.noEmits hlogG hcoupled.live hsent
  · rw [acceptedRows_append, h.noRows, List.nil_append]
    exact hrows

end

/-- **One cycle**: it is closed, or it is the last of the run phase. -/
theorem runUdfStep_meets {udf : LoadedUdf} (hforeseen : Foreseen fx env m udf P B)
    (hext : env.toExtern.Documented) {H : List Event}
    (hH : ((runUdfStep env m udf w).elim Prod.snd id).log = w.log ++ H)
    (hstage : d.stage = .idle) (hsub : d.cycles ⊆ fx.cycles)
    (hbetween : (groupsOf w.log).current = none) (hcoupled : Coupled fx w d (sends H ++ F)) :
    (runUdfStep env m udf w).elim (RunPhase fx env m P B w d H F)
      (Closes fx env m P w d H F) := by
  obtain ⟨R, hlogR⟩ := (sessionRel_log env).request (.request w.proto.runRequest) w
  obtain ⟨K, hK⟩ := (sessionRel_log env).dispatchRel.runUdfStep m udf w
  obtain rfl : H = R ++ K := by
    rw [← hK, ← hlogR, List.append_assoc] at hH
    exact (List.append_cancel_left hH).symm
  rw [sends_append, List.append_assoc] at hcoupled
  obtain ⟨G₀, d₁, event, hreq, hcoupled₁, hafterR, hcollected₁, hgroups, hnone, hbatches, hdone₁,
    hopen⟩ := Coupled.request_run env hlogR.symm hcoupled hstage hbetween
  unfold runUdfStep at hK ⊢
  rw [hreq] at hK ⊢
  generalize (w.request env (.request w.proto.runRequest)).2 = w₁ at *
  rcases hopen with ⟨rfl, hstage₁, hemits₁, hcycles₁⟩ | ⟨rfl, hstage₁, hcycles₁, hcycles⟩
  · have hopened : Opened fx env w w₁ d d₁ R G₀ :=
      ⟨hafterR, hcollected₁, hgroups, hnone, hbatches, hdone₁, hemits₁, hcycles₁⟩
    obtain ⟨G, hlogG, hgroup⟩ := runGroup_meets fx env m udf w₁
    have hinput₁ : d₁.input ∈ fx.cycles := hsub (hcycles₁ ▸ List.mem_cons_self)
    have hknown := fun F => @Foreseen.group _ _ _ _ _ _ hforeseen _ _ F _ hlogG hstage₁ hinput₁
    have hadds := runGroup_rel (groupRel_within env) m udf w₁
    have hsent := runGroup_sentAll hext udf (L := w₁.log) (w := w₁) (m := m)
      ⟨[], [], (List.append_nil _).symm, rfl, fun _ =>
        ⟨[], rfl, fun _ => rfl, fun _ => List.prefix_rfl⟩⟩
    dsimp only at hK ⊢
    rcases hg : runGroup env m udf w₁ with ⟨e | _ | early, w₂⟩ <;>
      rw [hg] at hK hlogG hgroup hadds hsent hknown <;> dsimp only [Sum.elim_inl] at hK ⊢
    · obtain rfl : K = G := List.append_cancel_left (hK.trans hlogG)
      exact hopened.failed ((hknown F hcoupled₁).1.resolve_right (by simp))
        (hgroup d₁ F hstage₁ hcoupled₁).2
    · obtain ⟨D, hlogD, hstuck, hdone⟩ :=
        Coupled.exists_log fx env (.request w₂.proto.doneRequest) w₂
      have hlast : w₁.log ++ K = (w₂.request env (.request w₂.proto.doneRequest)).2.log := by
        rw [hK]
        split <;> rename_i hr <;> rw [hr] <;> rfl
      obtain rfl : K = G ++ D := by
        rw [hlogD, hlogG, List.append_assoc] at hlast
        exact List.append_cancel_left hlast
      rw [sends_append, List.append_assoc] at hcoupled₁
      obtain ⟨hfails, hrows⟩ := hknown _ hcoupled₁
      obtain ⟨-, ⟨d₂, hcoupled₂, hwithin⟩ | ⟨hdead, hlost⟩⟩ := hgroup d₁ _ hstage₁ hcoupled₁
      · obtain ⟨hsendsD, hfirst⟩ := hdone d₂ F hcoupled₂
        obtain ⟨events, hlogG', hwithinG⟩ := hadds
        obtain rfl : G = events := List.append_cancel_left (hlogG.symm.trans hlogG')
        have hinner : ∀ e ∈ G, e.isInner = true := fun e he =>
          Event.isInner_of_isWithin (hwithinG e he)
        obtain ⟨w₃, hreq₃, hcloses⟩ := hopened.closed hlogG hinner hwithin (hsent.2 rfl)
          (hrows rfl hcoupled₂.live) hsendsD hfirst
        rw [hreq₃]
        exact hcloses
      -- The socket is stuck, and `MT_DONE` does not get out.
      · obtain rfl := hstuck hdead
        rw [World.request_dead env _ hdead, List.append_nil]
        have hB : B := hfails.resolve_right fun h => by rw [hdead] at h; cases h.2
        exact hopened.failed hB (.inr ⟨hdead, hlost⟩)
    · obtain rfl : K = G := List.append_cancel_left (hK.trans hlogG)
      exact absurd rfl ((hgroup d₁ F hstage₁ hcoupled₁).1 early)
  -- No cycle is left, and the session goes on to its end.
  · dsimp only [Sum.elim_inl] at hK ⊢
    obtain rfl : K = [] := List.append_cancel_left (hK.trans (List.append_nil _).symm)
    rw [List.append_nil]
    exact .finishing hcoupled₁ hafterR hstage₁ hcycles₁
      (.idle (by rw [hgroups]) hcollected₁ (hcycles.trans hcycles₁.symm))

theorem RunPhase.after {G H : List Event} {r : Except RuntimeError Unit × World}
    (h : RunPhase fx env m P B w' d' H F r) (hafter : fx.peer.after d (sends G) = some d')
    (hcycled : Cycled env m P w.log w'.log d d') : RunPhase fx env m P B w d (G ++ H) F r := by
  have hsends : ∀ {d''}, fx.peer.after d' (sends H) = some d'' →
      fx.peer.after d (sends (G ++ H)) = some d'' := by
    intro d'' h
    rw [sends_append, Peer.after_append, hafter]
    exact h
  cases h with
  | finishing hcoupled h hstage hcycles hcycled' =>
    exact .finishing hcoupled (hsends h) hstage hcycles (hcycled.trans hcycled')
  | failed hB hcoupled h hstage => exact .failed hB hcoupled (hsends h) hstage
  | lost hB hdead hlost => exact .lost hB hdead (hlost.after hafter)

/-- **The run phase meets the peer.** -/
theorem runUdf_meets {udf : LoadedUdf} (hforeseen : Foreseen fx env m udf P B)
    (hext : env.toExtern.Documented) {H : List Event}
    (hH : (runUdf env m udf w).2.log = w.log ++ H) (hstage : d.stage = .idle)
    (hsub : d.cycles ⊆ fx.cycles) (hbetween : (groupsOf w.log).current = none)
    (hcoupled : Coupled fx w d (sends H ++ F)) :
    RunPhase fx env m P B w d H F (runUdf env m udf w) := by
  induction w using (runUdfLoop env m udf).induct generalizing d H with
  | _ w ih =>
    have hround := fun H₀ hH₀ F =>
      @runUdfStep_meets fx env w d F m P B udf hforeseen hext H₀ hH₀ hstage hsub hbetween
    have hgrow := (sessionRel_log env).dispatchRel.trans
      ((sessionRel_log env).request (.request w.proto.runRequest) w)
      ((sessionRel_log env).dispatchRel.runUdfStep m udf w)
    cases hstep : runUdfStep env m udf w with
    | inl r =>
      have hrun : runUdf env m udf w = r := Loop.run_of_inl (L := runUdfLoop env m udf) hstep
      rw [hrun] at hH ⊢
      rw [hstep] at hround
      exact hround H hH F hcoupled
    | inr w₁ =>
      have hrun : runUdf env m udf w = runUdf env m udf w₁ :=
        Loop.run_of_inr (L := runUdfLoop env m udf) hstep
      rw [hstep] at hround hgrow
      obtain ⟨H₀, hH₀⟩ := hgrow
      obtain ⟨K, hK⟩ := (sessionRel_log env).dispatchRel.runUdf m udf w₁
      obtain rfl : H = H₀ ++ K := by
        rw [hrun, ← hK, show w₁.log = w.log ++ H₀ from hH₀.symm, List.append_assoc] at hH
        exact (List.append_cancel_left hH).symm
      rw [sends_append, List.append_assoc] at hcoupled
      obtain ⟨d₁, hcoupled₁, hafter, hstage₁, hbetween₁, hcycled⟩ :=
        hround H₀ hH₀.symm _ hcoupled
      have hsub₁ : d₁.cycles ⊆ fx.cycles := by
        obtain ⟨cycles, emits, groups, hcycles, -⟩ := hcycled
        exact fun tables h => hsub (hcycles ▸ List.mem_append_right cycles h)
      rw [hrun]
      exact (ih w₁ hstep hK.symm hstage₁ hsub₁ hbetween₁ hcoupled₁).after hafter hcycled

/-- **Dispatch meets the peer**, in single-call mode too, where the first cycle is out of place. -/
theorem dispatch_meets {udf : LoadedUdf} (hforeseen : Foreseen fx env m udf P B)
    (hext : env.toExtern.Documented) {H : List Event}
    (hH : (Runtime.dispatch env m udf w).2.log = w.log ++ H) (hstage : d.stage = .idle)
    (hsub : d.cycles ⊆ fx.cycles) (hbetween : (groupsOf w.log).current = none) (F : List Frame)
    (hcoupled : Coupled fx w d (sends H ++ F)) :
    RunPhase fx env m P B w d H F (Runtime.dispatch env m udf w) := by
  obtain ⟨R, hlogR⟩ := (sessionRel_log env).request (.request w.proto.runRequest) w
  obtain ⟨K, hK⟩ := (sessionRel_log env).dispatchRel.dispatch m udf w
  unfold Runtime.dispatch at hH hK ⊢
  split_ifs at hH hK ⊢ with hsingle
  · obtain rfl : H = R ++ K := by
      rw [← hK, ← hlogR, List.append_assoc] at hH
      exact (List.append_cancel_left hH).symm
    rw [sends_append, List.append_assoc] at hcoupled
    obtain ⟨G₀, d₁, event, hreq, hcoupled₁, hafterR, hcollected₁, hopened, -, -, -, hopen⟩ :=
      Coupled.request_run env hlogR.symm hcoupled hstage hbetween
    have hend : ∀ {res : Except RuntimeError Unit}, runSingleCallStep env udf w
        = .inl (res, (w.request env (.request w.proto.runRequest)).2) →
        runSingleCall env udf w = (res, (w.request env (.request w.proto.runRequest)).2) ∧
          K = [] := by
      intro res hstep
      have hrun : runSingleCall env udf w = _ :=
        Loop.run_of_inl (L := runSingleCallLoop env udf) hstep
      rw [hrun] at hK
      exact ⟨hrun, List.append_cancel_left (hK.trans (List.append_nil _).symm)⟩
    rcases hopen with ⟨rfl, hstage₁, -⟩ | ⟨rfl, hstage₁, hcycles₁, hcycles⟩
    · obtain ⟨hrun, rfl⟩ := hend (by unfold runSingleCallStep; rw [hreq])
      rw [hrun, List.append_nil]
      exact .failed (hforeseen.single hsingle) hcoupled₁ hafterR hstage₁
    · obtain ⟨hrun, rfl⟩ := hend (by unfold runSingleCallStep; rw [hreq])
      rw [hrun, List.append_nil]
      exact .finishing hcoupled₁ hafterR hstage₁ hcycles₁
        (.idle (by rw [hopened]) hcollected₁ (hcycles.trans hcycles₁.symm))
  · exact runUdf_meets hforeseen hext hH hstage hsub hbetween hcoupled

/-! ### The end of a session -/

/-- The codes in the text of an `MT_CLOSE`. -/
def closeCodes : List Nat :=
  [Runtime.udfErrorCloseCode, Runtime.schemaMismatchCloseCode]

/-- How a session ends that has met the peer. -/
inductive Ends (fx : Fixture) (env : Env) (m : UdfMeta)
    (P : List ExascriptTableData → List WireRow → Prop) (B : Prop) (w : World) (d : State)
    (H : List Event) : Except RuntimeError Unit × World → Prop where
  | finished {w' : World} {d' : State} : fx.peer.after d (sends H) = some d' →
    d'.stage = .finished → d'.cycles = [] → Cycled env m P w.log w'.log d d' →
    Ends fx env m P B w d H (.ok (), w')
  | closed {e : RuntimeError} {w' : World} {d' : State} {pre : List Frame} (p : Protocol)
    {code : Nat} : B → code ∈ closeCodes →
    sends H = pre ++ [.request (p.errorCloseRequest code e.display)] →
    fx.peer.after d pre = some d' → d'.stage ≠ .finished → Ends fx env m P B w d H (.error e, w')
  | lost {e : RuntimeError} {w' : World} : B → Lost fx d H → Ends fx env m P B w d H (.error e, w')

/-- The cleanup hook does not touch the channel. -/
theorem runHook_channel (udf : LoadedUdf) (outcome : Except RuntimeError Unit) (w : World) :
    (Cleanup.runHook udf outcome w).2.proto = w.proto ∧
      (Cleanup.runHook udf outcome w).2.inbox = w.inbox ∧
      (Cleanup.runHook udf outcome w).2.dead = w.dead :=
  Cleanup.runHook_rel (R := fun w w' => w'.proto = w.proto ∧ w'.inbox = w.inbox ∧
    w'.dead = w.dead) (fun _ => ⟨rfl, rfl, rfl⟩)
    (fun hab hbc => ⟨hbc.1.trans hab.1, hbc.2.1.trans hab.2.1, hbc.2.2.trans hab.2.2⟩)
    (fun _ _ _ => ⟨rfl, rfl, rfl⟩) udf outcome w

/-- The cleanup hook adds notes, turns no failure into success, and opens or closes no group. -/
theorem runHook_notes (udf : LoadedUdf) (outcome : Except RuntimeError Unit) (w : World) :
    (∃ N, (Cleanup.runHook udf outcome w).2.log = w.log ++ N ∧ sends N = [] ∧
      ∀ e ∈ N, e.isInner = true) ∧
    ∀ e, outcome = .error e → ∃ e', (Cleanup.runHook udf outcome w).1 = .error e' := by
  have hhook := runHook_spec udf outcome w
  generalize Cleanup.runHook udf outcome w = cleaned at hhook
  cases hhook with
  | unregistered =>
    exact ⟨⟨[], (List.append_nil _).symm, rfl, fun _ h => absurd h List.not_mem_nil⟩,
      fun e h => ⟨e, h⟩⟩
  | @ran calls res w' _ hcalls hlog =>
    refine ⟨⟨_, hlog, ?_, ?_⟩, fun e h => ?_⟩
    · rw [sends, List.filterMap_eq_nil_iff]
      intro e he
      simp only [List.mem_cons, List.mem_append, List.not_mem_nil, or_false] at he
      rcases he with rfl | he | rfl <;> try rfl
      have hnote := (hcalls e he).1
      cases e <;> first | rfl | cases hnote
    · intro e he
      simp only [List.mem_cons, List.mem_append, List.not_mem_nil, or_false] at he
      rcases he with rfl | he | rfl <;> try rfl
      have hnote := (hcalls e he).1
      cases e <;> first | rfl | cases hnote
    · subst h
      rcases res with e' | u <;> exact ⟨_, rfl⟩

/-- A session that has failed says so, unless its socket is stuck. -/
theorem closeWith_ends {e : RuntimeError} {code : Nat} (G : List Event) {T : List Event}
    {w₀ : World} (hB : B) (hcode : code ∈ closeCodes)
    (hlog : (Runtime.closeWith env code e w).2.log = w.log ++ T) (hlive : w.dead = false)
    (hafter : fx.peer.after d (sends G) = some d') (hstage : d'.stage ≠ .finished) :
    Ends fx env m P B w₀ d (G ++ T) (Runtime.closeWith env code e w) := by
  obtain rfl : [.send (.request (w.proto.errorCloseRequest code e.display))] = T := by
    rw [closeWith_live hlive code e] at hlog
    exact List.append_cancel_left hlog
  refine .closed w.proto hB hcode ?_ hafter hstage
  rw [sends_append]
  rfl

theorem finale_ok (env : Env) (w : World) :
    Runtime.report env (Runtime.finish env (.ok (), w))
      = match w.request env (.request w.proto.finishedReply) with
        | (.error e, w) => Runtime.closeWith env Runtime.udfErrorCloseCode e w
        | (.ok _, w) => (.ok (), w) := by
  show Runtime.report env (Runtime.sendFinished env w) = _
  unfold Runtime.sendFinished
  rcases w.request env (.request w.proto.finishedReply) with ⟨e | event, w'⟩ <;> rfl

section

variable {w₁ w₂ : World} {H N T : List Event} {res : Except RuntimeError Unit}

/-- After a failure the last message is the error text, unless the socket is stuck. -/
theorem RunPhase.report_error {e : RuntimeError} {code : Nat}
    (hmeets : RunPhase fx env m P B w d H (sends T) (res, w₁)) (hB : res = .ok () → B)
    (hcode : code ∈ closeCodes) (hsendsN : sends N = []) (hdead : w₂.dead = w₁.dead)
    (hT : (Runtime.closeWith env code e w₂).2.log = w₂.log ++ T) :
    Ends fx env m P B w d (H ++ N ++ T) (Runtime.closeWith env code e w₂) := by
  have hlive : ∀ {d'}, B → Coupled fx w₁ d' (sends T) →
      fx.peer.after d (sends H) = some d' → d'.stage ≠ .finished →
      Ends fx env m P B w d (H ++ N ++ T) (Runtime.closeWith env code e w₂) := by
    intro d' hB h hafter hstage
    refine closeWith_ends (H ++ N) hB hcode hT (hdead.trans h.live) ?_ hstage
    rw [sends_append, hsendsN, List.append_nil]
    exact hafter
  cases hmeets with
  | finishing h hafter hstage => exact hlive (hB rfl) h hafter (by rw [hstage]; nofun)
  | failed hB' h hafter hstage => exact hlive hB' h hafter (by rw [hstage]; nofun)
  | lost hB' hdead' hlost =>
    obtain rfl : T = [] := by
      unfold Runtime.closeWith World.send at hT
      rw [hdead, if_pos hdead'] at hT
      exact List.append_cancel_left (hT.symm.trans (List.append_nil _).symm)
    rw [List.append_nil]
    exact .lost hB' (hlost.silent hsendsN)

/-- After a run phase without a failure the last message is `MT_FINISHED`, which is answered. -/
theorem RunPhase.report_finished {R : List Event}
    (hmeets : RunPhase fx env m P B w d H (sends R ++ F) (.ok (), w₁))
    (hN : w₂.log = w₁.log ++ N) (hinner : ∀ e ∈ N, e.isInner = true) (hsendsN : sends N = [])
    (hchannel : w₂.proto = w₁.proto ∧ w₂.inbox = w₁.inbox ∧ w₂.dead = w₁.dead)
    (hR : (w₂.request env (.request w₂.proto.finishedReply)).2.log = w₂.log ++ R) :
    ∃ w₃, w₂.request env (.request w₂.proto.finishedReply) = (.ok .finished, w₃) ∧
      Ends fx env m P B w d (H ++ N ++ R) (.ok (), w₃) := by
  obtain ⟨R', hR', -, hone⟩ := Coupled.exists_log fx env (.request w₂.proto.finishedReply) w₂
  obtain rfl : R = R' := List.append_cancel_left (hR.symm.trans hR')
  cases hmeets with
  | @finishing _ d₁ h hafter hstage hcycles hcycled =>
    have h₂ : Coupled fx w₂ d₁ (sends R ++ F) :=
      ⟨hchannel.2.2.trans h.live, hchannel.1 ▸ h.phase, hchannel.2.1.trans h.inbox⟩
    obtain ⟨hsendsR, hfirst⟩ := hone d₁ _ h₂
    obtain ⟨hafterR, hres, G, hlogG, hinnerG⟩ := hfirst.request_finished env hstage
    refine ⟨_, Prod.ext hres rfl,
      @Ends.finished _ _ _ _ _ _ _ _ _ { d₁ with stage := .finished } ?_ rfl hcycles ?_⟩
    · rw [sends_append, sends_append, hsendsN, List.append_nil, Peer.after_append, hafter, hsendsR]
      exact hafterR
    · refine hcycled.trans (.idle ?_ rfl rfl)
      rw [hlogG, groupsOf_inner hinnerG, hN, groupsOf_inner hinner]

end

/-- **The session from dispatch on meets the peer.** -/
theorem serve_meets {udf : LoadedUdf} (hforeseen : Foreseen fx env m udf P B)
    (hext : env.toExtern.Documented) {H : List Event}
    (hH : (Runtime.serve env m udf w).2.log = w.log ++ H) (hstage : d.stage = .idle)
    (hsub : d.cycles ⊆ fx.cycles) (hbetween : (groupsOf w.log).current = none)
    (hcoupled : Coupled fx w d (sends H)) :
    Ends fx env m P B w d H (Runtime.serve env m udf w) := by
  obtain ⟨H₁, hH₁⟩ := (sessionRel_log env).trans ((sessionRel_log env).request _ w)
    ((sessionRel_log env).dispatchRel.dispatch m udf w)
  have hmeets := dispatch_meets hforeseen hext hH₁.symm hstage hsub hbetween
  unfold Runtime.serve at hH ⊢
  dsimp only at hH ⊢
  generalize Runtime.dispatch env m udf w = dispatched at *
  obtain ⟨res, w₁⟩ := dispatched
  obtain ⟨⟨N, hN, hsendsN, hinner⟩, hkeep⟩ := runHook_notes udf res w₁
  have hchannel := runHook_channel udf res w₁
  have hhook : ∀ e, res = .ok () → (Cleanup.runHook udf res w₁).1 = .error e → B := by
    rintro e rfl h
    exact hforeseen.hook w₁ e h
  dsimp only at hH hH₁ ⊢
  generalize Cleanup.runHook udf res w₁ = cleaned at *
  obtain ⟨outcome, w₂⟩ := cleaned
  dsimp only at hN hchannel hkeep hhook
  have hH₂ : w₂.log = w.log ++ (H₁ ++ N) := by
    rw [hN, show w₁.log = w.log ++ H₁ from hH₁.symm, List.append_assoc]
  have hsends : ∀ T, sends (H₁ ++ N ++ T) = sends H₁ ++ sends T := by
    intro T
    rw [sends_append, sends_append, hsendsN, List.append_nil]
  rcases outcome with e | _
  · obtain ⟨T, hT⟩ := closeWith_log env w₂ Runtime.udfErrorCloseCode e
    obtain rfl : H = H₁ ++ N ++ T := by
      rw [show (Runtime.report env (Runtime.finish env (.error e, w₂))).2.log = _ from hT.symm,
        hH₂, List.append_assoc] at hH
      exact (List.append_cancel_left hH).symm
    rw [hsends] at hcoupled
    exact (hmeets _ hcoupled).report_error (fun h => hhook e h rfl) List.mem_cons_self hsendsN
      hchannel.2.2 hT.symm
  · obtain ⟨R, hR⟩ := (sessionRel_log env).request (.request w₂.proto.finishedReply) w₂
    rw [finale_ok] at hH ⊢
    obtain ⟨T, hT⟩ : (w₂.request env (.request w₂.proto.finishedReply)).2.log <+:
        (match w₂.request env (.request w₂.proto.finishedReply) with
          | (.error e, w) => Runtime.closeWith env Runtime.udfErrorCloseCode e w
          | (.ok _, w) => (.ok (), w)).2.log := by
      rcases w₂.request env (.request w₂.proto.finishedReply) with ⟨e | event, w₃⟩
      · exact closeWith_log env w₃ _ e
      · exact List.prefix_rfl
    obtain rfl : H = H₁ ++ N ++ R ++ T := by
      rw [← hT, ← hR, hH₂] at hH
      simp only [List.append_assoc] at hH ⊢
      exact (List.append_cancel_left hH).symm
    rw [List.append_assoc, hsends, sends_append] at hcoupled
    rcases res with e | _
    · obtain ⟨e', he'⟩ := hkeep e rfl
      cases he'
    · obtain ⟨w₃, hreq, hends⟩ :=
        (hmeets _ hcoupled).report_finished hN hinner hsendsN hchannel hR.symm
      rw [hreq] at hT ⊢
      obtain rfl : T = [] := List.append_cancel_left (hT.trans (List.append_nil _).symm)
      rw [List.append_nil]
      exact hends

/-! ### Whole sessions -/

theorem handshake_log (env : Env) (w : World) :
    w.log <+: ((Runtime.handshake env).run w).2.log := by
  refine (Runtime.handshake env).run_rel id Prod.snd (R := fun w w' : World => w.log <+: w'.log)
    (fun _ => List.prefix_rfl) List.IsPrefix.trans (fun w => ?_) w
  show w.log <+: ((Runtime.handshakeStep env w).elim Prod.snd id).log
  have hreply : ∀ action (w : World), w.log <+: (Runtime.replyHandshake env action w).2.log := by
    intro action w
    unfold Runtime.replyHandshake World.send
    split
    · split_ifs
      · exact List.prefix_rfl
      · exact List.prefix_append _ _
    · split_ifs
      · exact List.prefix_rfl
      · exact List.prefix_append _ _
    · exact List.prefix_rfl
  unfold Runtime.handshakeStep World.recv
  rcases w.inbox with - | ⟨r, rest⟩
  · exact List.prefix_rfl
  have hrecv : w.log <+: w.log ++ [.recv r] := List.prefix_append _ _
  dsimp only [World.push]
  split
  · exact hrecv
  · rename_i action proto _
    have hgrow := hrecv.trans (hreply action ⟨proto, rest, w.dead, w.log ++ [.recv r]⟩)
    split <;> rename_i hr <;> rw [hr] at hgrow
    · exact hgrow
    · split <;> exact hgrow

theorem runLoaded_log (env : Env) (m : UdfMeta) (w : World) :
    w.log <+: (Runtime.runLoaded env m w).2.log := by
  have hlog := sessionRel_log env
  unfold Runtime.runLoaded
  split
  · exact closeWith_log env w _ _
  · rename_i udf _
    exact (hlog.request _ w).trans ((hlog.dispatchRel.dispatch m udf w).trans
      (hlog.serve (closeWith_log env) m udf w))

/-- **The handshake meets the peer**, and the rest of the session starts between two cycles. -/
theorem handshake_meets (fx : Fixture) (rt : Runtime) (env : Env) {inbox : List ExascriptResponse}
    (hinbox : inbox = fx.peer.replies (start fx.cycles) (sends (rt.run env inbox).2.log)) :
    ∃ w H, (Runtime.handshake env).run (rt.greet inbox) = (.ok fx.udfMeta, w) ∧
      (rt.run env inbox).2.log = w.log ++ H ∧
      fx.peer.after (start fx.cycles) (sends w.log) = some { start fx.cycles with stage := .idle } ∧
      groupsOf w.log = ⟨[], none, w.log⟩ ∧
      Coupled fx w { start fx.cycles with stage := .idle } (sends H) := by
  set client : Frame := .request (Protocol.new.clientRequest rt.clientName) with hclient
  set hand : State := { start fx.cycles with stage := .handshake } with hhand
  set idle : State := { start fx.cycles with stage := .idle } with hidle
  have hstart : fx.peer (start fx.cycles) client = some (Session.infoReply fx.info, hand) := rfl
  have hgrow : ∀ w, (Runtime.handshake env).run (rt.greet inbox) = (Runtime.handshake env).run w →
      w.log <+: (rt.run env inbox).2.log := by
    intro w hrun
    have hshake := handshake_log env w
    rw [Runtime.run_eq, hrun]
    generalize (Runtime.handshake env).run w = r at hshake ⊢
    obtain ⟨e | m, w'⟩ := r
    · exact hshake
    · exact hshake.trans (runLoaded_log env m w')
  -- The first message is answered by `MT_INFO`, which calls for `MT_META`.
  obtain ⟨L, hL⟩ := hgrow (rt.greet inbox) rfl
  have hsends : sends (rt.run env inbox).2.log = client :: sends L := by
    rw [← hL]
    rfl
  rw [hsends, Peer.replies_cons hstart] at hinbox
  set p₁ : Protocol := ⟨mockConnId, .handshake, some fx.info, false⟩ with hp₁
  set w₁ : World := ⟨p₁, fx.peer.replies hand (sends L), false, [.send client,
    .recv (Session.infoReply fx.info), .send (.request p₁.metaRequest)]⟩ with hw₁
  have hround₁ : Runtime.handshakeStep env (rt.greet inbox) = .inr w₁ := by
    unfold Runtime.handshakeStep
    rw [World.recv_cons env (w := rt.greet inbox) hinbox]
    rfl
  have hrun₁ := Loop.run_of_inr (L := Runtime.handshake env) hround₁
  obtain ⟨L₁, hL₁⟩ := hgrow w₁ hrun₁
  have hsends₁ : sends L = .request p₁.metaRequest :: sends L₁ := by
    have hall := congrArg sends hL₁
    rw [hsends] at hall
    exact (List.cons.inj hall).2.symm
  -- The second one brings the metadata.
  have hmeta : fx.peer hand (.request p₁.metaRequest)
      = some (Session.metaReply fx.metadata, idle) := rfl
  set w₂ : World := ⟨⟨mockConnId, .run, none, fx.metadata.singleCallMode⟩,
    fx.peer.replies idle (sends L₁), false, w₁.log ++ [.recv (Session.metaReply fx.metadata)]⟩
    with hw₂
  have hinbox₁ : w₁.inbox
      = Session.metaReply fx.metadata :: fx.peer.replies idle (sends L₁) := by
    rw [hw₁]
    dsimp only
    rw [hsends₁, Peer.replies_cons hmeta]
  have hround₂ : Runtime.handshakeStep env w₁ = .inl (.ok fx.udfMeta, w₂) := by
    unfold Runtime.handshakeStep
    rw [World.recv_cons env hinbox₁]
    rfl
  have hshake : (Runtime.handshake env).run (rt.greet inbox) = (.ok fx.udfMeta, w₂) :=
    hrun₁.trans (Loop.run_of_inl (L := Runtime.handshake env) hround₂)
  have hrun : rt.run env inbox = Runtime.runLoaded env fx.udfMeta w₂ := by
    rw [Runtime.run_eq, hshake]
  obtain ⟨H, hH⟩ := runLoaded_log env fx.udfMeta w₂
  have hsends₂ : sends L₁ = sends H := by
    have hall := congrArg sends (hL₁.trans (hrun ▸ hH.symm))
    exact (List.cons.inj (List.cons.inj hall).2).2
  refine ⟨w₂, H, hshake, by rw [hrun, hH], ?_, rfl, rfl, rfl, ?_⟩
  · show fx.peer.after _ [client, .request p₁.metaRequest] = _
    rw [Peer.after_cons hstart, Peer.after_cons hmeta]
    rfl
  · rw [hw₂, hsends₂]

theorem loadUdf_code {code : Nat} {e : RuntimeError}
    (h : Runtime.loadUdf env m = .error (code, e)) : code ∈ closeCodes := by
  unfold Runtime.loadUdf at h
  repeat' split at h
  all_goals cases h
  all_goals simp [closeCodes]

/-- `MT_CLOSE` is refused in every stage. -/
theorem answer_close (hf : f.messageType = MessageType.mtClose.toI32) : fx.peer d f = none := by
  rcases hanswer : fx.peer d f with _ | ⟨r, d'⟩
  · rfl
  obtain ⟨event, hanswered⟩ := answer_inv hanswer
  cases hanswered with
  | client _ htype | metadata _ htype | run _ htype | cleanup _ htype | next _ htype
  | ended _ htype | done _ htype | finished _ htype => cases toI32_inj (hf.symm.trans htype)
  | emit _ hq =>
    subst hq
    cases toI32_inj (t := .mtEmit) hf

/-- A session of the runtime and a run of the driver that hear each other: the driver is given the
frames of the session, and the session the responses of the driver. -/
structure Joint {σ : Type} (rt : Runtime) (env : Env) (fx : Fixture) (sink : EmitSink σ)
    (st : σ) where
  responses : List ExascriptResponse
  heard : (fx.drive sink st (sends (rt.run env responses).2.log)).2.2.outbox.map
    ExascriptResponse.decode = responses.map some

namespace Joint

variable {σ : Type} {rt : Runtime} {sink : EmitSink σ} {st : σ}

def session (j : Joint rt env fx sink st) : Except RuntimeError Unit × World :=
  rt.run env j.responses

/-- The frames that the runtime sends. -/
def frames (j : Joint rt env fx sink st) : List Frame :=
  sends j.session.2.log

def driver (j : Joint rt env fx sink st) : Except MockError Unit × σ × Session :=
  fx.drive sink st j.frames

theorem sendable (hext : env.toExtern.Documented) (rt : Runtime)
    (inbox : List ExascriptResponse) : ∀ f ∈ sends (rt.run env inbox).2.log, Sendable f := by
  obtain ⟨cols, hshipped, -⟩ := Runtime.run_shipped hext rt inbox
  intro f hf
  have h := hshipped f hf
  cases f with
  | request r => exact h
  | emit r => exact h.built

/-- The responses of the peer make a joint session. -/
def ofReplies (hext : env.toExtern.Documented) (sink : EmitSink σ) (st : σ)
    {responses : List ExascriptResponse}
    (h : responses = fx.peer.replies (start fx.cycles) (sends (rt.run env responses).2.log)) :
    Joint rt env fx sink st where
  responses := responses
  heard := by
    obtain ⟨s', hplays, hok⟩ := drive_plays fx.metadata sink (sendable hext rt responses)
      fx.udfObject fx.scriptName fx.cycles st
    obtain ⟨houtbox, -⟩ := hplays.spec fun hres => (hok hres).1
    have hdecode : ExascriptResponse.decode ∘ ExascriptResponse.encodeToVec = some :=
      funext ExascriptResponse.decode_encodeToVec
    rw [Fixture.drive, houtbox, List.nil_append, List.map_map, hdecode]
    exact (congrArg _ h).symm

/-- The driver by its peer. -/
theorem driver_spec (hext : env.toExtern.Documented) (j : Joint rt env fx sink st) :
    j.responses = fx.peer.replies (start fx.cycles) j.frames ∧
      j.driver.1 = verdict fx.info fx.metadata (start fx.cycles) j.frames ∧
      (j.driver.1 = .ok () → j.driver.2.1
        = observed sink (fx.peer.stop (start fx.cycles) j.frames).collected.flatten st) := by
  obtain ⟨s', hplays, hok⟩ := drive_plays fx.metadata sink
    (sendable hext rt j.responses) fx.udfObject fx.scriptName fx.cycles st
  change Plays _ _ _ _ _ j.driver.1 j.driver.2.2 s' at hplays
  change j.driver.1 = .ok () → s'.stage = .finished ∧ j.driver.2.1 = _ at hok
  obtain ⟨houtbox, hverdict, hstop⟩ := hplays.spec fun hres => (hok hres).1
  refine ⟨?_, hverdict, fun hres => ?_⟩
  · have hheard : j.driver.2.2.outbox.map ExascriptResponse.decode = j.responses.map some := j.heard
    have hdecode : ExascriptResponse.decode ∘ ExascriptResponse.encodeToVec = some :=
      funext ExascriptResponse.decode_encodeToVec
    rw [houtbox, List.nil_append, List.map_map, hdecode] at hheard
    exact ((List.map_injective_iff.mpr (Option.some_injective _)) hheard).symm
  · rw [(hok hres).2]
    exact congrArg (fun s => observed sink (State.collected s).flatten st) hstop.symm

/-- **How a joint session goes**, from the end of the handshake to its end. -/
theorem meets (hext : env.toExtern.Documented) (j : Joint rt env fx sink st)
    (hrefused : ∀ code e, Runtime.loadUdf env fx.udfMeta = .error (code, e) → B)
    (hforeseen : ∀ udf, Runtime.loadUdf env fx.udfMeta = .ok udf →
      Foreseen fx env fx.udfMeta udf P B) :
    ∃ w H, j.session.2.log = w.log ++ H ∧
      fx.peer.after (start fx.cycles) (sends w.log) = some { start fx.cycles with stage := .idle } ∧
      groupsOf w.log = ⟨[], none, w.log⟩ ∧
      Ends fx env fx.udfMeta P B w { start fx.cycles with stage := .idle } H j.session := by
  obtain ⟨w, H, hshake, hlog, hafter, hgroups, hcoupled⟩ :=
    handshake_meets fx rt env (j.driver_spec hext).1
  refine ⟨w, H, hlog, hafter, hgroups, ?_⟩
  have hrun : j.session = Runtime.runLoaded env fx.udfMeta w := by
    show rt.run env j.responses = _
    rw [Runtime.run_eq, hshake]
  change j.session.2.log = _ at hlog
  rw [hrun] at hlog ⊢
  unfold Runtime.runLoaded at hlog ⊢
  split <;> rename_i hload <;> rw [hload] at hlog
  -- The UDF is refused, and the first message after the handshake says so.
  · rename_i code e
    exact closeWith_ends [] (hrefused code e hload) (loadUdf_code hload) hlog hcoupled.live rfl
      nofun
  · rename_i udf
    exact serve_meets (hforeseen udf hload) hext hlog rfl (List.Subset.refl _) (by rw [hgroups])
      hcoupled

/-- The verdict on a whole session is that on its last frames. -/
theorem driver_result (hext : env.toExtern.Documented) (j : Joint rt env fx sink st) {w : World}
    {H : List Event} (hlog : j.session.2.log = w.log ++ H)
    (hafter : fx.peer.after (start fx.cycles) (sends w.log) = some d) {pre post : List Frame}
    (hH : sends H = pre ++ post) (hpre : fx.peer.after d pre = some d') :
    j.driver.1 = verdict fx.info fx.metadata d' post := by
  have hframes : j.frames = sends w.log ++ (pre ++ post) := by
    rw [frames, hlog, sends_append, hH]
  rw [(j.driver_spec hext).2.1, hframes, verdict_append hafter, verdict_append hpre]

/-- A session that ends well has gone through the cycles, one by one. -/
theorem delivers (hext : env.toExtern.Documented) (j : Joint rt env fx sink st)
    (hrefused : ∀ code e, Runtime.loadUdf env fx.udfMeta = .error (code, e) → B)
    (hforeseen : ∀ udf, Runtime.loadUdf env fx.udfMeta = .ok udf →
      Foreseen fx env fx.udfMeta udf P B) (hok : j.session.1 = .ok ()) :
    j.driver.1 = .ok () ∧ ∃ emits : List (List EmitRequest),
      j.driver.2.1 = observed sink emits.flatten st ∧
      List.Forall₂ Fed fx.cycles (groupsOf j.session.2.log).closed ∧
      List.Forall₂ (Carries env fx.udfMeta) emits (groupsOf j.session.2.log).closed ∧
      List.Forall₂ (fun tables G => P tables
        (acceptedRows env.toExtern fx.udfMeta.outputColumns G)) fx.cycles
        (groupsOf j.session.2.log).closed := by
  obtain ⟨w, H, hlog, hafter, hgroups, hends⟩ := j.meets hext hrefused hforeseen
  obtain ⟨-, -, hsink⟩ := j.driver_spec hext
  rcases hsession : j.session with ⟨res, w'⟩
  rw [hsession] at hends hok
  obtain rfl : res = .ok () := hok
  cases hends with
  | @finished _ d' hafter' hstage hcycles hcycled =>
    have hdriver : j.driver.1 = .ok () := by
      rw [j.driver_result hext hlog hafter (List.append_nil _).symm hafter',
        verdict_finished hstage]
    have hstop : fx.peer.stop (start fx.cycles) j.frames = d' := by
      have hall : fx.peer.after (start fx.cycles) j.frames = some d' := by
        rw [frames, hlog, sends_append, Peer.after_append, hafter]
        exact hafter'
      have hstop := Peer.stop_append hall []
      rwa [List.append_nil] at hstop
    obtain ⟨cycles, emits, groups, hran, hcollected, hclosed, hfed, hcarry, hP⟩ := hcycled
    rw [hcycles, List.append_nil] at hran
    obtain rfl : fx.cycles = cycles := hran
    obtain rfl : d'.collected = emits := hcollected
    obtain rfl : (groupsOf w'.log).closed = groups := by rw [hclosed, hgroups, List.nil_append]
    refine ⟨hdriver, d'.collected, ?_, hfed, hcarry, hP⟩
    rw [hsink hdriver, hstop]

end Joint

/-- **Both ends agree.**  The driver ends well exactly when the session does.  Otherwise it has been
told of the very error that the session ends with, unless the UDF has looked up a CONNECTION, which
the driver does not expect. -/
theorem joint_agrees {σ : Type} {rt : Runtime} {sink : EmitSink σ} {st : σ}
    (hext : env.toExtern.Documented) (j : Joint rt env fx sink st) :
    (j.driver.1 = .ok () ↔ j.session.1 = .ok ()) ∧
      ∀ e, j.session.1 = .error e →
        (∃ code ∈ closeCodes, j.driver.1 = .error (.closed (some
          ("F-UDF-CL-RUST-" ++ Protocol.fourDigits code ++ ": " ++ e.display)))) ∨
        (j.driver.1
            = .error (.unexpected "MT_NEXT, MT_EMIT or MT_DONE" MessageType.mtImport.toI32) ∧
          ∃ f ∈ j.frames, f.messageType = MessageType.mtImport.toI32) := by
  obtain ⟨w, H, hlog, hafter, -, hends⟩ := j.meets hext (fun _ _ _ => trivial) fun udf _ =>
    .unknown fx env fx.udfMeta udf
  have hresult : ∀ {pre post : List Frame} {d' : State}, sends H = pre ++ post →
      fx.peer.after { start fx.cycles with stage := .idle } pre = some d' →
      j.driver.1 = verdict fx.info fx.metadata d' post :=
    fun hH hpre => j.driver_result hext hlog hafter hH hpre
  rcases hsession : j.session with ⟨res, w'⟩
  rw [hsession] at hends
  cases hends with
  | @finished _ d' hafter' hstage =>
    have hok : j.driver.1 = .ok () := by
      rw [hresult (List.append_nil _).symm hafter', verdict_finished hstage]
    exact ⟨⟨fun _ => rfl, fun _ => hok⟩, by simp⟩
  | @closed e _ d' pre p code _ hcode hH hafter' hstage =>
    have hclose : (Frame.request (p.errorCloseRequest code e.display)).messageType
        = MessageType.mtClose.toI32 := rfl
    have herror : j.driver.1 = .error (.closed (some
        ("F-UDF-CL-RUST-" ++ Protocol.fourDigits code ++ ": " ++ e.display))) := by
      rw [hresult hH hafter', verdict_refused (answer_close hclose) hstage, refusal, if_pos hclose]
      rfl
    refine ⟨⟨fun h => ?_, by simp⟩, fun e' h => .inl ⟨code, hcode, ?_⟩⟩
    · rw [herror] at h
      cases h
    · cases h
      exact herror
  | @lost e _ _ hlost =>
    obtain ⟨pre, f, d', hH, hafter', hstage, hrefused, htype⟩ := hlost
    have herror : j.driver.1 = .error
        (.unexpected "MT_NEXT, MT_EMIT or MT_DONE" MessageType.mtImport.toI32) := by
      rw [hresult hH hafter', verdict_refused hrefused (by simp [hstage]), refusal, htype,
        if_neg (by decide), hstage]
      rfl
    refine ⟨⟨fun h => ?_, by simp⟩, fun e' _ => .inr ⟨herror, f, ?_, htype⟩⟩
    · rw [herror] at h
      cases h
    · rw [Joint.frames, hlog, sends_append, hH]
      simp

/-- Cycles of batches for a script with one INTEGER column in and out. -/
def Fixture.integers (inputIter outputIter : Int32) (cycles : List (List (List Int32))) : Fixture :=
  let column : ColumnDefinition := ⟨"A", some 2, "INTEGER", none, none, none⟩
  ⟨"/f.so", "F", ⟨inputIter, outputIter, [column], [column], false⟩,
    cycles.map fun batches => batches.map fun values =>
      { ExascriptTableData.empty with
        rows := values.length
        dataNulls := values.map fun _ => false
        dataInt32 := values }⟩

/-- The second invocation fails. -/
theorem joint_agrees_sample :
    let udf := LoadedUdf.emitting fun log =>
      if log.countP Event.isRunStart = 1 then .done ⟨1, "no room"⟩ else .done ⟨0, ""⟩
    let env := Env.reference udf
    let fx := Fixture.integers 1 2 [[[1, 2]]]
    ∃ j : Joint ⟨"rust"⟩ env fx EmitCounters.observe .default, j.responses.length = 4 ∧
      (j.driver.1 = .ok () ↔ j.session.1 = .ok ()) ∧
        ∀ e, j.session.1 = .error e →
          (∃ code ∈ closeCodes, j.driver.1 = .error (.closed (some
            ("F-UDF-CL-RUST-" ++ Protocol.fourDigits code ++ ": " ++ e.display)))) ∨
          (j.driver.1
              = .error (.unexpected "MT_NEXT, MT_EMIT or MT_DONE" MessageType.mtImport.toI32) ∧
            ∃ f ∈ j.frames, f.messageType = MessageType.mtImport.toI32) := by
  intro udf env fx
  let responses := [Session.infoReply fx.info, Session.metaReply fx.metadata, reply .mtRun] ++
    fx.cycles.flatten.map nextReply
  have hreplies : responses = fx.peer.replies (start fx.cycles)
      (sends ((Runtime.mk "rust").run env responses).2.log) := by decide +kernel
  have hext : env.toExtern.Documented := Extern.reference_documented
  exact ⟨.ofReplies hext _ _ hreplies, rfl, joint_agrees hext _⟩

/-- **A joint session delivers.**  When it ends well, the groups of the client are the cycles of the
database, one by one: each has been given the batches of its cycle, and the sink has seen the
`MT_EMIT`s that carry the rows its calls have pushed, in order. -/
theorem joint_delivers {σ : Type} {rt : Runtime} {sink : EmitSink σ} {st : σ}
    (hext : env.toExtern.Documented) (j : Joint rt env fx sink st) (hok : j.session.1 = .ok ()) :
    ∃ emits : List (List EmitRequest), j.driver.2.1 = observed sink emits.flatten st ∧
      List.Forall₂ Fed fx.cycles (groupsOf j.session.2.log).closed ∧
      List.Forall₂ (Carries env fx.udfMeta) emits (groupsOf j.session.2.log).closed := by
  obtain ⟨-, emits, hsink, hfed, hcarry, -⟩ := j.delivers hext (fun _ _ _ => trivial)
    (fun udf _ => .unknown fx env fx.udfMeta udf) hok
  exact ⟨emits, hsink, hfed, hcarry⟩

/-- Two cycles, in which every row is emitted as it is. -/
theorem joint_delivers_sample :
    let udf := LoadedUdf.emitting fun _ => .call (.get 0) fun ans =>
      .call (.emit (match ans with | .value v => [v] | _ => [])) fun _ => .done ⟨0, ""⟩
    let env := Env.reference udf
    let fx := Fixture.integers 1 2 [[[1, 2], [3]], [[4]]]
    ∃ j : Joint ⟨"rust"⟩ env fx EmitCounters.observe .default,
      j.session.1 = .ok () ∧ ∃ emits : List (List EmitRequest),
        j.driver.2.1 = observed EmitCounters.observe emits.flatten .default ∧
        List.Forall₂ Fed fx.cycles (groupsOf j.session.2.log).closed ∧
        List.Forall₂ (Carries env fx.udfMeta) emits (groupsOf j.session.2.log).closed := by
  intro udf env fx
  let responses := [Session.infoReply fx.info, Session.metaReply fx.metadata] ++
    (fx.cycles.flatMap fun tables => reply .mtRun :: tables.map nextReply ++
      [reply .mtDone, reply .mtEmit, reply .mtDone]) ++ [reply .mtCleanup, reply .mtFinished]
  have hreplies : responses = fx.peer.replies (start fx.cycles)
      (sends ((Runtime.mk "rust").run env responses).2.log) := by decide +kernel
  have hext : env.toExtern.Documented := Extern.reference_documented
  let j : Joint ⟨"rust"⟩ env fx EmitCounters.observe .default := .ofReplies hext _ _ hreplies
  have hok : j.session.1 = .ok () := by
    show ((Runtime.mk "rust").run env responses).1 = .ok ()
    decide +kernel
  exact ⟨j, hok, joint_delivers hext j hok⟩

end MockDb

end ExaUdf
