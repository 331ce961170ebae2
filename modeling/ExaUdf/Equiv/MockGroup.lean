import ExaUdf.Equiv.Delivery
import ExaUdf.Equiv.Iteration
import ExaUdf.Equiv.MockDb
import ExaUdf.Equiv.Pings

/-!
# Groups against the mock database

`Coupled` is what holds between two exchanges of a runtime and the mock database's peer, whose
answers are the responses to come.  `runGroup_meets` follows it through a group, and `Within` says
what the group has made of the peer: the batches it has been given, and the `MT_EMIT`s it has sent.
-/

namespace ExaUdf

def Frame.emit? : Frame → Option EmitRequest
  | .emit r => some r
  | .request _ => none

/-- The `MT_EMIT`s that a history sends. -/
def emitsOf (log : List Event) : List EmitRequest :=
  (sends log).filterMap Frame.emit?

theorem emitsOf_append (log log' : List Event) :
    emitsOf (log ++ log') = emitsOf log ++ emitsOf log' := by
  rw [emitsOf, sends_append, List.filterMap_append]
  rfl

theorem emitted_eq (log : List Event) :
    log.filterMap Event.emitted? = (emitsOf log).map EmitRequest.table := by
  rw [emitsOf, sends, List.filterMap_filterMap, List.map_filterMap]
  congr 1
  funext e
  cases e with
  | send f => cases f <;> rfl
  | _ => rfl

/-- A frame that is sent within a group. -/
inductive Frame.IsInner : Frame → Prop where
  | emit (r : EmitRequest) : IsInner (.emit r)
  | next {r : ExascriptRequest} : r.type = MessageType.mtNext.toI32 → IsInner (.request r)
  | lookup {r : ExascriptRequest} : r.type = MessageType.mtImport.toI32 → IsInner (.request r)

namespace MockDb

open Protobuf

/-- What a test gives to the driver. -/
structure Fixture where
  udfObject : String
  scriptName : String
  metadata : ExascriptMetadata
  cycles : List (List ExascriptTableData)

namespace Fixture

def info (fx : Fixture) : ExascriptInfo :=
  Session.mockInfo fx.udfObject fx.scriptName

def peer (fx : Fixture) : Peer State Frame ExascriptResponse :=
  answer fx.info fx.metadata

/-- What the runtime makes of the handshake. -/
def udfMeta (fx : Fixture) : UdfMeta :=
  .fromPb fx.metadata fx.info

/-- Run the driver on the frames of a client. -/
def drive {σ : Type} (fx : Fixture) (sink : EmitSink σ) (st : σ) (frames : List Frame) :
    Except MockError Unit × σ × Session :=
  Session.drive sink fx.udfObject fx.scriptName fx.metadata (fx.cycles.map batchFrames) st
    (.bind (frames.map Frame.bytes))

end Fixture

variable {fx : Fixture} {env : Env} {w w' : World} {d d' d'' : State} {f : Frame} {F : List Frame}

/-! ### One exchange -/

/-- The phase of a client while the database is in this stage. -/
def InPhase (fx : Fixture) (d : State) (p : Protocol) : Prop :=
  match d.stage with
  | .client => p.phase = .handshake
  | .handshake => p.phase = .handshake ∧ p.pendingInfo = some fx.info
  | .idle | .running => p.phase = .run
  | .finishing => p.phase = .cleanup
  | .finished => p.phase = .done

/-- An exchange with the peer: the frame in its stage, the answer, and the event it stands for. -/
inductive Answered (fx : Fixture) (d : State) (f : Frame) :
    ExascriptResponse → State → HostEvent → Prop where
  | client : d.stage = .client → f.messageType = MessageType.mtClient.toI32 →
    Answered fx d f (Session.infoReply fx.info) { d with stage := .handshake } .pending
  | metadata : d.stage = .handshake → f.messageType = MessageType.mtMeta.toI32 →
    Answered fx d f (Session.metaReply fx.metadata) { d with stage := .idle } (.udfMeta fx.udfMeta)
  | run {tables : List ExascriptTableData} {cycles : List (List ExascriptTableData)} :
    d.stage = .idle → f.messageType = MessageType.mtRun.toI32 → d.cycles = tables :: cycles →
    Answered fx d f (reply .mtRun)
      { d with stage := .running, cycles := cycles, input := tables, emits := [] } .run
  | cleanup : d.stage = .idle → f.messageType = MessageType.mtRun.toI32 → d.cycles = [] →
    Answered fx d f (reply .mtCleanup) { d with stage := .finishing } .cleanup
  | next {table : ExascriptTableData} {tables : List ExascriptTableData} : d.stage = .running →
    f.messageType = MessageType.mtNext.toI32 → d.input = table :: tables →
    Answered fx d f (nextReply table) { d with input := tables } (.nextData table)
  | ended : d.stage = .running → f.messageType = MessageType.mtNext.toI32 → d.input = [] →
    Answered fx d f (reply .mtDone) d .done
  | emit {r : EmitRequest} : d.stage = .running → f = .emit r →
    Answered fx d f (reply .mtEmit) { d with emits := d.emits ++ [r] } .emitAck
  | done : d.stage = .running → f.messageType = MessageType.mtDone.toI32 →
    Answered fx d f (reply .mtDone)
      { d with stage := .idle, emits := [], collected := d.collected ++ [d.emits] } .done
  | finished : d.stage = .finishing → f.messageType = MessageType.mtFinished.toI32 →
    Answered fx d f (reply .mtFinished) { d with stage := .finished } .finished

theorem answer_inv {r : ExascriptResponse} (h : fx.peer d f = some (r, d')) :
    ∃ event, Answered fx d f r d' event := by
  unfold Fixture.peer answer at h
  rcases hstage : d.stage with _ | _ | _ | _ | _ | _ <;> rw [hstage] at h <;> dsimp only at h
  · split_ifs at h with htype
    cases h
    exact ⟨_, .client hstage htype⟩
  · split_ifs at h with htype
    cases h
    exact ⟨_, .metadata hstage htype⟩
  · split_ifs at h with htype
    split at h <;> rename_i hcycles <;> cases h
    · exact ⟨_, .run hstage htype hcycles⟩
    · exact ⟨_, .cleanup hstage htype hcycles⟩
  · unfold answerRunning at h
    split at h <;> rename_i hkind <;> try cases h
    · have htype := eq_toI32_of_tryFrom hkind
      rcases hinput : d.input with _ | ⟨table, tables⟩ <;> rw [hinput] at h <;> cases h
      · exact ⟨_, .ended hstage htype hinput⟩
      · exact ⟨_, .next hstage htype hinput⟩
    · cases f <;> cases h
      exact ⟨_, .emit hstage rfl⟩
    · exact ⟨_, .done hstage (eq_toI32_of_tryFrom hkind)⟩
  · split_ifs at h with htype
    cases h
    exact ⟨_, .finished hstage htype⟩
  · cases h

/-- **The answers mean what they are meant to mean**: no answer is a ping, the runtime reads the
event off it, and its phase keeps up with the stage. -/
theorem Answered.step {r : ExascriptResponse} {event : HostEvent}
    (h : Answered fx d f r d' event) {p : Protocol} (hphase : InPhase fx d p) :
    r.messageType ≠ .mtPingPong ∧ outcome p r = .ok event ∧ InPhase fx d' (p.step r).2 := by
  -- Each answer is made from a type, which is not that of a ping.
  have htype : ∀ mt : MessageType, mt ≠ .mtPingPong →
      (MessageType.tryFrom mt.toI32).getD .mtUnknown ≠ .mtPingPong := by
    intro mt hmt
    rwa [tryFrom_toI32, Option.getD_some]
  obtain ⟨id, phase, pending, single⟩ := p
  cases h with
  | client hstage =>
    rw [InPhase, hstage] at hphase
    obtain rfl := hphase
    exact ⟨htype .mtInfo nofun, rfl, rfl, rfl⟩
  | metadata hstage =>
    rw [InPhase, hstage] at hphase
    obtain ⟨rfl, rfl⟩ := hphase
    exact ⟨htype .mtMeta nofun, rfl, rfl⟩
  | run hstage | cleanup hstage | done hstage | finished hstage =>
    rw [InPhase, hstage] at hphase
    obtain rfl := hphase
    exact ⟨htype _ nofun, rfl, rfl⟩
  -- The stage stays as it is.
  | next hstage | ended hstage | emit hstage =>
    rw [InPhase, hstage] at hphase
    obtain rfl := hphase
    refine ⟨htype _ nofun, rfl, ?_⟩
    rw [InPhase, show State.stage _ = _ from hstage]
    rfl

/-- The runtime and the peer between two exchanges, before the frames `F`. -/
structure Coupled (fx : Fixture) (w : World) (d : State) (F : List Frame) : Prop where
  live : w.dead = false
  phase : InPhase fx d w.proto
  inbox : w.inbox = fx.peer.replies d F

namespace Coupled

/-- A request that the peer answers. -/
theorem request_answered (env : Env) (h : Coupled fx w d (f :: F)) {r : ExascriptResponse}
    (hanswer : fx.peer d f = some (r, d')) :
    ∃ event, Answered fx d f r d' event ∧ (w.request env f).1 = .ok event ∧
      Coupled fx (w.request env f).2 d' F ∧
      (w.request env f).2.log = w.log ++ [.send f, .recv r, .answered f (.ok event)] := by
  obtain ⟨event, hanswered⟩ := answer_inv hanswer
  obtain ⟨hping, hevent, hphase⟩ := hanswered.step h.phase
  have hinbox := h.inbox
  rw [Peer.replies_cons hanswer] at hinbox
  refine ⟨event, hanswered, ?_⟩
  rw [@World.request_answer env w _ r hping hinbox h.live f, hevent]
  exact ⟨rfl, ⟨h.live, hphase, rfl⟩, rfl⟩

/-- A request that the peer refuses: no answer comes, and the socket is stuck. -/
theorem request_refused (env : Env) (h : Coupled fx w d (f :: F)) (hrefused : fx.peer d f = none) :
    (∃ e, (w.request env f).1 = .error e) ∧ (w.request env f).2.dead = true ∧
      ∃ e, (w.request env f).2.log = w.log ++ [.send f, .answered f (.error e)] := by
  have hinbox := h.inbox
  rw [Peer.replies_of_refused hrefused] at hinbox
  obtain ⟨proto, inbox, dead, log⟩ := w
  obtain rfl : inbox = [] := hinbox
  obtain rfl : dead = false := h.live
  have hwait : (World.awaitAnswer env).run ⟨proto, [], false, log ++ [.send f]⟩
      = (.error (World.recvTimedOut env), ⟨proto, [], true, log ++ [.send f]⟩) :=
    Loop.run_of_inl (L := World.awaitAnswer env) rfl
  have hrun : World.request env f ⟨proto, [], false, log⟩ = (.error (World.recvTimedOut env),
      ⟨proto, [], true, log ++ [.send f] ++ [.answered f (.error (World.recvTimedOut env))]⟩) := by
    unfold World.request World.send
    dsimp only [World.push]
    rw [if_neg Bool.false_ne_true]
    dsimp only
    rw [hwait]
  rw [hrun]
  exact ⟨⟨_, rfl⟩, rfl, _, by rw [List.append_assoc]; rfl⟩

/-- What an exchange adds to the history: with the peer, the frame is all that is sent. -/
theorem exists_log (fx : Fixture) (env : Env) (f : Frame) (w : World) :
    ∃ G, (w.request env f).2.log = w.log ++ G ∧ (w.dead = true → G = []) ∧
      ∀ d F, Coupled fx w d (sends G ++ F) → sends G = [f] ∧ Coupled fx w d (f :: F) := by
  have hspec := World.request_spec env f w
  generalize hr : w.request env f = r at hspec
  cases hspec with
  | stuck _ hdead =>
    refine ⟨[], (List.append_nil _).symm, fun _ => rfl, fun d F h => ?_⟩
    rw [h.live] at hdead
    cases hdead
  | @answered events res w' hlive _ hlog =>
    refine ⟨_, hlog, (fun h => by rw [hlive] at h; cases h), fun d F h => ?_⟩
    have hfirst : Coupled fx w d (f :: (sends (events ++ [.answered f res]) ++ F)) := h
    have hone : ∃ G, w'.log = w.log ++ G ∧ sends G = [f] := by
      rcases hanswer : fx.peer d f with _ | ⟨q, d'⟩
      · obtain ⟨-, -, e, hlog'⟩ := hfirst.request_refused env hanswer
        exact ⟨_, hr ▸ hlog', rfl⟩
      · obtain ⟨event, -, -, -, hlog'⟩ := hfirst.request_answered env hanswer
        exact ⟨_, hr ▸ hlog', rfl⟩
    obtain ⟨G, hlog', hsends⟩ := hone
    obtain rfl := List.append_cancel_left (hlog.symm.trans hlog')
    rw [hsends] at h
    exact ⟨hsends, h⟩

end Coupled

/-! ### Groups -/

/-- What the events of a group make of a peer within a run cycle. -/
structure Within (fx : Fixture) (d d' : State) (G : List Event) : Prop where
  after : fx.peer.after d (sends G) = some d'
  stage : d'.stage = .running
  cycles : d'.cycles = d.cycles
  collected : d'.collected = d.collected
  emits : d'.emits = d.emits ++ emitsOf G
  input : d.input = batchesOf G ++ d'.input
  dry : SaidDone G → d'.input = []
  acked : Acked G

/-- The last frame is refused: the mock database knows no CONNECTION. -/
def Lost (fx : Fixture) (d : State) (G : List Event) : Prop :=
  ∃ pre f d', sends G = pre ++ [f] ∧ fx.peer.after d pre = some d' ∧ d'.stage = .running ∧
    fx.peer d' f = none ∧ f.messageType = MessageType.mtImport.toI32

theorem Within.trans {G G' : List Event} (h : Within fx d d' G) (h' : Within fx d' d'' G') :
    Within fx d d'' (G ++ G') where
  after := by
    rw [sends_append, Peer.after_append, h.after]
    exact h'.after
  stage := h'.stage
  cycles := h'.cycles.trans h.cycles
  collected := h'.collected.trans h.collected
  emits := by rw [h'.emits, h.emits, emitsOf_append, List.append_assoc]
  input := by rw [h.input, h'.input, batchesOf_append, List.append_assoc]
  dry := by
    rintro ⟨f, hmem, hasks⟩
    rcases List.mem_append.mp hmem with hmem | hmem
    · have hinput := h'.input
      rw [h.dry ⟨f, hmem, hasks⟩] at hinput
      exact (List.append_eq_nil_iff.mp hinput.symm).2
    · exact h'.dry ⟨f, hmem, hasks⟩
  acked := by
    intro r res hmem
    exact (List.mem_append.mp hmem).elim (h.acked r res) (h'.acked r res)

/-- Events that send nothing and answer nothing. -/
theorem Within.silent (hstage : d.stage = .running) {G : List Event} (hsends : sends G = [])
    (hanswers : ∀ f res, .answered f res ∉ G) : Within fx d d G where
  after := by rw [hsends]; rfl
  stage := hstage
  cycles := rfl
  collected := rfl
  emits := by rw [emitsOf, hsends]; exact (List.append_nil _).symm
  input := by
    rw [batchesOf_of_none fun e he => ?_]
    · rfl
    · cases e with
      | answered f res => exact absurd he (hanswers f res)
      | _ => rfl
  dry := fun ⟨f, hmem, _⟩ => absurd hmem (hanswers f _)
  acked := fun r res hmem => absurd hmem (hanswers _ res)

theorem Lost.after {G G' : List Event} (h' : Lost fx d' G')
    (h : fx.peer.after d (sends G) = some d') : Lost fx d (G ++ G') := by
  obtain ⟨pre, f, d'', hsends, hafter, hrest⟩ := h'
  refine ⟨sends G ++ pre, f, d'', by rw [sends_append, hsends, List.append_assoc], ?_, hrest⟩
  rw [Peer.after_append, h]
  exact hafter

theorem Lost.silent {G G' : List Event} (h : Lost fx d G) (hsends : sends G' = []) :
    Lost fx d (G ++ G') := by
  obtain ⟨pre, f, d', hpre, hrest⟩ := h
  exact ⟨pre, f, d', by rw [sends_append, hsends, List.append_nil, hpre], hrest⟩

theorem toI32_inj {t u : MessageType} (h : t.toI32 = u.toI32) : t = u := by
  have hsame := congrArg MessageType.tryFrom h
  rwa [tryFrom_toI32, tryFrom_toI32, Option.some_inj] at hsame

/-- The answers to the frames of a group: an `MT_EMIT` is kept, and any other leaves what has been
emitted as it is. -/
theorem Answered.inner {r : ExascriptResponse} {event : HostEvent} (h : Answered fx d f r d' event)
    (hstage : d.stage = .running) (hf : f.IsInner) :
    event.isTeardown = false ∧ d'.stage = .running ∧ d'.cycles = d.cycles ∧
      d'.collected = d.collected ∧ d'.emits = d.emits ++ f.emit?.toList ∧
      d.input = (Event.answered f (.ok event)).batch?.toList ++ d'.input ∧
      (event = .done → d'.input = []) ∧ ∀ q, f = .emit q → event = .emitAck := by
  cases h with
  | client hstage' | metadata hstage' | run hstage' | cleanup hstage' | finished hstage' =>
    rw [hstage] at hstage'
    cases hstage'
  | @next table tables _ htype hinput =>
    have hasks : f.asksNext = true := beq_iff_eq.mpr htype
    have hbatch : (Event.answered f (.ok (.nextData table))).batch? = some table := if_pos hasks
    cases f with
    | emit q => cases toI32_inj (t := .mtEmit) htype
    | request q =>
      refine ⟨rfl, hstage, rfl, rfl, (List.append_nil _).symm, ?_, nofun, fun _ h => nomatch h⟩
      rw [hbatch]
      exact hinput
  | ended _ htype hinput =>
    cases f with
    | emit q => cases toI32_inj (t := .mtEmit) htype
    | request q =>
      exact ⟨rfl, hstage, rfl, rfl, (List.append_nil _).symm, rfl, fun _ => hinput,
        fun _ h => nomatch h⟩
  | emit _ hq =>
    subst hq
    exact ⟨rfl, hstage, rfl, rfl, rfl, rfl, nofun, fun _ _ => rfl⟩
  | done _ htype =>
    cases hf with
    | emit q => cases toI32_inj (t := .mtEmit) htype
    | next htype' | lookup htype' => cases toI32_inj (htype'.symm.trans htype)

/-- What the peer refuses within a group is a lookup. -/
theorem lookup_of_refused (hrefused : fx.peer d f = none) (hstage : d.stage = .running)
    (hf : f.IsInner) : f.messageType = MessageType.mtImport.toI32 := by
  have hrunning : answerRunning d f = none := by
    rw [Fixture.peer, answer, hstage] at hrefused
    exact hrefused
  cases hf with
  | emit r => cases hrunning
  | next htype =>
    rw [answerRunning, Frame.messageType, htype, tryFrom_toI32] at hrunning
    dsimp only at hrunning
    split at hrunning <;> cases hrunning
  | lookup htype => exact htype

/-- **An exchange of a group** is answered within the run cycle, or it is a lookup. -/
theorem Coupled.inner (env : Env) (h : Coupled fx w d (f :: F)) (hstage : d.stage = .running)
    (hf : f.IsInner) :
    ∃ G, (w.request env f).2.log = w.log ++ G ∧ sends G = [f] ∧
      ((∃ d' event, (w.request env f).1 = .ok event ∧ event.isTeardown = false ∧
        Coupled fx (w.request env f).2 d' F ∧ Within fx d d' G) ∨
      (∃ e, (w.request env f).1 = .error e) ∧ (w.request env f).2.dead = true ∧ Lost fx d G) := by
  rcases hanswer : fx.peer d f with _ | ⟨r, d'⟩
  · obtain ⟨herror, hdead, e, hlog⟩ := h.request_refused env hanswer
    exact ⟨_, hlog, rfl, .inr ⟨herror, hdead, [], f, d, rfl, rfl, hstage, hanswer,
      lookup_of_refused hanswer hstage hf⟩⟩
  · obtain ⟨event, hanswered, hres, hcoupled, hlog⟩ := h.request_answered env hanswer
    obtain ⟨htear, hstage', hcycles, hcollected, hemits, hinput, hdry, hack⟩ :=
      hanswered.inner hstage hf
    have hmem : ∀ {g : Frame} {res : Except RuntimeError HostEvent},
        Event.answered g res ∈ [.send f, .recv r, .answered f (.ok event)] →
        g = f ∧ res = .ok event := by
      intro g res h
      simpa using h
    refine ⟨_, hlog, rfl, .inl ⟨d', event, hres, htear, hcoupled, Peer.after_cons hanswer [],
      hstage', hcycles, hcollected, ?_, ?_, ?_, ?_⟩⟩
    · rw [hemits]
      cases f <;> rfl
    · rw [hinput]
      show _ = [Event.answered f (.ok event)].filterMap _ ++ _
      rw [List.filterMap_cons, List.filterMap_nil]
      cases (Event.answered f (.ok event)).batch? <;> rfl
    · rintro ⟨g, h, -⟩
      exact hdry (Except.ok.inj (hmem h).2).symm
    · intro q res h
      obtain ⟨hq, rfl⟩ := hmem h
      rw [hack q hq.symm]

/-- What a part of a group makes of the coupling, from a feed to a feed. -/
def GroupMeets (fx : Fixture) (fd fd' : Feed) : Prop :=
  ∃ G, fd'.world.log = fd.world.log ++ G ∧
    (fd.world.dead = true → sends G = [] ∧ fd'.world.dead = true ∧ fd'.exit = fd.exit) ∧
    ∀ d F, d.stage = .running → Coupled fx fd.world d (sends G ++ F) → fd'.exit = fd.exit ∧
      ((∃ d', Coupled fx fd'.world d' F ∧ Within fx d d' G) ∨
        fd'.world.dead = true ∧ Lost fx d G)

/-- An exchange of a group, whose answer leaves the feed's exit alone unless it is a teardown. -/
theorem GroupMeets.exchange {fd fd' : Feed} (hf : f.IsInner)
    (hworld : fd'.world = (fd.world.request env f).2)
    (herror : ∀ e, (fd.world.request env f).1 = .error e → fd'.exit = fd.exit)
    (hok : ∀ event, (fd.world.request env f).1 = .ok event → event.isTeardown = false →
      fd'.exit = fd.exit) : GroupMeets fx fd fd' := by
  obtain ⟨G, hlog, hstuck, hone⟩ := Coupled.exists_log fx env f fd.world
  rw [← hworld] at hlog
  refine ⟨G, hlog, fun hdead => ?_, fun d F hstage hcoupled => ?_⟩
  · have hrun := World.request_dead env f hdead
    refine ⟨by rw [hstuck hdead]; rfl, ?_, herror _ (congrArg Prod.fst hrun)⟩
    rw [hworld, hrun]
    exact hdead
  · obtain ⟨-, hfirst⟩ := hone d F hcoupled
    obtain ⟨G', hlog', -, hends⟩ := hfirst.inner env hstage hf
    rw [← hworld, hlog] at hlog'
    obtain rfl := List.append_cancel_left hlog'
    rw [← hworld] at hends
    rcases hends with ⟨d', event, hres, htear, hcoupled', hwithin⟩ | ⟨⟨e, hres⟩, hdead', hlost⟩
    · exact ⟨hok event hres htear, .inl ⟨d', hcoupled', hwithin⟩⟩
    · exact ⟨herror e hres, .inr ⟨hdead', hlost⟩⟩

theorem GroupMeets.refl (fd : Feed) : GroupMeets fx fd fd := by
  refine ⟨[], (List.append_nil _).symm, fun h => ⟨rfl, h, rfl⟩, fun d F hstage h => ⟨rfl, .inl ?_⟩⟩
  exact ⟨d, h, .silent hstage rfl fun _ _ => List.not_mem_nil⟩

theorem GroupMeets.trans {a b c : Feed} (hab : GroupMeets fx a b) (hbc : GroupMeets fx b c) :
    GroupMeets fx a c := by
  obtain ⟨G, hlog, hdead, hmeets⟩ := hab
  obtain ⟨G', hlog', hdead', hmeets'⟩ := hbc
  refine ⟨G ++ G', by rw [hlog', hlog, List.append_assoc], fun h => ?_, fun d F hstage h => ?_⟩
  · obtain ⟨hsends, hb, hexit⟩ := hdead h
    obtain ⟨hsends', hc, hexit'⟩ := hdead' hb
    exact ⟨by rw [sends_append, hsends, hsends']; rfl, hc, hexit'.trans hexit⟩
  · rw [sends_append, List.append_assoc] at h
    obtain ⟨hexit, ⟨d', hcoupled, hwithin⟩ | ⟨hb, hlost⟩⟩ := hmeets d _ hstage h
    · obtain ⟨hexit', hend⟩ := hmeets' d' F hwithin.stage hcoupled
      refine ⟨hexit'.trans hexit, ?_⟩
      rcases hend with ⟨d'', hcoupled', hwithin'⟩ | ⟨hc, hlost⟩
      · exact .inl ⟨d'', hcoupled', hwithin.trans hwithin'⟩
      · exact .inr ⟨hc, hlost.after hwithin.after⟩
    · obtain ⟨hsends, hc, hexit'⟩ := hdead' hb
      exact ⟨hexit'.trans hexit, .inr ⟨hc, hlost.silent hsends⟩⟩

/-- **Every step of a group** meets the peer. -/
theorem groupRel_meets (fx : Fixture) (env : Env) : GroupRel env (GroupMeets fx) where
  refl := GroupMeets.refl
  trans := GroupMeets.trans
  next fd := by
    refine .exchange (f := .request fd.world.proto.nextRequest) (.next rfl)
      (Feed.fetchStep_world env fd) (fun e hres => ?_) fun event hres htear => ?_
    · unfold Feed.fetchStep
      generalize fd.world.request env _ = r at hres
      obtain ⟨res, w⟩ := r
      obtain rfl : res = .error e := hres
      rfl
    · unfold Feed.fetchStep
      generalize fd.world.request env _ = r at hres
      obtain ⟨res, w⟩ := r
      obtain rfl : res = .ok event := hres
      cases event <;> first | rfl | cases htear
  emit fd table _ := .exchange (.emit _) rfl (fun _ _ => rfl) fun _ _ _ => rfl
  lookup fd name := .exchange (f := .request _) (.lookup rfl) rfl (fun _ _ => rfl) fun _ _ _ => rfl
  note fd e he := by
    have hsent : sends [e] = [] ∧ ∀ f res, .answered f res ∉ [e] := by
      refine ⟨?_, fun f res hmem => ?_⟩
      · cases e <;> first | rfl | cases he
      · rw [← List.mem_singleton.mp hmem] at he
        cases he
    refine ⟨[e], rfl, fun h => ⟨hsent.1, h, rfl⟩, fun d F hstage h => ⟨rfl, .inl ⟨d, ?_, ?_⟩⟩⟩
    · rw [hsent.1] at h
      exact ⟨h.live, h.phase, h.inbox⟩
    · exact .silent hstage hsent.1 hsent.2

theorem endGroup_exit {fd : Feed} {buf : EmitBuffer} {early : Except RuntimeError Unit}
    (h : (endGroup env fd buf).1 = .ok (some early)) : fd.exit ≠ none := by
  intro hexit
  unfold endGroup at h
  rw [hexit] at h
  dsimp only at h
  split at h <;> cases h

/-- A group seen as one part of a session: it does not end the session unless its feed says so. -/
theorem runGroup_feed (fx : Fixture) (env : Env) (m : UdfMeta) (udf : LoadedUdf) (w : World) :
    ∃ fd, GroupMeets fx ⟨w, none⟩ fd ∧ fd.world = (runGroup env m udf w).2 ∧
      ∀ early, (runGroup env m udf w).1 = .ok (some early) → fd.exit ≠ none := by
  have hrel := groupRel_meets fx env
  have hfirst := firstNonemptyInput_rel m hrel.toRel.toFetchRel ⟨w, none⟩
  unfold runGroup
  split <;> rename_i hf <;> rw [hf] at hfirst
  · exact ⟨_, hfirst, rfl, fun _ h => nomatch h⟩
  · rename_i fd
    exact ⟨_, hfirst.trans (endGroup_rel hrel.toRel.toWriteRel fd EmitBuffer.new), rfl,
      fun _ h => show fd.exit ≠ none from endGroup_exit h⟩
  · rename_i input fd
    have hdrive := driveGroupRows_rel m udf hrel (HostContextBridge.new fd input)
    split <;> rename_i hd <;> rw [hd] at hdrive
    · exact ⟨_, hfirst.trans hdrive, rfl, fun _ h => nomatch h⟩
    · rename_i b
      exact ⟨_, hfirst.trans (hdrive.trans
        (endGroup_rel hrel.toRel.toWriteRel b.toFeed b.emitBuf)), rfl,
        fun _ h => show b.exit ≠ none from endGroup_exit h⟩

/-- **A group meets the peer**: it stays within its run cycle, and does not end the session. -/
theorem runGroup_meets (fx : Fixture) (env : Env) (m : UdfMeta) (udf : LoadedUdf) (w : World) :
    ∃ G, (runGroup env m udf w).2.log = w.log ++ G ∧
      ∀ d F, d.stage = .running → Coupled fx w d (sends G ++ F) →
        (∀ early, (runGroup env m udf w).1 ≠ .ok (some early)) ∧
          ((∃ d', Coupled fx (runGroup env m udf w).2 d' F ∧ Within fx d d' G) ∨
            (runGroup env m udf w).2.dead = true ∧ Lost fx d G) := by
  obtain ⟨fd, ⟨G, hlog, -, hmeets⟩, hworld, hearly⟩ := runGroup_feed fx env m udf w
  rw [← hworld]
  refine ⟨G, hlog, fun d F hstage hcoupled => ?_⟩
  obtain ⟨hexit, hend⟩ := hmeets d F hstage hcoupled
  exact ⟨fun early h => hearly early h hexit, hend⟩

/-! ### Input and output -/

variable {m : UdfMeta}

/-- The `MT_EMIT`s of a cycle carry the rows that the calls of a group have pushed. -/
def Carries (env : Env) (m : UdfMeta) (emits : List EmitRequest) (G : List Event) : Prop :=
  tableRows m.outputColumns (emits.map EmitRequest.table)
    = some (acceptedRows env.toExtern m.outputColumns G)

/-- What a group has sent are the rows that its calls have pushed. -/
theorem carries_of_group {G : List Event} (hwithin : Within fx d d' G) (hemits : d.emits = [])
    (hlog : w'.log = w.log ++ G) (hlive : w'.dead = false) (hsent : SentAll env m w.log w') :
    Carries env m d'.emits G := by
  obtain ⟨A, G', hlog', hA, hrows⟩ := hsent
  obtain rfl : G = G' := List.append_cancel_left (hlog.symm.trans hlog')
  obtain ⟨sent, hsent, hall, -⟩ := hrows hwithin.acked
  rw [Carries, hwithin.emits, hemits, List.nil_append, ← emitted_eq, hA, ← hall hlive]
  exact hsent

/-- A group has been given the batches of a cycle in order: all of them, once it has been told that
there are no more rows. -/
def Fed (tables : List ExascriptTableData) (G : List Event) : Prop :=
  batchesOf G <+: tables ∧ (SaidDone G → batchesOf G = tables)

theorem fed_of_within {G₀ G : List Event} (hbatches : batchesOf G₀ = []) (hdone : ¬ SaidDone G₀)
    (hwithin : Within fx d d' G) : Fed d.input (G₀ ++ G) := by
  rw [Fed, batchesOf_append, hbatches, List.nil_append, hwithin.input]
  refine ⟨List.prefix_append _ _, ?_⟩
  rintro ⟨f, hmem, hasks⟩
  rcases List.mem_append.mp hmem with hmem | hmem
  · exact absurd ⟨f, hmem, hasks⟩ hdone
  · rw [hwithin.dry ⟨f, hmem, hasks⟩, List.append_nil]

end MockDb

end ExaUdf
