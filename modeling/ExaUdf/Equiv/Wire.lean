import ExaUdf.Equiv.Calendar
import ExaUdf.Equiv.Protocol
import ExaUdf.Runtime

/-!
# What an exchange leaves in the history

`request_spec` says what `World.request` adds to the history: the request, then only receipts and
replies to pings, then the answer.  Whatever a session does is made of such exchanges and of notes,
so a relation that both respect holds between the worlds before and after (`dispatch_rel`,
`serve_rel`).
-/

namespace ExaUdf

/-- What waiting for an answer adds to the history; whether it left the socket stuck. -/
inductive Waiting : List Event → Except RuntimeError HostEvent → Bool → Prop where
  | timeout (e : RuntimeError) : Waiting [] (.error e) true
  | error {p : Protocol} {r : ExascriptResponse} {e : ProtocolError} :
    (p.step r).1 = .error e → Waiting [.recv r] (.error (.protocol e)) false
  | answer {p : Protocol} {r : ExascriptResponse} {event : HostEvent}
    {action : Option HostAction} : (p.step r).1 = .ok (event, action) →
    (∀ s, action ≠ some (.pingReply s)) → Waiting [.recv r] (.ok event) false
  | ping {p : Protocol} {r : ExascriptResponse} {event : HostEvent} {s : String}
    {events : List Event} {res : Except RuntimeError HostEvent} {dead : Bool} :
    (p.step r).1 = .ok (event, some (.pingReply s)) → Waiting events res dead →
    Waiting (.recv r :: .send (.request ((p.step r).2.pingReply s)) :: events) res dead

namespace World

/-- What an exchange adds to the history.  A stuck socket adds nothing. -/
inductive Exchange (f : Frame) (w : World) : Except RuntimeError HostEvent × World → Prop where
  | stuck (e : RuntimeError) : w.dead = true → Exchange f w (.error e, w)
  | answered {events : List Event} {res : Except RuntimeError HostEvent} {w' : World} :
    w.dead = false → Waiting events res w'.dead →
    w'.log = w.log ++ .send f :: (events ++ [.answered f res]) → Exchange f w (res, w')

/-- **Exchanges.**  The request is sent, pings are replied to, and the answer is noted. -/
theorem request_spec (env : Env) (f : Frame) (w : World) : Exchange f w (w.request env f) := by
  -- Whatever completes the wait from `w₁` completes the wait from the start.
  refine request_rule (P := fun w₁ => w₁.dead = false ∧ w.dead = false ∧
      ∃ events, w₁.log = w.log ++ .send f :: events ∧
        ∀ later res dead, Waiting later res dead → Waiting (events ++ later) res dead)
    (Q := Exchange f w) ?_ ?_ ?_ ?_
  · intro hdead e
    exact .stuck e hdead
  · intro hdead
    exact ⟨hdead, hdead, [], rfl, fun later res dead h => h⟩
  · rintro w₁ res w₂ ⟨hlive, hdead, events, hlog, hwait⟩ hstep
    cases hstep with
    | timeout e hinbox =>
      refine .answered hdead (hwait [] _ true (.timeout e)) ?_
      simp only [push, hlog, List.append_nil, List.cons_append, List.append_assoc]
    | @error r rest e hinbox hr =>
      refine .answered hdead (hwait [.recv r] _ _ ?_) ?_
      · show Waiting [.recv r] _ w₁.dead
        rw [hlive]
        exact .error hr
      · simp only [push, take, hlog, List.cons_append, List.append_assoc]
    | @answer r rest event action hinbox hr haction =>
      refine .answered hdead (hwait [.recv r] _ _ ?_) ?_
      · show Waiting [.recv r] _ w₁.dead
        rw [hlive]
        exact .answer hr haction
      · simp only [push, take, hlog, List.cons_append, List.append_assoc]
    | stuck e hinbox hstuck =>
      rw [hlive] at hstuck
      cases hstuck
  · rintro w₁ w₂ ⟨hlive, hdead, events, hlog, hwait⟩ hstep
    cases hstep with
    | @ping r rest event s hinbox hr hlive' =>
      refine ⟨hlive, hdead,
        events ++ [.recv r, .send (.request ((w₁.proto.step r).2.pingReply s))], ?_, ?_⟩
      · simp only [push, take, hlog, List.cons_append, List.append_assoc, List.nil_append]
      · intro later res dead h
        rw [List.append_assoc]
        exact hwait _ res dead (.ping hr h)

/-- On a working socket a request gets out. -/
theorem request_sends (env : Env) (f : Frame) {w : World} (hlive : w.dead = false) :
    w.log ++ [.send f] <+: (w.request env f).2.log := by
  generalize hr : w.request env f = r
  have hspec := request_spec env f w
  rw [hr] at hspec
  cases hspec with
  | stuck _ hdead =>
    rw [hlive] at hdead
    cases hdead
  | answered _ _ hlog =>
    rw [hlog, ← List.singleton_append (l := _ ++ _), ← List.append_assoc]
    exact List.prefix_append _ _

/-- On a stuck socket a request fails. -/
theorem request_dead (env : Env) (f : Frame) {w : World} (hdead : w.dead = true) :
    w.request env f = (.error (.protocol (.zmq env.socketStateError)), w) := by
  unfold request send
  rw [hdead]
  rfl

end World

/-! ### Receipts and ping replies -/

def pingType : Int32 := MessageType.mtPingPong.toI32

/-- A receipt, or the reply to a ping. -/
def Event.isPassing : Event → Bool
  | .recv _ => true
  | .send f => f.messageType == pingType
  | _ => false

theorem Waiting.isPassing {events : List Event} {res : Except RuntimeError HostEvent} {dead : Bool}
    (h : Waiting events res dead) : ∀ e ∈ events, e.isPassing = true := by
  induction h with
  | timeout => exact fun e he => absurd he List.not_mem_nil
  | error | answer => exact fun e he => List.mem_singleton.mp he ▸ rfl
  | ping _ _ ih =>
    intro e he
    obtain rfl | rfl | he := by simpa only [List.mem_cons] using he
    · rfl
    · rfl
    · exact ih e he

def Event.sent? : Event → Option Frame
  | .send f => some f
  | _ => none

/-- The messages that a history sends. -/
def sends (log : List Event) : List Frame :=
  log.filterMap Event.sent?

/-! ### Dispatch -/

/-- The messages of dispatch. -/
def Frame.isWork : Frame → Bool
  | .emit _ => true
  | .request r => r.type ∈ [MessageType.mtRun, .mtNext, .mtEmit, .mtImport, .mtReturn,
      .mtUndefinedCall, .mtDone].map MessageType.toI32

def Frame.kind (f : Frame) : MessageType :=
  (MessageType.tryFrom f.messageType).getD .mtUnknown

/-- A relation that the exchanges and the notes of dispatch respect. -/
structure DispatchRel (env : Env) (R : World → World → Prop) : Prop where
  refl : ∀ w, R w w
  trans : ∀ {a b c}, R a b → R b c → R a c
  work : ∀ f w, f.isWork = true → R w (w.request env f).2
  dispatchNote : ∀ w e, e.isDispatchNote = true → R w (w.push e)

namespace DispatchRel

variable {env : Env} {R : World → World → Prop}

theorem groupRel (h : DispatchRel env R) : GroupRel env fun fd fd' => R fd.world fd'.world where
  refl _ := h.refl _
  trans := h.trans
  next fd := Feed.fetchStep_world env fd ▸ h.work _ _ (by rfl)
  emit _ _ _ := h.work _ _ (by rfl)
  lookup _ _ := h.work _ _ (by rfl)
  note _ e he := h.dispatchNote _ e he

theorem singleCallRel (h : DispatchRel env R) : SingleCallRel env R where
  refl := h.refl
  trans := h.trans
  lookup _ _ := h.work _ _ (by rfl)
  note := h.dispatchNote

/-- A group respects the relation from the answer to its `MT_RUN` on. -/
theorem runUdfStep (h : DispatchRel env R) (m : UdfMeta) (udf : LoadedUdf) (w : World) :
    R (w.request env (.request w.proto.runRequest)).2
      ((runUdfStep env m udf w).elim Prod.snd id) := by
  unfold ExaUdf.runUdfStep
  split <;> rename_i hr <;> rw [hr] <;> try exact h.refl _
  rename_i w₁ _ _
  have hgroup := runGroup_rel h.groupRel m udf w₁
  split <;> rename_i hg <;> rw [hg] at hgroup <;> try exact hgroup
  rename_i w₂
  have hclose := h.work (.request w₂.proto.doneRequest) w₂ (by rfl)
  split <;> rename_i hd <;> rw [hd] at hclose <;> exact h.trans hgroup hclose

theorem runUdf (h : DispatchRel env R) (m : UdfMeta) (udf : LoadedUdf) (w : World) :
    R w (runUdf env m udf w).2 :=
  (runUdfLoop env m udf).run_rel id Prod.snd h.refl h.trans
    (fun w => h.trans (h.work _ w (by rfl)) (h.runUdfStep m udf w)) w

theorem replyCall (h : DispatchRel env R) (fnId : SingleCallFunctionId) (outcome : HookOutcome)
    (w : World) : R w (replyCall env fnId outcome w).2 := by
  unfold ExaUdf.replyCall
  dsimp only
  generalize hframe : Frame.request _ = f
  have hwork : f.isWork = true := by
    rw [← hframe]
    cases outcome <;> rfl
  have hreply := h.work f w hwork
  split <;> rename_i hr <;> rw [hr] at hreply
  · exact hreply
  · split <;> exact hreply

theorem finishCall (h : DispatchRel env R) (w : World) : R w (finishCall env w).2 := by
  have hreq := h.work (.request w.proto.doneRequest) w (by rfl)
  unfold ExaUdf.finishCall
  split <;> rename_i hr <;> rw [hr] at hreq
  · exact hreq
  · split <;> exact hreq

/-- A call respects the relation from the answer to its `MT_RUN` on. -/
theorem runSingleCallStep (h : DispatchRel env R) (udf : LoadedUdf) (w : World) :
    R (w.request env (.request w.proto.runRequest)).2
      ((runSingleCallStep env udf w).elim Prod.snd id) := by
  unfold ExaUdf.runSingleCallStep
  split <;> rename_i hr <;> rw [hr]
  · exact h.refl _
  rename_i event w₁
  split <;> try exact h.refl _
  rename_i fnId jsonArg importSpec exportSpec
  have hhook := invokeHook_rel h.singleCallRel udf ⟨fnId, jsonArg, importSpec, exportSpec⟩ w₁
  split <;> rename_i hi <;> rw [hi] at hhook
  · exact hhook
  rename_i outcome w₂
  have hreply := h.replyCall fnId outcome w₂
  split <;> rename_i hp <;> rw [hp] at hreply
  · exact h.trans hhook hreply
  rename_i w₃
  have hfinish := h.finishCall w₃
  split <;> rename_i hd <;> rw [hd] at hfinish <;> exact h.trans hhook (h.trans hreply hfinish)

theorem runSingleCall (h : DispatchRel env R) (udf : LoadedUdf) (w : World) :
    R w (runSingleCall env udf w).2 :=
  (runSingleCallLoop env udf).run_rel id Prod.snd h.refl h.trans
    (fun w => h.trans (h.work _ w (by rfl)) (h.runSingleCallStep udf w)) w

/-- **Rule for dispatch**, streaming or single-call.  It starts with an `MT_RUN`. -/
theorem dispatch (h : DispatchRel env R) (m : UdfMeta) (udf : LoadedUdf) (w : World) :
    R (w.request env (.request w.proto.runRequest)).2 (Runtime.dispatch env m udf w).2 := by
  unfold Runtime.dispatch
  split_ifs
  · exact h.trans (h.runSingleCallStep udf w) ((runSingleCallLoop env udf).step_rel id Prod.snd
      h.refl h.trans (fun w => h.trans (h.work _ w (by rfl)) (h.runSingleCallStep udf w)) w)
  · exact h.trans (h.runUdfStep m udf w) ((runUdfLoop env m udf).step_rel id Prod.snd
      h.refl h.trans (fun w => h.trans (h.work _ w (by rfl)) (h.runUdfStep m udf w)) w)

end DispatchRel

/-! ### Sessions -/

/-- A relation that exchanges and notes respect. -/
structure SessionRel (env : Env) (R : World → World → Prop) : Prop where
  refl : ∀ w, R w w
  trans : ∀ {a b c}, R a b → R b c → R a c
  request : ∀ f w, R w (w.request env f).2
  note : ∀ w e, e.isNote = true → R w (w.push e)

namespace SessionRel

variable {env : Env} {R : World → World → Prop}

theorem dispatchRel (h : SessionRel env R) : DispatchRel env R where
  refl := h.refl
  trans := h.trans
  work f w _ := h.request f w
  dispatchNote w e he := h.note w e (Event.isNote_of_isDispatchNote he)

theorem runHook (h : SessionRel env R) (udf : LoadedUdf) (outcome : Except RuntimeError Unit)
    (w : World) : R w (Cleanup.runHook udf outcome w).2 :=
  Cleanup.runHook_rel h.refl h.trans h.note udf outcome w

theorem sendFinished (h : SessionRel env R) (w : World) :
    R w (Runtime.sendFinished env w).2 := by
  have hreq := h.request (.request w.proto.finishedReply) w
  unfold Runtime.sendFinished
  split <;> rename_i hr <;> rw [hr] at hreq <;> exact hreq

theorem finish (h : SessionRel env R) (cleaned : Except RuntimeError Unit × World) :
    R cleaned.2 (Runtime.finish env cleaned).2 := by
  unfold Runtime.finish
  split
  · exact h.refl _
  · exact h.sendFinished _

/-- From dispatch to the end of the session, when the relation respects the error text too. -/
theorem serve (h : SessionRel env R)
    (hclose : ∀ (w : World) code e, R w (Runtime.closeWith env code e w).2) (m : UdfMeta)
    (udf : LoadedUdf) (w : World) :
    R (Runtime.dispatch env m udf w).2 (Runtime.serve env m udf w).2 := by
  unfold Runtime.serve Runtime.report
  have hhook := h.runHook udf (Runtime.dispatch env m udf w).1 (Runtime.dispatch env m udf w).2
  have hfinish := h.trans hhook (h.finish _)
  dsimp only
  split <;> rename_i hr <;> rw [hr] at hfinish
  · exact h.trans hfinish (hclose _ _ _)
  · exact hfinish

end SessionRel

/-! ### What every session respects -/

/-- The history only grows. -/
theorem sessionRel_log (env : Env) : SessionRel env fun w w' => w.log <+: w'.log where
  refl _ := List.prefix_rfl
  trans := List.IsPrefix.trans
  request f w := by
    generalize hr : w.request env f = r
    have hspec := World.request_spec env f w
    rw [hr] at hspec
    cases hspec with
    | stuck => exact List.prefix_rfl
    | answered _ _ hlog => exact hlog ▸ List.prefix_append _ _
  note _ _ _ := List.prefix_append _ _

/-- A stuck socket stays stuck. -/
theorem sessionRel_dead (env : Env) :
    SessionRel env fun w w' => w.dead = true → w'.dead = true where
  refl _ := id
  trans hab hbc := hbc ∘ hab
  request f w hdead := by
    unfold World.request World.send
    rw [hdead]
    exact hdead
  note _ _ _ := id

theorem closeWith_log (env : Env) (w : World) (code : Nat) (e : RuntimeError) :
    w.log <+: (Runtime.closeWith env code e w).2.log := by
  unfold Runtime.closeWith World.send
  split_ifs
  · exact List.prefix_rfl
  · exact List.prefix_append _ _

theorem closeWith_dead (env : Env) (w : World) (code : Nat) (e : RuntimeError) :
    (Runtime.closeWith env code e w).2.dead = w.dead := by
  unfold Runtime.closeWith World.send
  split_ifs <;> rfl

/-- The history has grown by events of some kind. -/
def World.Adds (P : Event → Prop) (w w' : World) : Prop :=
  ∃ events, w'.log = w.log ++ events ∧ ∀ e ∈ events, P e

namespace World.Adds

variable {P : Event → Prop}

theorem refl (w : World) : Adds P w w :=
  ⟨[], (List.append_nil _).symm, fun _ h => absurd h List.not_mem_nil⟩

theorem trans {a b c : World} (hab : Adds P a b) (hbc : Adds P b c) : Adds P a c := by
  obtain ⟨as, ha, hPa⟩ := hab
  obtain ⟨bs, hb, hPb⟩ := hbc
  refine ⟨as ++ bs, by rw [hb, ha, List.append_assoc], fun e he => ?_⟩
  exact (List.mem_append.mp he).elim (hPa e) (hPb e)

theorem push {e : Event} (h : P e) (w : World) : Adds P w (w.push e) :=
  ⟨[e], rfl, fun _ he => List.mem_singleton.mp he ▸ h⟩

theorem request {env : Env} {f : Frame} (hsend : P (.send f))
    (hanswered : ∀ res, P (.answered f res)) (hpassing : ∀ e, e.isPassing = true → P e)
    (w : World) : Adds P w (w.request env f).2 := by
  generalize hr : w.request env f = r
  have hspec := World.request_spec env f w
  rw [hr] at hspec
  cases hspec with
  | stuck => exact refl w
  | @answered events res w' _ hwait hlog =>
    refine ⟨_, hlog, fun e he => ?_⟩
    simp only [List.mem_cons, List.mem_append, List.not_mem_nil, or_false] at he
    rcases he with rfl | he | rfl
    · exact hsend
    · exact hpassing e (hwait.isPassing e he)
    · exact hanswered res

end World.Adds

/-- An event of dispatch. -/
def Event.isDispatch : Event → Bool
  | .send f => f.isWork || f.messageType == pingType
  | .recv _ | .answered .. => true
  | e => e.isDispatchNote

theorem Event.isDispatch_of_isPassing {e : Event} (h : e.isPassing = true) :
    e.isDispatch = true := by
  cases e with
  | send f => exact Bool.or_eq_true_iff.mpr (.inr h)
  | recv r => rfl
  | _ => cases h

theorem dispatchRel_adds (env : Env) :
    DispatchRel env (World.Adds fun e => e.isDispatch = true) where
  refl := World.Adds.refl
  trans := World.Adds.trans
  work f w hf := World.Adds.request (by simp [Event.isDispatch, hf]) (fun _ => rfl)
    (fun _ => Event.isDispatch_of_isPassing) w
  dispatchNote w e he := World.Adds.push (by cases e <;> first | exact he | cases he) w

/-! ### The handshake -/

/-- An event of the handshake. -/
def Event.isGreeting : Event → Bool
  | .recv _ => true
  | .send f => f.messageType == MessageType.mtClient.toI32 ||
      f.messageType == MessageType.mtMeta.toI32 || f.messageType == pingType
  | _ => false

namespace Runtime

/-- What a round of the handshake can do, before the run phase. -/
inductive HandshakeStep (w : World) : (Except RuntimeError UdfMeta × World) ⊕ World → Prop where
  | timeout (e : RuntimeError) : w.inbox = [] →
    HandshakeStep w (.inl (.error e, { w with dead := true }))
  | ended (e : RuntimeError) {r : ExascriptResponse} {rest : List ExascriptResponse} :
    w.inbox = r :: rest → w.dead = true ∨ r.isPassedOver = false →
    HandshakeStep w (.inl (.error e, w.take r rest))
  | metadata (m : UdfMeta) {r : ExascriptResponse} {rest : List ExascriptResponse} :
    w.inbox = r :: rest → w.proto.phase = .handshake → r.isTeardown = false →
    r.isPassedOver = false → HandshakeStep w (.inl (.ok m, w.take r rest))
  | reply {f : Frame} {r : ExascriptResponse} {rest : List ExascriptResponse} :
    w.inbox = r :: rest → w.dead = false → (w.proto.step r).2.phase = w.proto.phase →
    f.messageType = pingType ∨
      f.messageType = MessageType.mtMeta.toI32 ∧ w.proto.phase = .handshake →
    r.isTeardown = false → r.isPassedOver = false →
    HandshakeStep w (.inr ((w.take r rest).push (.send f)))
  | passedOver {r : ExascriptResponse} {rest : List ExascriptResponse} :
    w.inbox = r :: rest → (w.proto.step r).2.phase ≠ .run →
    ((w.proto.step r).2.phase = .handshake →
      w.proto.phase = .handshake ∧ r.isTeardown = false) →
    r.isPassedOver = true → HandshakeStep w (.inr (w.take r rest))

/-- A request of the handshake is sent, or the socket turns out to be stuck. -/
theorem HandshakeStep.send {env : Env} {w : World} {r : ExascriptResponse}
    {rest : List ExascriptResponse} {f : Frame} (hinbox : w.inbox = r :: rest)
    (hphase : (w.proto.step r).2.phase = w.proto.phase)
    (hf : f.messageType = pingType ∨
      f.messageType = MessageType.mtMeta.toI32 ∧ w.proto.phase = .handshake)
    (htear : r.isTeardown = false) (hover : r.isPassedOver = false) :
    HandshakeStep w (match (w.take r rest).send env f with
      | (.error e, w) => .inl (.error e, w)
      | (.ok (), w) => .inr w) := by
  unfold World.send
  cases hdead : (w.take r rest).dead with
  | true => exact .ended _ hinbox (.inl hdead)
  | false => exact .reply hinbox hdead hphase hf htear hover

theorem handshakeStep_inv (env : Env) {w : World} (hphase : w.proto.phase ≠ .run) :
    HandshakeStep w (handshakeStep env w) := by
  unfold handshakeStep
  cases hinbox : w.inbox with
  | nil =>
    rw [World.recv_nil env hinbox]
    exact .timeout _ hinbox
  | cons r rest =>
    have hspec := w.proto.step_spec r
    -- In every case the response is taken off the inbox and the protocol has seen it.
    have htake : ∀ res proto, w.proto.step r = (res, proto) →
        World.mk proto rest w.dead (w.log ++ [.recv r]) = w.take r rest := by
      intro res proto h
      simp only [World.take, h]
    rw [World.recv_cons env hinbox]
    dsimp only [World.push]
    generalize hstep : w.proto.step r = stepped at hspec
    cases hspec with
    | error e _ hover =>
      dsimp only
      rw [htake _ _ hstep]
      exact .ended _ hinbox (.inr hover)
    | pending info hp _ htear hover =>
      have hsame : (w.proto.step r).2.phase = w.proto.phase := by rw [hstep]; rfl
      dsimp only [replyHandshake]
      rw [htake _ _ hstep]
      exact .send hinbox hsame (.inr ⟨rfl, hp⟩) htear hover
    | metadata metadata info hp _ _ htear hover =>
      dsimp only [replyHandshake]
      rw [htake _ _ hstep]
      exact .metadata _ hinbox hp htear hover
    -- No event of the run phase comes up before it.
    | running event _ hp => exact absurd hp hphase
    | ping s htear hover =>
      have hsame : (w.proto.step r).2.phase = w.proto.phase := by rw [hstep]; rfl
      dsimp only [replyHandshake]
      rw [htake _ _ hstep]
      exact .send hinbox hsame (.inl rfl) htear hover
    | incidental event hevent htear hover =>
      have hsame : (w.proto.step r).2.phase = w.proto.phase := by rw [hstep]; rfl
      have hnext : HandshakeStep w (.inr (w.take r rest)) :=
        .passedOver hinbox (hsame ▸ hphase) (fun h => ⟨hsame ▸ h, htear⟩) hover
      dsimp only [replyHandshake]
      rw [htake _ _ hstep]
      cases event <;> first | exact hnext | cases hevent
    | cleanup hmt =>
      dsimp only [replyHandshake]
      rw [htake _ _ hstep]
      refine .passedOver hinbox ?_ ?_ (isPassedOver_cleanup hmt) <;> rw [hstep]
      · rintro ⟨⟩
      · rintro ⟨⟩
    | finished hmt =>
      dsimp only [replyHandshake]
      rw [htake _ _ hstep]
      refine .passedOver hinbox ?_ ?_ (isPassedOver_finished hmt) <;> rw [hstep]
      · rintro ⟨⟩
      · rintro ⟨⟩
    | close message hmt =>
      dsimp only [replyHandshake]
      rw [htake _ _ hstep]
      exact .ended _ hinbox (.inr (isPassedOver_close hmt))

/-- The channel after `MT_CLIENT` has been sent. -/
def greet (rt : Runtime) (inbox : List ExascriptResponse) : World :=
  (connect inbox).push (.send (.request ((connect inbox).proto.clientRequest rt.clientName)))

/-- The handshake only greets. -/
theorem handshake_isGreeting (rt : Runtime) (env : Env) (inbox : List ExascriptResponse) :
    ∀ e ∈ ((handshake env).run (rt.greet inbox)).2.log, e.isGreeting = true := by
  have hadd : ∀ {log : List Event} {e : Event}, (∀ e ∈ log, e.isGreeting = true) →
      e.isGreeting = true → ∀ e' ∈ log ++ [e], e'.isGreeting = true := by
    intro log e hlog he e' he'
    exact (List.mem_append.mp he').elim (hlog e') fun h => List.mem_singleton.mp h ▸ he
  refine (handshake env).run_rule
    (P := fun w => w.proto.phase ≠ .run ∧ ∀ e ∈ w.log, e.isGreeting = true)
    (Q := fun r => ∀ e ∈ r.2.log, e.isGreeting = true) ?_ ?_ ?_
  · rintro w r ⟨hphase, hlog⟩ heq
    have hstep := handshakeStep_inv env hphase
    change handshakeStep env w = _ at heq
    rw [heq] at hstep
    cases hstep with
    | timeout => exact hlog
    | ended | metadata => exact hadd hlog rfl
  · rintro w w' ⟨hphase, hlog⟩ heq
    have hstep := handshakeStep_inv env hphase
    change handshakeStep env w = _ at heq
    rw [heq] at hstep
    cases hstep with
    | @reply f r rest _ _ hsame hf =>
      refine ⟨?_, hadd (hadd hlog rfl) ?_⟩
      · show (w.proto.step r).2.phase ≠ .run
        exact hsame ▸ hphase
      · show (_ || _ || _) = true
        rcases hf with hf | ⟨hf, -⟩ <;> rw [hf] <;> decide
    | passedOver _ hphase' => exact ⟨hphase', hadd hlog rfl⟩
  · refine ⟨(fun h => nomatch h), fun e he => ?_⟩
    obtain rfl := List.mem_singleton.mp he
    rfl

/-- The first message always gets out. -/
theorem run_eq (rt : Runtime) (env : Env) (inbox : List ExascriptResponse) :
    rt.run env inbox =
      match (handshake env).run (rt.greet inbox) with
      | (.error e, w) => (.error e, w)
      | (.ok m, w) => runLoaded env m w := rfl

end Runtime

/-! ### A small installation -/

/-- The responses of a handshake for a script with one INTEGER column on either side. -/
def openingResponses (inputIter outputIter : Int32) : List ExascriptResponse :=
  let column : ColumnDefinition := ⟨"A", some 2, "INTEGER", none, none, none⟩
  let info : ExascriptInfo :=
    ⟨"DB", "8.0", "F", "%udf_object /f.so;", 1, 1, 1, 0, 0, 0, "S", none, none, none⟩
  let metadata : ExascriptMetadata := ⟨inputIter, outputIter, [column], [column], false⟩
  [{ ExascriptResponse.ofType .mtInfo with info := some info },
    { ExascriptResponse.ofType .mtMeta with metadata := some metadata }]

/-- The metadata of such a script. -/
def integerMeta (inputIter outputIter : Int32) : UdfMeta :=
  let column : ColumnDefinition := ⟨"A", some 2, "INTEGER", none, none, none⟩
  .fromPb ⟨inputIter, outputIter, [column], [column], false⟩
    ⟨"DB", "8.0", "F", "%udf_object /f.so;", 1, 1, 1, 0, 0, 0, "S", none, none, none⟩

/-- A channel whose handshake is over. -/
def World.running (inbox : List ExascriptResponse) : World :=
  { Runtime.connect inbox with proto := { Protocol.new with phase := .run } }

/-- An input batch of one INTEGER column. -/
def batchResponse (values : List Int32) : ExascriptResponse :=
  let table : ExascriptTableData :=
    { ExascriptTableData.empty with
      rows := values.length
      dataNulls := values.map fun _ => false
      dataInt32 := values }
  { ExascriptResponse.ofType .mtNext with next := some table }

def closeResponse (reason : String) : ExascriptResponse :=
  { ExascriptResponse.ofType .mtClose with close := some ⟨some reason⟩ }

/-- A UDF that emits and has no other hook. -/
def LoadedUdf.emitting (run : List Event → UdfProg) : LoadedUdf where
  run := run
  cleanup := none
  outputShape := .emits
  annotatedInputSchema := none
  annotatedOutputSchema := none
  defaultOutputColumns := none
  virtualSchemaAdapterCall := none
  generateSqlForImportSpec := none
  generateSqlForExportSpec := none

/-- A container in which every shared object is `udf`. -/
def Env.reference (udf : LoadedUdf) : Env where
  toExtern := .reference
  pollElapsed := "120s"
  socketStateError := "Operation cannot be accomplished in current state"
  debugEvent := fun
    | .emitAck => "EmitAck"
    | .tryAgain => "TryAgain"
    | .finished => "Finished"
    | _ => "Run"
  parseJson := fun _ => .error "expected value at line 1 column 1"
  printJson := Json.render
  openUdf := fun _ _ => .ok udf

end ExaUdf
