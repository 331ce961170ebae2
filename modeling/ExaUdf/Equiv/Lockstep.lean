import ExaUdf.Equiv.Wire
import Mathlib.Data.List.Chain

/-!
# Lockstep

Sends and receipts of a session alternate, starting with a send, exactly when the handshake receives
nothing that it passes over (`Runtime.run_lockstep`).  From dispatch on they always alternate:
every exchange is a send that is followed by its receipt.
-/

namespace ExaUdf

inductive Direction where
  | send | recv
  deriving DecidableEq, Repr

def Event.direction : Event → Option Direction
  | .send _ => some .send
  | .recv _ => some .recv
  | _ => none

/-- The sends and receipts of a history. -/
def traffic (log : List Event) : List Direction :=
  log.filterMap Event.direction

/-- Sends and receipts alternate, starting with a send. -/
def Lockstep (log : List Event) : Prop :=
  (Direction.recv :: traffic log).IsChain (· ≠ ·)

/-- The event is no `MT_RUN`. -/
def Event.precedesDispatch : Event → Bool
  | .send f => f.messageType != MessageType.mtRun.toI32
  | _ => true

/-- The history up to the first `MT_RUN`: the handshake, and the message that closes a session
which does not get to dispatch. -/
def handshakePart (log : List Event) : List Event :=
  log.takeWhile Event.precedesDispatch

/-! ### Alternation -/

/-- After a message in direction `d` the events alternate, and end with one in direction `d'`. -/
def Alternates (d : Direction) (events : List Event) (d' : Direction) : Prop :=
  (d :: traffic events).IsChain (· ≠ ·) ∧ (d :: traffic events).getLast? = some d'

namespace Alternates

theorem nil (d : Direction) : Alternates d [] d :=
  ⟨.singleton d, rfl⟩

theorem send {f : Frame} : Alternates .recv [.send f] .send :=
  ⟨.cons_cons (by decide) (.singleton _), rfl⟩

theorem recv {r : ExascriptResponse} : Alternates .send [.recv r] .recv :=
  ⟨.cons_cons (by decide) (.singleton _), rfl⟩

theorem none {e : Event} (h : e.direction = .none) (d : Direction) : Alternates d [e] d := by
  unfold Alternates traffic
  rw [List.filterMap_cons_none h, List.filterMap_nil]
  exact nil d

theorem append {d d' d'' : Direction} {as bs : List Event} (ha : Alternates d as d')
    (hb : Alternates d' bs d'') : Alternates d (as ++ bs) d'' := by
  obtain ⟨hchain, hlast⟩ := ha
  obtain ⟨init, hinit⟩ := List.getLast?_eq_some_iff.mp hlast
  have hall : d :: traffic (as ++ bs) = init ++ d' :: traffic bs := by
    unfold traffic
    rw [List.filterMap_append, ← List.cons_append]
    show (d :: traffic as) ++ traffic bs = _
    rw [hinit, List.append_assoc]
    rfl
  unfold Alternates
  rw [hall]
  constructor
  · exact List.isChain_split.mpr ⟨hinit ▸ hchain, hb.1⟩
  · rw [List.getLast?_append]
    simpa using hb.2

theorem lockstep {log : List Event} {d : Direction} (h : Alternates .recv log d) : Lockstep log :=
  h.1

end Alternates

theorem Lockstep.of_prefix {log log' : List Event} (hle : log <+: log') (h : Lockstep log') :
    Lockstep log := by
  obtain ⟨later, rfl⟩ := hle
  unfold Lockstep traffic at h
  rw [List.filterMap_append, ← List.cons_append] at h
  exact h.left_of_append

theorem Waiting.alternates {events : List Event} {res : Except RuntimeError HostEvent}
    {dead : Bool} (h : Waiting events res dead) :
    ∃ d, Alternates .send events d ∧ (dead = false → d = .recv) := by
  induction h with
  | timeout => exact ⟨.send, .nil _, fun h => nomatch h⟩
  | error | answer => exact ⟨.recv, .recv, fun _ => rfl⟩
  | @ping p r event s events res dead _ _ ih =>
    obtain ⟨d, hd, hlast⟩ := ih
    have hping := (Alternates.recv (r := r)).append
      (Alternates.send (f := .request ((p.step r).2.pingReply s)))
    exact ⟨d, hping.append hd, hlast⟩

/-! ### From dispatch on -/

/-- The history alternates, and the client is to send next. -/
def InStep (w : World) : Prop :=
  ∃ d, Alternates .recv w.log d ∧ (w.dead = false → d = .recv)

theorem sessionRel_inStep (env : Env) : SessionRel env fun w w' => InStep w → InStep w' where
  refl _ := id
  trans hab hbc := hbc ∘ hab
  request f w := by
    rintro ⟨d, hlog, hd⟩
    generalize hr : w.request env f = r
    have hspec := World.request_spec env f w
    rw [hr] at hspec
    cases hspec with
    | stuck => exact ⟨d, hlog, hd⟩
    | @answered events res w' hlive hwait hlog' =>
      obtain ⟨d', hd', hlast⟩ := hwait.alternates
      refine ⟨d', ?_, hlast⟩
      show Alternates .recv w'.log d'
      rw [hlog', ← List.singleton_append (l := events ++ _)]
      rw [hd hlive] at hlog
      exact hlog.append (Alternates.send.append (hd'.append (.none rfl d')))
  note w e he := by
    rintro ⟨d, hlog, hd⟩
    refine ⟨d, hlog.append (.none ?_ d), hd⟩
    cases e <;> first | rfl | cases he

theorem closeWith_lockstep {env : Env} {w : World} (h : InStep w) (code : Nat) (e : RuntimeError) :
    Lockstep (Runtime.closeWith env code e w).2.log := by
  obtain ⟨d, hlog, hd⟩ := h
  unfold Runtime.closeWith World.send
  split_ifs with hdead
  · exact hlog.lockstep
  · rw [hd (Bool.eq_false_iff.mpr hdead)] at hlog
    exact (hlog.append .send).lockstep

theorem runLoaded_lockstep {env : Env} (m : UdfMeta) {w : World} (h : InStep w) :
    Lockstep (Runtime.runLoaded env m w).2.log := by
  have hrel := sessionRel_inStep env
  unfold Runtime.runLoaded
  split
  · exact closeWith_lockstep h _ _
  · rename_i udf _
    unfold Runtime.serve Runtime.report
    have hdispatch := hrel.dispatchRel.dispatch m udf w (hrel.request _ w h)
    have hfinish := hrel.finish _ (hrel.runHook udf (Runtime.dispatch env m udf w).1 _ hdispatch)
    dsimp only
    split <;> rename_i hr <;> rw [hr] at hfinish
    · exact closeWith_lockstep hfinish _ _
    · obtain ⟨d, hlog, -⟩ := hfinish
      exact hlog.lockstep

/-! ### The handshake -/

/-- Nothing received is passed over in a handshake. -/
def Clean (log : List Event) : Prop :=
  ∀ r, Event.recv r ∈ log → r.isPassedOver = false

theorem handshakePart_append {as : List Event} (h : ∀ e ∈ as, e.precedesDispatch = true)
    (bs : List Event) : handshakePart (as ++ bs) = as ++ handshakePart bs :=
  List.takeWhile_append_of_pos h

/-- The history of a handshake that goes on: it alternates, or something was passed over.  Then it
fails to alternate as soon as the next response comes. -/
def Asking (log : List Event) : Prop :=
  Clean log ∧ Alternates .recv log .send ∨
    ¬ Clean log ∧ (Alternates .recv log .recv ∨ ¬ Lockstep log)

/-- The history of a handshake that is over. -/
def Asked (w : World) : Prop :=
  Clean w.log ∧ InStep w ∨ ¬ Clean w.log ∧ (w.dead = true ∨ ¬ Lockstep w.log)

theorem Clean.append {as bs : List Event} : Clean (as ++ bs) ↔ Clean as ∧ Clean bs := by
  unfold Clean
  constructor
  · intro h
    exact ⟨fun r hr => h r (List.mem_append_left _ hr),
      fun r hr => h r (List.mem_append_right _ hr)⟩
  · rintro ⟨ha, hb⟩ r hr
    exact (List.mem_append.mp hr).elim (ha r) (hb r)

theorem clean_recv {r : ExascriptResponse} : Clean [.recv r] ↔ r.isPassedOver = false := by
  unfold Clean
  simp

/-- A receipt right after a receipt breaks the alternation. -/
theorem not_lockstep_recv {log : List Event} (r : ExascriptResponse)
    (h : Alternates .recv log .recv ∨ ¬ Lockstep log) : ¬ Lockstep (log ++ [.recv r]) := by
  intro hlock
  rcases h with ⟨-, hlast⟩ | h
  · obtain ⟨init, hinit⟩ := List.getLast?_eq_some_iff.mp hlast
    unfold Lockstep traffic at hlock
    rw [List.filterMap_append, ← List.cons_append] at hlock
    change ((Direction.recv :: traffic log) ++ [Direction.recv]).IsChain _ at hlock
    rw [hinit, List.append_assoc] at hlock
    have hpair := (List.isChain_split.mp hlock).2
    cases hpair with
    | cons_cons hne => exact hne rfl
  · exact h (hlock.of_prefix (List.prefix_append _ _))

theorem Asking.answered {log : List Event} (h : Asking log) {r : ExascriptResponse}
    (hover : r.isPassedOver = false) :
    Clean (log ++ [.recv r]) ∧ Alternates .recv (log ++ [.recv r]) .recv ∨
      ¬ Clean (log ++ [.recv r]) ∧ ¬ Lockstep (log ++ [.recv r]) := by
  rcases h with ⟨hclean, halt⟩ | ⟨hclean, hbroken⟩
  · exact .inl ⟨Clean.append.mpr ⟨hclean, clean_recv.mpr hover⟩, halt.append .recv⟩
  · exact .inr ⟨fun h => hclean (Clean.append.mp h).1, not_lockstep_recv r hbroken⟩

theorem Asking.passedOver {log : List Event} (h : Asking log) {r : ExascriptResponse}
    (hover : r.isPassedOver = true) : Asking (log ++ [.recv r]) := by
  have hclean : ¬ Clean (log ++ [.recv r]) := by
    intro h
    rw [clean_recv.mp (Clean.append.mp h).2] at hover
    cases hover
  rcases h with ⟨-, halt⟩ | ⟨-, hbroken⟩
  · exact .inr ⟨hclean, .inl (halt.append .recv)⟩
  · exact .inr ⟨hclean, .inr (not_lockstep_recv r hbroken)⟩

theorem Asking.ended {w : World} (h : Asking w.log) {r : ExascriptResponse}
    (rest : List ExascriptResponse) (hover : r.isPassedOver = false) : Asked (w.take r rest) := by
  rcases h.answered hover with ⟨hclean, halt⟩ | ⟨hclean, hbroken⟩
  · exact .inl ⟨hclean, .recv, halt, fun _ => rfl⟩
  · exact .inr ⟨hclean, .inr hbroken⟩

theorem Asking.reply {log : List Event} (h : Asking log) {r : ExascriptResponse} (f : Frame)
    (hover : r.isPassedOver = false) : Asking (log ++ [.recv r] ++ [.send f]) := by
  have hsend : Clean [.send f] := fun r hr => by simp at hr
  rcases h.answered hover with ⟨hclean, halt⟩ | ⟨hclean, hbroken⟩
  · exact .inl ⟨Clean.append.mpr ⟨hclean, hsend⟩, halt.append .send⟩
  · exact .inr ⟨fun h => hclean (Clean.append.mp h).1,
      .inr fun h => hbroken (h.of_prefix (List.prefix_append _ _))⟩

/-- What is kept while the handshake goes on. -/
structure Shaking (w : World) : Prop where
  live : w.dead = false
  phase : w.proto.phase ≠ .run
  asking : Asking w.log
  sends : ∀ e ∈ w.log, e.precedesDispatch = true

/-- What holds once the handshake is over. -/
structure Shaken (res : Except RuntimeError UdfMeta) (w : World) : Prop where
  live : ∀ m, res = .ok m → w.dead = false
  asked : Asked w
  sends : ∀ e ∈ w.log, e.precedesDispatch = true

theorem precedesDispatch_append {as bs : List Event} (ha : ∀ e ∈ as, e.precedesDispatch = true)
    (hb : ∀ e ∈ bs, e.precedesDispatch = true) : ∀ e ∈ as ++ bs, e.precedesDispatch = true :=
  fun e he => (List.mem_append.mp he).elim (ha e) (hb e)

theorem precedesDispatch_recv (r : ExascriptResponse) :
    ∀ e ∈ [Event.recv r], e.precedesDispatch = true :=
  fun _ he => List.mem_singleton.mp he ▸ rfl

theorem handshake_shaken (env : Env) {w : World} (h : Shaking w) :
    Shaken ((Runtime.handshake env).run w).1 ((Runtime.handshake env).run w).2 := by
  refine (Runtime.handshake env).run_rule (P := Shaking) (Q := fun r => Shaken r.1 r.2) ?_ ?_ h
  · intro w₁ r hw heq
    change Runtime.handshakeStep env w₁ = _ at heq
    have hstep := Runtime.handshakeStep_inv env hw.phase
    rw [heq] at hstep
    cases hstep with
    | timeout e hinbox =>
      refine ⟨(fun _ h => nomatch h), ?_, hw.sends⟩
      -- Either every response so far was replied to, or one was passed over.
      rcases hw.asking with ⟨hclean, halt⟩ | ⟨hclean, -⟩
      · exact .inl ⟨hclean, .send, halt, fun h => nomatch h⟩
      · exact .inr ⟨hclean, .inl rfl⟩
    | @ended e r rest hinbox hover =>
      have hover' := hover.resolve_left (by rw [hw.live]; decide)
      exact ⟨(fun _ h => nomatch h), hw.asking.ended rest hover',
        precedesDispatch_append hw.sends (precedesDispatch_recv r)⟩
    | @metadata m r rest hinbox _ _ hover =>
      exact ⟨fun _ _ => hw.live, hw.asking.ended rest hover,
        precedesDispatch_append hw.sends (precedesDispatch_recv r)⟩
  · intro w₁ w₂ hw heq
    change Runtime.handshakeStep env w₁ = _ at heq
    have hstep := Runtime.handshakeStep_inv env hw.phase
    rw [heq] at hstep
    cases hstep with
    | @reply f r rest hinbox _ hphase hf _ hover =>
      refine ⟨hw.live, ?_, hw.asking.reply f hover, ?_⟩
      · show (w₁.proto.step r).2.phase ≠ .run
        exact hphase ▸ hw.phase
      · refine precedesDispatch_append
          (precedesDispatch_append hw.sends (precedesDispatch_recv r)) fun e he => ?_
        obtain rfl := List.mem_singleton.mp he
        show (f.messageType != MessageType.mtRun.toI32) = true
        rcases hf with hf | ⟨hf, -⟩ <;> rw [hf] <;> decide
    | @passedOver r rest hinbox hphase _ hover =>
      exact ⟨hw.live, hphase, hw.asking.passedOver hover,
        precedesDispatch_append hw.sends (precedesDispatch_recv r)⟩

theorem shaking_greet (rt : Runtime) (inbox : List ExascriptResponse) :
    Shaking (rt.greet inbox) where
  live := rfl
  phase := fun h => nomatch h
  asking := by
    refine .inl ⟨fun r hr => ?_, .send⟩
    cases List.mem_singleton.mp hr
  sends := by
    intro e he
    obtain rfl := List.mem_singleton.mp he
    rfl

/-! ### Whole sessions -/

/-- After the handshake comes the message that closes the session, or the first `MT_RUN`. -/
theorem runLoaded_log (env : Env) (m : UdfMeta) {w : World} (hlive : w.dead = false) :
    ∃ later, (Runtime.runLoaded env m w).2.log = w.log ++ later ∧ Clean (handshakePart later) := by
  unfold Runtime.runLoaded
  split
  · rename_i code e _
    obtain ⟨later, hlater⟩ := closeWith_log env w code e
    refine ⟨later, hlater.symm, ?_⟩
    unfold Runtime.closeWith World.send at hlater
    rw [hlive] at hlater
    obtain rfl := List.append_cancel_left hlater
    intro r hr
    have hmem := (List.takeWhile_prefix Event.precedesDispatch).subset hr
    simp at hmem
  · rename_i udf _
    have hlog := sessionRel_log env
    have hserve := hlog.trans (hlog.dispatchRel.dispatch m udf w)
      (hlog.serve (closeWith_log env) m udf w)
    have hopen := World.request_sends env (.request w.proto.runRequest) hlive
    obtain ⟨later, hlater⟩ := hopen.trans hserve
    refine ⟨.send (.request w.proto.runRequest) :: later, ?_, ?_⟩
    · rw [← hlater, List.append_assoc]
      rfl
    · intro r hr
      cases hr

theorem runLoaded_dead (env : Env) (m : UdfMeta) {w : World} (hdead : w.dead = true) :
    (Runtime.runLoaded env m w).2.dead = true := by
  have hrel := sessionRel_dead env
  unfold Runtime.runLoaded
  split
  · rw [closeWith_dead]
    exact hdead
  · rename_i udf _
    exact hrel.serve (fun w code e h => (closeWith_dead env w code e).trans h) m udf w
      (hrel.dispatchRel.dispatch m udf w (hrel.request _ w hdead))

namespace Runtime

/-- **Lockstep.**  As long as the transport works, the sends and receipts of a session strictly
alternate, starting with a send, exactly when nothing that the handshake passes over is received
before the first `MT_RUN`. -/
theorem run_lockstep (rt : Runtime) (env : Env) (inbox : List ExascriptResponse)
    (hlive : (rt.run env inbox).2.dead = false) :
    Lockstep (rt.run env inbox).2.log ↔
      ∀ r, Event.recv r ∈ handshakePart (rt.run env inbox).2.log → r.isPassedOver = false := by
  have hshaken := handshake_shaken env (shaking_greet rt inbox)
  have hself : ∀ {log : List Event}, (∀ e ∈ log, e.precedesDispatch = true) →
      handshakePart log = log := fun h => List.takeWhile_eq_self_iff.mpr h
  rw [run_eq] at hlive ⊢
  generalize (handshake env).run (rt.greet inbox) = shaken at hlive hshaken ⊢
  obtain ⟨e | m, w⟩ := shaken
  · dsimp only at hlive hshaken ⊢
    rw [hself hshaken.sends]
    rcases hshaken.asked with ⟨hclean, d, halt, -⟩ | ⟨hclean, hdead | hbroken⟩
    · exact iff_of_true halt.lockstep hclean
    · rw [hlive] at hdead
      cases hdead
    · exact iff_of_false hbroken hclean
  · dsimp only at hlive hshaken ⊢
    obtain ⟨later, hlog, hlater⟩ := runLoaded_log env m (hshaken.live m rfl)
    rw [hlog, handshakePart_append hshaken.sends]
    rcases hshaken.asked with ⟨hclean, hstep⟩ | ⟨hclean, hdead | hbroken⟩
    · exact iff_of_true (hlog ▸ runLoaded_lockstep m hstep) (Clean.append.mpr ⟨hclean, hlater⟩)
    · rw [runLoaded_dead env m hdead] at hlive
      cases hlive
    · exact iff_of_false (fun h => hbroken (h.of_prefix (List.prefix_append _ _)))
        fun h => hclean (Clean.append.mp h).1

/-- A SET group of two rows. -/
theorem run_lockstep_sample :
    let udf := LoadedUdf.emitting fun _ => .call (.emit [.int32 7]) fun _ => .done ⟨0, ""⟩
    let inbox := openingResponses 2 2 ++ [.ofType .mtRun, batchResponse [1, 2], .ofType .mtEmit,
      .ofType .mtCleanup, .ofType .mtFinished]
    let log := ((Runtime.mk "rust").run (.reference udf) inbox).2.log
    Lockstep log ↔ ∀ r, Event.recv r ∈ handshakePart log → r.isPassedOver = false := by
  intro udf inbox log
  have hlive : ((Runtime.mk "rust").run (.reference udf) inbox).2.dead = false := by decide
  exact run_lockstep (Runtime.mk "rust") (.reference udf) inbox hlive

/-- The database answers `MT_CLIENT` with `MT_TRY_AGAIN`, and nothing is sent for it. -/
theorem run_not_lockstep :
    ¬ ∀ (rt : Runtime) (env : Env) (inbox : List ExascriptResponse),
      (rt.run env inbox).2.dead = false → Lockstep (rt.run env inbox).2.log := by
  intro hclaim
  let udf := LoadedUdf.emitting fun _ => .done ⟨0, ""⟩
  let inbox := [ExascriptResponse.ofType .mtTryAgain, closeResponse "no such script"]
  have hlive : ((Runtime.mk "rust").run (.reference udf) inbox).2.dead = false := by decide
  have hlock := hclaim (Runtime.mk "rust") (.reference udf) inbox hlive
  change [Direction.recv, .send, .recv, .recv].IsChain (· ≠ ·) at hlock
  revert hlock
  decide

end Runtime

end ExaUdf
