import ExaUdf.Equiv.ProtocolRun
import ExaUdf.Equiv.Wire

/-!
# Pings during an exchange

`request_pings`: however many pings come before the answer to a request, the exchange ends as if the
answer had come at once, and has replied to each ping in turn.
-/

namespace ExaUdf

/-! ### Protocol steps -/

/-- The text that a ping carries. -/
def ExascriptResponse.metaInfo (r : ExascriptResponse) : String :=
  r.ping.getD ""

/-- The reply to a ping: its text, under its own connection id. -/
def pong (r : ExascriptResponse) : ExascriptRequest :=
  { ExascriptRequest.empty with
    type := MessageType.mtPingPong.toI32
    connectionId := r.connectionId
    ping := some r.metaInfo }

namespace Protocol

/-- A ping moves nothing but the connection id. -/
theorem step_ping (p : Protocol) {r : ExascriptResponse} (h : r.messageType = .mtPingPong) :
    p.step r = (.ok (.ping r.metaInfo, some (.pingReply r.metaInfo)), p.heard r) := by
  unfold step
  dsimp only
  rw [h]
  rfl

theorem pingReply_heard (p : Protocol) (r : ExascriptResponse) :
    (p.heard r).pingReply r.metaInfo = pong r := rfl

/-- A response overrides the connection id of the one before. -/
theorem step_heard (p : Protocol) (q r : ExascriptResponse) : (p.heard q).step r = p.step r := rfl

/-- Nothing else is replied to as a ping. -/
theorem step_pingReply {p : Protocol} {r : ExascriptResponse} {event : HostEvent} {s : String}
    (h : (p.step r).1 = .ok (event, some (.pingReply s))) : r.messageType = .mtPingPong := by
  have hspec := p.step_spec r
  have htype := (step_messageType h).1
  generalize p.step r = stepped at h hspec
  cases hspec with
  | ping s' => cases h; exact htype
  | _ => cases h

end Protocol

/-! ### Exchanges -/

/-- What is made of the answer to a request. -/
def outcome (p : Protocol) (r : ExascriptResponse) : Except RuntimeError HostEvent :=
  match (p.step r).1 with
  | .error e => .error (.protocol e)
  | .ok (event, _) => .ok event

/-- A ping in the history, with the reply to it. -/
def pingEvents (r : ExascriptResponse) : List Event :=
  [.recv r, .send (.request (pong r))]

namespace World

variable {env : Env} {w : World} {r : ExascriptResponse} {rest : List ExascriptResponse}

/-- A round of waiting that answers a ping. -/
theorem awaitStep_ping (hping : r.messageType = .mtPingPong) (hinbox : w.inbox = r :: rest)
    (hlive : w.dead = false) :
    awaitStep env w = .inr { w with
      proto := w.proto.heard r
      inbox := rest
      log := w.log ++ pingEvents r } := by
  obtain ⟨proto, inbox, dead, log⟩ := w
  obtain rfl : inbox = r :: rest := hinbox
  obtain rfl : dead = false := hlive
  rw [awaitStep, recv_cons env rfl]
  simp only [push, proto.step_ping hping, send, Bool.false_eq_true, if_false, List.append_assoc,
    proto.pingReply_heard]
  rfl

/-- A round of waiting that takes the answer. -/
theorem awaitStep_answer (hanswer : r.messageType ≠ .mtPingPong) (hinbox : w.inbox = r :: rest) :
    awaitStep env w = .inl (outcome w.proto r, w.take r rest) := by
  obtain ⟨proto, inbox, dead, log⟩ := w
  obtain rfl : inbox = r :: rest := hinbox
  rw [awaitStep, recv_cons env rfl]
  simp only [push, outcome, take]
  rcases hstep : proto.step r with ⟨e | ⟨event, - | - | s⟩, proto'⟩
  · rfl
  · rfl
  · rfl
  · exact absurd (Protocol.step_pingReply (congrArg Prod.fst hstep)) hanswer

/-- Pings that come before the answer leave the state where the answer would have found it, but for
the replies. -/
theorem awaitAnswer_pings {pings : List ExascriptResponse}
    (hpings : ∀ r ∈ pings, r.messageType = .mtPingPong) {answer : ExascriptResponse}
    (hanswer : answer.messageType ≠ .mtPingPong) (hinbox : w.inbox = pings ++ answer :: rest)
    (hlive : w.dead = false) :
    (awaitAnswer env).run w = (outcome w.proto answer,
      { w with
        proto := (w.proto.step answer).2
        inbox := rest
        log := w.log ++ pings.flatMap pingEvents ++ [.recv answer] }) := by
  induction pings generalizing w with
  | nil =>
    have hround := @awaitStep_answer env _ _ _ hanswer hinbox
    rw [Loop.run_of_inl (L := awaitAnswer env) hround, take, List.flatMap_nil, List.append_nil]
  | cons r pings ih =>
    have hround := @awaitStep_ping env _ _ _ (hpings r List.mem_cons_self) hinbox hlive
    have hrest : ∀ q ∈ pings, q.messageType = .mtPingPong := fun q hq =>
      hpings q (List.mem_cons_of_mem _ hq)
    rw [Loop.run_of_inr (L := awaitAnswer env) hround]
    refine (ih (w := { w with
      proto := w.proto.heard r
      inbox := pings ++ answer :: rest
      log := w.log ++ pingEvents r }) hrest rfl hlive).trans ?_
    simp only [outcome, w.proto.step_heard r answer, List.flatMap_cons, List.append_assoc]

/-- A request that is answered after some pings. -/
theorem request_eq {pings : List ExascriptResponse}
    (hpings : ∀ r ∈ pings, r.messageType = .mtPingPong) {answer : ExascriptResponse}
    (hanswer : answer.messageType ≠ .mtPingPong) (hinbox : w.inbox = pings ++ answer :: rest)
    (hlive : w.dead = false) (f : Frame) :
    w.request env f = (outcome w.proto answer,
      { w with
        proto := (w.proto.step answer).2
        inbox := rest
        log := w.log ++ .send f :: pings.flatMap pingEvents
          ++ [.recv answer, .answered f (outcome w.proto answer)] }) := by
  have hsend : w.send env f = (.ok (), w.push (.send f)) := by
    rw [send, hlive]
    rfl
  have hrun := @awaitAnswer_pings env (w.push (.send f)) _ _ hpings _ hanswer hinbox hlive
  rw [request, hsend]
  simp only [hrun]
  simp only [push, outcome, List.append_assoc, List.cons_append, List.nil_append]

/-- A request that is answered at once. -/
theorem request_answer {answer : ExascriptResponse} (hanswer : answer.messageType ≠ .mtPingPong)
    (hinbox : w.inbox = answer :: rest) (hlive : w.dead = false) (f : Frame) :
    w.request env f = (outcome w.proto answer,
      { w with
        proto := (w.proto.step answer).2
        inbox := rest
        log := w.log ++ [.send f, .recv answer, .answered f (outcome w.proto answer)] }) := by
  rw [@request_eq env w rest [] (fun _ h => nomatch h) answer hanswer hinbox hlive f]
  simp only [List.flatMap_nil, List.append_assoc, List.cons_append, List.nil_append]

end World

/-! ### Pings are transparent -/

theorem sends_append (as bs : List Event) : sends (as ++ bs) = sends as ++ sends bs :=
  List.filterMap_append

theorem sends_pingEvents (pings : List ExascriptResponse) :
    sends (pings.flatMap pingEvents) = pings.map fun r => .request (pong r) := by
  induction pings with
  | nil => rfl
  | cons r pings ih =>
    rw [List.flatMap_cons, sends_append, ih]
    rfl

/-- **Pings are transparent.**  A request that is answered after pings ends as if the answer had
come at once, in the event or error and in the protocol state.  It is sent once, and then each ping
is replied to in turn, its text under its connection id; no ping changes anything else of the
protocol state. -/
theorem request_pings (env : Env) (f : Frame) (w : World) (pings : List ExascriptResponse)
    (hpings : ∀ r ∈ pings, r.messageType = .mtPingPong) (answer : ExascriptResponse)
    (hanswer : answer.messageType ≠ .mtPingPong) (rest : List ExascriptResponse) :
    let pinged := { w with inbox := pings ++ answer :: rest }.request env f
    let direct := { w with inbox := answer :: rest }.request env f
    pinged.1 = direct.1 ∧ pinged.2.proto = direct.2.proto ∧
      (if w.dead then sends pinged.2.log = sends w.log
        else
          pinged.2.proto.connectionId = answer.connectionId ∧ pinged.2.inbox = rest ∧
          sends pinged.2.log = sends w.log ++ f :: pings.map fun r => .request (pong r)) ∧
      ∀ r ∈ pings, ∀ p : Protocol, (p.step r).2 = { p with connectionId := r.connectionId } := by
  have hsteps : ∀ r ∈ pings, ∀ p : Protocol,
      (p.step r).2 = { p with connectionId := r.connectionId } := fun r hr p =>
    congrArg Prod.snd (p.step_ping (hpings r hr))
  obtain ⟨proto, inbox, dead, log⟩ := w
  cases dead with
  -- A stuck socket sends nothing, with or without pings.
  | true =>
    have hstuck : ∀ inbox, World.request env f ⟨proto, inbox, true, log⟩
        = (.error (.protocol (.zmq env.socketStateError)), ⟨proto, inbox, true, log⟩) :=
      fun inbox => World.request_dead env f rfl
    dsimp only
    rw [hstuck, hstuck]
    exact ⟨rfl, rfl, rfl, hsteps⟩
  | false =>
    have hpinged := @World.request_eq env ⟨proto, pings ++ answer :: rest, false, log⟩ rest pings
      hpings answer hanswer rfl rfl f
    have hdirect := @World.request_answer env ⟨proto, answer :: rest, false, log⟩ rest answer
      hanswer rfl rfl f
    dsimp only at hpinged hdirect ⊢
    rw [hpinged, hdirect]
    refine ⟨rfl, rfl, ?_, hsteps⟩
    rw [if_neg Bool.false_ne_true]
    refine ⟨proto.step_connectionId answer, rfl, ?_⟩
    have hsplit : log ++ .send f :: pings.flatMap pingEvents
          ++ [.recv answer, .answered f (outcome proto answer)]
        = log ++ ([.send f] ++ (pings.flatMap pingEvents
          ++ [.recv answer, .answered f (outcome proto answer)])) := by
      simp only [List.append_assoc, List.cons_append, List.nil_append]
    rw [hsplit, sends_append, sends_append, sends_append, sends_pingEvents]
    simp only [sends, List.filterMap_cons, Event.sent?, List.filterMap_nil, List.append_nil,
      List.cons_append, List.nil_append]

/-- A ping under a connection id. -/
def pingResponse (metaInfo : String) (connectionId : UInt64) : ExascriptResponse :=
  { ExascriptResponse.ofType .mtPingPong with ping := some metaInfo, connectionId := connectionId }

/-- Two pings come before the end of the input. -/
theorem request_pings_sample :
    let env := Env.reference (.emitting fun _ => .done ⟨0, ""⟩)
    let w : World := ⟨⟨5, .run, none, false⟩, [], false, []⟩
    let f := Frame.request w.proto.nextRequest
    let pings := [pingResponse "a" 8, pingResponse "b" 9]
    let answer := ExascriptResponse.ofType .mtDone
    let pinged := { w with inbox := pings ++ [answer] }.request env f
    let direct := { w with inbox := [answer] }.request env f
    pinged.1 = direct.1 ∧ pinged.2.proto = direct.2.proto ∧
      (if w.dead then sends pinged.2.log = sends w.log
        else
          pinged.2.proto.connectionId = answer.connectionId ∧ pinged.2.inbox = [] ∧
          sends pinged.2.log = sends w.log ++ f :: pings.map fun r => .request (pong r)) ∧
      ∀ r ∈ pings, ∀ p : Protocol, (p.step r).2 = { p with connectionId := r.connectionId } := by
  intro env w f pings answer
  exact request_pings env f w pings (by decide) answer (by decide) []

end ExaUdf
