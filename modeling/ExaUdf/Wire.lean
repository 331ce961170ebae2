import ExaUdf.Context
import ExaUdf.Lib.Loop

/-!
# The wire

A `World` is the client's end of the control channel: the protocol state, the responses that the
database is going to give, and the history.  The database is arbitrary, so the responses are an
arbitrary list; when it is used up, receiving times out and the socket takes no further request.
A frame that does not decode fails its exchange as a response out of place does, and is left out.

`World.request` is the lockstep exchange that both dispatchers use, and `connRequester` the
exchange that fetches credentials.
-/

namespace ExaUdf

structure World where
  proto : Protocol
  inbox : List ExascriptResponse
  /-- An answer has not come; the socket is stuck. -/
  dead : Bool
  log : List Event

namespace World

def push (w : World) (e : Event) : World :=
  { w with log := w.log ++ [e] }

/-- A bound for the work that the responses to come can cause. -/
def weight (w : World) : Nat :=
  (w.inbox.map fun r => 1 + (r.next.map ExascriptTableData.rows).getD 0).sum

/-! ### Transport -/

def send (env : Env) (f : Frame) (w : World) : Except RuntimeError Unit × World :=
  if w.dead then (.error (.protocol (.zmq env.socketStateError)), w)
  else (.ok (), w.push (.send f))

/-- The database has not answered while the socket was polled. -/
def recvTimedOut (env : Env) : RuntimeError :=
  .protocol (.protocol ("recv timed out after " ++ env.pollElapsed
    ++ " of polling a non-responsive database (poll interval 1000 ms)"))

/-- Take the next response.  The refusal of a second receive by a REQ socket that has not sent in
between is left out. -/
def recv (env : Env) (w : World) : Except RuntimeError ExascriptResponse × World :=
  match w.inbox with
  | [] => (.error (recvTimedOut env), { w with dead := true })
  | r :: rest => (.ok r, { w with inbox := rest }.push (.recv r))

theorem recv_nil (env : Env) {w : World} (h : w.inbox = []) :
    w.recv env = (.error (recvTimedOut env), { w with dead := true }) := by
  unfold recv
  rw [h]

theorem recv_cons (env : Env) {w : World} {r : ExascriptResponse} {rest : List ExascriptResponse}
    (h : w.inbox = r :: rest) :
    w.recv env = (.ok r, { w with inbox := rest }.push (.recv r)) := by
  unfold recv
  rw [h]

/-! ### Exchanges -/

/-- A round of waiting for an answer: a ping is replied to, anything else is the answer. -/
def awaitStep (env : Env) (w : World) : (Except RuntimeError HostEvent × World) ⊕ World :=
  match w.recv env with
  | (.error e, w) => .inl (.error e, w)
  | (.ok resp, w) =>
    match w.proto.step resp with
    | (.error e, proto) => .inl (.error (.protocol e), { w with proto := proto })
    | (.ok (event, action), proto) =>
      let w := { w with proto := proto }
      match action with
      -- A ping is answered without ending the wait.
      | some (.pingReply s) =>
        match w.send env (.request (proto.pingReply s)) with
        | (.error e, w) => .inl (.error e, w)
        | (.ok (), w) => .inr w
      | _ => .inl (.ok event, w)

/-- The world after response `r` is received and classified. -/
def take (w : World) (r : ExascriptResponse) (rest : List ExascriptResponse) : World where
  proto := (w.proto.step r).2
  inbox := rest
  dead := w.dead
  log := w.log ++ [.recv r]

/-- What a round of waiting can do. -/
inductive AwaitStep (w : World) : (Except RuntimeError HostEvent × World) ⊕ World → Prop where
  | timeout (e : RuntimeError) : w.inbox = [] →
    AwaitStep w (.inl (.error e, { w with dead := true }))
  | error {r : ExascriptResponse} {rest : List ExascriptResponse} {e : ProtocolError} :
    w.inbox = r :: rest → (w.proto.step r).1 = .error e →
    AwaitStep w (.inl (.error (.protocol e), w.take r rest))
  | answer {r : ExascriptResponse} {rest : List ExascriptResponse} {event : HostEvent}
    {action : Option HostAction} :
    w.inbox = r :: rest → (w.proto.step r).1 = .ok (event, action) →
    (∀ s, action ≠ some (.pingReply s)) → AwaitStep w (.inl (.ok event, w.take r rest))
  | ping {r : ExascriptResponse} {rest : List ExascriptResponse} {event : HostEvent} {s : String} :
    w.inbox = r :: rest → (w.proto.step r).1 = .ok (event, some (.pingReply s)) →
    w.dead = false →
    AwaitStep w (.inr ((w.take r rest).push (.send (.request ((w.proto.step r).2.pingReply s)))))
  | stuck (e : RuntimeError) {r : ExascriptResponse} {rest : List ExascriptResponse} :
    w.inbox = r :: rest → w.dead = true → AwaitStep w (.inl (.error e, w.take r rest))

theorem awaitStep_inv (env : Env) (w : World) : AwaitStep w (awaitStep env w) := by
  obtain ⟨proto, inbox, dead, log⟩ := w
  unfold awaitStep recv
  cases inbox with
  | nil => exact .timeout _ rfl
  | cons r rest =>
    rcases hstep : proto.step r with ⟨e | ⟨event, action⟩, proto'⟩
    · have h := AwaitStep.error (w := ⟨proto, r :: rest, dead, log⟩) rfl (congrArg Prod.fst hstep)
      simpa only [push, take, hstep] using h
    -- Of the actions, only a reply to a ping continues the wait.
    rcases action with - | - | s
    · have h := AwaitStep.answer (w := ⟨proto, r :: rest, dead, log⟩) rfl
        (congrArg Prod.fst hstep) (fun _ h => nomatch h)
      simpa only [push, take, hstep] using h
    · have h := AwaitStep.answer (w := ⟨proto, r :: rest, dead, log⟩) rfl
        (congrArg Prod.fst hstep) (fun _ h => nomatch h)
      simpa only [push, take, hstep] using h
    · cases dead with
      | true =>
        have h := AwaitStep.stuck (w := ⟨proto, r :: rest, true, log⟩)
          (.protocol (.zmq env.socketStateError)) rfl rfl
        simpa only [push, take, send, hstep, if_true] using h
      | false =>
        have h := AwaitStep.ping (w := ⟨proto, r :: rest, false, log⟩) rfl
          (congrArg Prod.fst hstep) rfl
        simpa only [push, take, send, hstep, Bool.false_eq_true, if_false] using h

theorem weight_of_inbox {w : World} (w' : World) {r : ExascriptResponse}
    (h : w.inbox = r :: w'.inbox) :
    w'.weight + 1 + (r.next.map ExascriptTableData.rows).getD 0 = w.weight := by
  simp only [weight, h, List.map_cons, List.sum_cons]
  omega

@[simp] theorem push_weight (w : World) (e : Event) : (w.push e).weight = w.weight := rfl

theorem awaitStep_decreases (env : Env) (w w' : World) (h : awaitStep env w = .inr w') :
    w'.weight < w.weight := by
  have hinv := awaitStep_inv env w
  rw [h] at hinv
  cases hinv with
  | @ping r rest event s hinbox =>
    have hweight := weight_of_inbox (w.take r rest) hinbox
    rw [push_weight]
    omega

/-- Wait for the answer to a request. -/
def awaitAnswer (env : Env) : Loop World (Except RuntimeError HostEvent × World) where
  step := awaitStep env
  variant := weight
  decreases := awaitStep_decreases env

/-- Send one request and return the event its answer stands for. -/
def request (env : Env) (f : Frame) (w : World) : Except RuntimeError HostEvent × World :=
  match w.send env f with
  | (.error e, w) => (.error e, w)
  | (.ok (), w) =>
    -- Only an exchange that was sent is noted as answered.
    let r := (awaitAnswer env).run w
    (r.1, r.2.push (.answered f r.1))

/-- **Exchange rule**: `P` holds while the answer is awaited, and `Q` once it is there. -/
theorem request_rule {P : World → Prop} {Q : Except RuntimeError HostEvent × World → Prop}
    {env : Env} {f : Frame} {w : World} (hdead : w.dead = true → ∀ e, Q (.error e, w))
    (hsend : w.dead = false → P (w.push (.send f)))
    (hdone : ∀ w res w', P w → AwaitStep w (.inl (res, w')) →
      Q (res, w'.push (.answered f res)))
    (hnext : ∀ w w', P w → AwaitStep w (.inr w') → P w') : Q (w.request env f) := by
  unfold request send
  cases h : w.dead with
  | true => exact hdead h _
  | false =>
    refine (awaitAnswer env).run_rule (P := P)
      (Q := fun r => Q (r.1, r.2.push (.answered f r.1))) ?_ ?_ (hsend h)
    · intro w a hw hstep
      exact hdone w a.1 a.2 hw (hstep ▸ awaitStep_inv env w)
    · intro w w' hw hstep
      exact hnext w w' hw (hstep ▸ awaitStep_inv env w)

/-- An exchange makes the responses to come fewer, by the one that answers and what it brings. -/
theorem request_weight (env : Env) (f : Frame) (w : World) :
    (w.request env f).2.weight ≤ w.weight ∧
      ∀ event, (w.request env f).1 = .ok event →
        (w.request env f).2.weight + 1 + event.rows ≤ w.weight := by
  refine request_rule (P := fun w' => w'.weight ≤ w.weight)
    (Q := fun r => r.2.weight ≤ w.weight ∧
      ∀ event, r.1 = .ok event → r.2.weight + 1 + event.rows ≤ w.weight)
    (fun _ e => ⟨Nat.le_refl _, fun _ h => nomatch h⟩) (fun _ => Nat.le_refl _) ?_ ?_
  · intro w₁ res w₂ hw hstep
    cases hstep with
    | timeout => exact ⟨hw, fun _ h => nomatch h⟩
    | @error r rest e hinbox =>
      have hweight := weight_of_inbox (w₁.take r rest) hinbox
      exact ⟨show (w₁.take r rest).weight ≤ _ by omega, fun _ h => nomatch h⟩
    | @stuck e r rest hinbox =>
      have hweight := weight_of_inbox (w₁.take r rest) hinbox
      exact ⟨show (w₁.take r rest).weight ≤ _ by omega, fun _ h => nomatch h⟩
    | @answer r rest event action hinbox hevent =>
      have hweight := weight_of_inbox (w₁.take r rest) hinbox
      have hrows : event.rows ≤ (r.next.map ExascriptTableData.rows).getD 0 :=
        @Protocol.step_rows _ (w₁.proto.step r).2 _ _ _ (Prod.ext hevent rfl)
      refine ⟨show (w₁.take r rest).weight ≤ _ by omega, fun event' h => ?_⟩
      cases h
      show (w₁.take r rest).weight + 1 + event.rows ≤ _
      omega
  · intro w₁ w₂ hw hstep
    cases hstep with
    | @ping r rest event s hinbox =>
      have hweight := weight_of_inbox (w₁.take r rest) hinbox
      rw [push_weight]
      omega

end World

/-- The error of a session that the database closed. -/
def closeError (message : Option String) : Except RuntimeError Unit :=
  .error (.udf (message.getD "connection closed by database"))

/-- Fetch the credentials of a CONNECTION. -/
def connRequester (env : Env) (connName : String) (w : World) :
    Except UdfError ConnInfo × World :=
  let failed (reason : String) : UdfError :=
    .connection ("CONNECTION " ++ connName ++ ": " ++ reason)
  match w.request env (.request (w.proto.importConnectionRequest connName)) with
  | (.error e, w) => (.error (failed e.display), w)
  | (.ok event, w) =>
    match event with
    | .connInfo ci =>
      -- A real CONNECTION always has a kind.
      if ci.kind = "" then (.error (failed "refused without a reason"), w) else (.ok ci, w)
    | .importRefused reason => (.error (.connection reason), w)
    | .close message => (.error (failed (message.getD "connection closed by database")), w)
    | _ => (.error (failed "MT_IMPORT reply was not ConnInfo"), w)

/-- Looking a CONNECTION up is one exchange. -/
theorem connRequester_rel {env : Env} {R : World → World → Prop} {name : String} {w : World}
    (h : R w (w.request env (.request (w.proto.importConnectionRequest name))).2) :
    R w (connRequester env name w).2 := by
  unfold connRequester
  dsimp only
  split <;> rename_i hr <;> rw [hr] at h
  · exact h
  · split
    · split_ifs <;> exact h
    all_goals exact h

end ExaUdf
