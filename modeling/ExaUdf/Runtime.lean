import ExaUdf.Artifact
import ExaUdf.Cleanup
import ExaUdf.Dispatch
import ExaUdf.SchemaCheck

/-!
# The runtime

`Runtime.run` is a whole session: the handshake, loading and checking the UDF, dispatch, the cleanup
hook and the final message.  A session that fails is closed with an error text, and the answer to
that message is not waited for.
-/

namespace ExaUdf

structure Runtime where
  clientName : String

namespace Runtime

def udfErrorCloseCode : Nat := 9001
def schemaMismatchCloseCode : Nat := 1001

/-! ### The handshake -/

/-- Send what an event of the handshake calls for. -/
def replyHandshake (env : Env) (action : Option HostAction) (w : World) :
    Except RuntimeError Unit × World :=
  match action with
  | some (.pingReply s) => w.send env (.request (w.proto.pingReply s))
  | some .metaRequest => w.send env (.request w.proto.metaRequest)
  | none => (.ok (), w)

def handshakeStep (env : Env) (w : World) : (Except RuntimeError UdfMeta × World) ⊕ World :=
  match w.recv env with
  | (.error e, w) => .inl (.error e, w)
  | (.ok resp, w) =>
    match w.proto.step resp with
    | (.error e, proto) => .inl (.error (.protocol e), { w with proto := proto })
    | (.ok (event, action), proto) =>
      match replyHandshake env action { w with proto := proto } with
      | (.error e, w) => .inl (.error e, w)
      | (.ok (), w) =>
        match event with
        | .udfMeta m => .inl (.ok m, w)
        | .close message =>
          .inl (.error (.protocol (.protocol (message.getD "closed before meta"))), w)
        -- An event that calls for no reply is passed over.
        | _ => .inr w

theorem handshakeStep_decreases (env : Env) (w w' : World) (h : handshakeStep env w = .inr w') :
    w'.inbox.length < w.inbox.length := by
  have hreply : ∀ action (w : World), (replyHandshake env action w).2.inbox = w.inbox := by
    intro action w
    unfold replyHandshake World.send
    split
    · split_ifs <;> rfl
    · split_ifs <;> rfl
    · rfl
  -- A round that goes on has taken one response, and replying takes none.
  unfold handshakeStep World.recv at h
  cases hinbox : w.inbox with
  | nil =>
    rw [hinbox] at h
    cases h
  | cons r rest =>
    rw [hinbox] at h
    dsimp only at h
    split at h
    · cases h
    split at h <;> rename_i hr
    · cases h
    have hbox := congrArg (fun r => r.2.inbox) hr
    rw [hreply] at hbox
    split at h <;> cases h
    show List.length (World.inbox _) < _
    rw [← hbox]
    exact Nat.lt_succ_self _

/-- Answer the database until the metadata arrives. -/
def handshake (env : Env) : Loop World (Except RuntimeError UdfMeta × World) where
  step := handshakeStep env
  variant := fun w => w.inbox.length
  decreases := handshakeStep_decreases env

/-! ### The session -/

/-- Close the session with an error.  A failure to send is not looked at. -/
def closeWith (env : Env) (code : Nat) (e : RuntimeError) (w : World) :
    Except RuntimeError Unit × World :=
  (.error e, (w.send env (.request (w.proto.errorCloseRequest code e.display))).2)

def sendFinished (env : Env) (w : World) : Except RuntimeError Unit × World :=
  match w.request env (.request w.proto.finishedReply) with
  | (.error e, w) => (.error e, w)
  | (.ok _, w) => (.ok (), w)

/-- Resolve, load and check the UDF.  The error comes with the code that closes the session. -/
def loadUdf (env : Env) (m : UdfMeta) : Except (Nat × RuntimeError) LoadedUdf :=
  match parseUdfObjectPath m.sourceCode with
  | none => .error (udfErrorCloseCode,
      .unsupported "no %udf_object directive in source; JIT not supported in v1")
  | some soPath =>
    match env.openUdf soPath m.scriptName with
    | .error e => .error (udfErrorCloseCode, e)
    | .ok udf =>
      -- Single-call mode has no output shape.
      match if m.singleCallMode then .ok () else udf.validateOutputShape m.outputIter with
      | .error e => .error (udfErrorCloseCode, e)
      | .ok () =>
        match validateSchema env udf m with
        | .error e => .error (schemaMismatchCloseCode, e)
        | .ok () => .ok udf

def dispatch (env : Env) (m : UdfMeta) (udf : LoadedUdf) (w : World) :
    Except RuntimeError Unit × World :=
  if m.singleCallMode then runSingleCall env udf w else runUdf env m udf w

/-- The final message, if nothing has failed. -/
def finish (env : Env) (cleaned : Except RuntimeError Unit × World) :
    Except RuntimeError Unit × World :=
  match cleaned with
  | (.error e, w) => (.error e, w)
  | (.ok (), w) => sendFinished env w

/-- The error text, if something has failed. -/
def report (env : Env) (outcome : Except RuntimeError Unit × World) :
    Except RuntimeError Unit × World :=
  match outcome with
  | (.error e, w) => closeWith env udfErrorCloseCode e w
  | (.ok (), w) => (.ok (), w)

/-- The session from dispatch on: the run phase, the cleanup hook, the final message. -/
def serve (env : Env) (m : UdfMeta) (udf : LoadedUdf) (w : World) :
    Except RuntimeError Unit × World :=
  let dispatched := dispatch env m udf w
  report env (finish env (Cleanup.runHook udf dispatched.1 dispatched.2))

/-- The session once the handshake is over. -/
def runLoaded (env : Env) (m : UdfMeta) (w : World) : Except RuntimeError Unit × World :=
  match loadUdf env m with
  | .error (code, e) => closeWith env code e w
  | .ok udf => serve env m udf w

/-- A channel on which the database is going to give these responses. -/
def connect (inbox : List ExascriptResponse) : World where
  proto := Protocol.new
  inbox := inbox
  dead := false
  log := []

/-- One session, end to end. -/
def run (rt : Runtime) (env : Env) (inbox : List ExascriptResponse) :
    Except RuntimeError Unit × World :=
  let w := connect inbox
  match w.send env (.request (w.proto.clientRequest rt.clientName)) with
  | (.error e, w) => (.error e, w)
  | (.ok (), w) =>
    match (handshake env).run w with
    | (.error e, w) => (.error e, w)
    | (.ok m, w) => runLoaded env m w

end Runtime

end ExaUdf
