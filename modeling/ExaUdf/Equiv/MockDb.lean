import ExaUdf.Equiv.Frame
import ExaUdf.Equiv.ProtoResponse
import ExaUdf.Lib.Peer
import ExaUdf.MockDb
import Mathlib.Data.Nat.Bitwise

/-!
# The mock database is a peer

`State` says what the mock database is for, without bytes: a stage, the cycles to come, the batches
left of the current one, and what has been emitted.  `answer` is its answer to a frame.

`Session.drive_plays`: whatever frames a client of this repository sends (`Sendable`), the driver
sends the bytes of what `answer` says, ends well exactly when the peer has been led to its last
stage, and shows the sink every `MT_EMIT`.  It goes by the type that `peekType` reads off a frame,
which is the frame's type (`peekType_bytes`).
-/

namespace ExaUdf

namespace MockDb

open Protobuf

/-! ### The leading type -/

theorem and_high_eq_zero (b : UInt8) : b &&& 0x80 = 0 ↔ b.toNat < 128 := by
  have hb := b.toNat_lt
  rw [← UInt8.toNat_inj, UInt8.toNat_and]
  show b.toNat &&& 2 ^ 7 = 0 ↔ _
  rw [Nat.and_two_pow, Nat.testBit_eq_decide_div_mod_eq]
  by_cases h : b.toNat / 2 ^ 7 % 2 = 1
  · simp only [h, decide_true, Bool.toNat_true]
    omega
  · simp only [h, decide_false, Bool.toNat_false]
    omega

theorem and_low (b : UInt8) : (b &&& 0x7f).toNat = b.toNat % 128 := by
  rw [UInt8.toNat_and]
  show b.toNat &&& 2 ^ 7 - 1 = _
  rw [Nat.and_two_pow_sub_one_eq_mod]

/-- The low seven bits of a byte go to bit `shift`, above those that are there. -/
theorem or_shiftLeft_toNat {value : UInt64} {shift : Nat} (hvalue : value.toNat < 2 ^ shift)
    (hshift : shift ≤ 63) (b : UInt8)
    (hfits : value.toNat + b.toNat % 128 * 2 ^ shift < 2 ^ 64) :
    (value ||| (b &&& 0x7f).toUInt64 <<< UInt64.ofNat shift).toNat
      = value.toNat + b.toNat % 128 * 2 ^ shift := by
  have hmod : (UInt64.ofNat shift).toNat % 64 = shift := by
    rw [UInt64.toNat_ofNat']
    omega
  rw [UInt64.toNat_or, UInt64.toNat_shiftLeft, hmod, UInt8.toNat_toUInt64, and_low,
    Nat.shiftLeft_eq, Nat.mod_eq_of_lt (Nat.lt_of_le_of_lt (Nat.le_add_left _ _) hfits),
    Nat.or_comm, ← Nat.shiftLeft_eq, ← Nat.shiftLeft_add_eq_or_of_lt hvalue, Nat.shiftLeft_eq,
    Nat.add_comm]

/-- Reading on from bit `shift` adds what the varint stands for. -/
theorem peekVarint_encode (n : Nat) (rest : List UInt8) : ∀ (value : UInt64) (shift : Nat),
    value.toNat < 2 ^ shift → shift ≤ 63 → value.toNat + n * 2 ^ shift < 2 ^ 64 →
    peekVarint value shift (Varint.encode n ++ rest)
      = if value.toNat + n * 2 ^ shift ≤ 2147483647
        then some (Int32.ofNat (value.toNat + n * 2 ^ shift)) else none := by
  induction n using Nat.strong_induction_on with
  | _ n ih =>
    intro value shift hvalue hshift hbound
    by_cases h : n < 128
    · have hb : (UInt8.ofNat n).toNat = n := by
        rw [UInt8.toNat_ofNat']
        omega
      have hput := or_shiftLeft_toNat hvalue hshift (UInt8.ofNat n)
      rw [hb, Nat.mod_eq_of_lt h] at hput
      have hlast : UInt8.ofNat n &&& 0x80 = 0 := by
        rw [and_high_eq_zero, hb]
        exact h
      rw [Varint.encode_of_lt h, List.singleton_append, peekVarint, if_pos hlast, hput hbound]
    · have hb : (UInt8.ofNat (n % 128 + 128)).toNat = n % 128 + 128 := by
        rw [UInt8.toNat_ofNat']
        omega
      have hput := or_shiftLeft_toNat hvalue hshift (UInt8.ofNat (n % 128 + 128))
      rw [hb, Nat.add_mod_right, Nat.mod_mod] at hput
      have hmore : UInt8.ofNat (n % 128 + 128) &&& 0x80 ≠ 0 := by
        rw [Ne, and_high_eq_zero, hb]
        omega
      have hpow : 2 ^ (shift + 7) = 128 * 2 ^ shift := by
        rw [Nat.pow_add, Nat.mul_comm]
      have hsplit : n * 2 ^ shift = n % 128 * 2 ^ shift + n / 128 * 2 ^ (shift + 7) := by
        conv_lhs => rw [← Nat.mod_add_div n 128]
        rw [hpow]
        ring
      have hle : n % 128 * 2 ^ shift ≤ 127 * 2 ^ shift := Nat.mul_le_mul_right _ (by omega)
      -- There are more bits to come, so `shift` has not come to the end.
      have hrest : 2 ^ (shift + 7) ≤ n / 128 * 2 ^ (shift + 7) :=
        Nat.le_mul_of_pos_left _ (by omega)
      have hshift' : shift + 7 ≤ 63 := by
        have hlt : 2 ^ (shift + 7) < 2 ^ 64 := by omega
        have hexp := (Nat.pow_lt_pow_iff_right (by decide : 1 < 2)).mp hlt
        omega
      have hnext := hput (by omega)
      rw [Varint.encode_of_le (by omega), List.cons_append, peekVarint, if_neg hmore,
        if_neg (by omega), ih (n / 128) (by omega) _ _ (by omega) hshift' (by omega), hnext,
        hsplit, Nat.add_assoc]

/-- The varint of an `int32` is its two's complement with 64 bits. -/
theorem toInt_eq_varintOfI32 (t : Int32) :
    varintOfI32 t < 2 ^ 64 ∧ t.toInt = if 2 * varintOfI32 t < 2 ^ 64 then (varintOfI32 t : Int)
      else (varintOfI32 t : Int) - 2 ^ 64 := by
  refine ⟨t.toInt64.toUInt64.toNat_lt, ?_⟩
  rw [← Int32.toInt_toInt64]
  exact BitVec.toInt_eq_toNat_cond t.toInt64.toBitVec

/-- A frame starts with its type. -/
theorem bytes_eq (f : Frame) : ∃ rest,
    f.bytes = 0x08 :: (Varint.encode (varintOfI32 f.messageType) ++ rest) := by
  have hkey : encodeKey 1 0 = [0x08] := Varint.encode_of_lt (by decide)
  cases f with
  | request r =>
    refine ⟨encodeFields (r.fields.drop 1), ?_⟩
    show encodeKey 1 0 ++ Varint.encode (varintOfI32 r.type) ++ _ = _
    rw [hkey]
    rfl
  | emit r =>
    have hfirst : [0x08] ++ Varint.encode (varintOfI32 r.messageType) <+: r.encodeFrame := by
      simp only [EmitRequest.encodeFrame, encodeVarintField, hkey, List.append_assoc]
      rw [← List.append_assoc [0x08]]
      exact List.prefix_append _ _
    obtain ⟨rest, hrest⟩ := hfirst
    exact ⟨rest, hrest.symm⟩

/-- **The type that is peeked at is the type of the frame**, unless that is negative. -/
theorem peekType_bytes (f : Frame) :
    peekType f.bytes = if 0 ≤ f.messageType.toInt then some f.messageType else none := by
  obtain ⟨rest, hbytes⟩ := bytes_eq f
  obtain ⟨hlt, hval⟩ := toInt_eq_varintOfI32 f.messageType
  have hmax := f.messageType.toInt_lt
  have hpeek := peekVarint_encode (varintOfI32 f.messageType) rest 0 0 (by decide) (by decide)
  rw [show (0 : UInt64).toNat = 0 from rfl, Nat.pow_zero, Nat.mul_one, Nat.zero_add] at hpeek
  rw [hbytes, peekType, if_pos rfl, hpeek hlt]
  by_cases h : 0 ≤ f.messageType.toInt
  · have hnat : varintOfI32 f.messageType = f.messageType.toInt.toNat := by
      split_ifs at hval <;> omega
    have hback : Int32.ofNat (varintOfI32 f.messageType) = f.messageType := by
      rw [hnat, ← Int32.ofInt_eq_ofNat, Int.toNat_of_nonneg h, Int32.ofInt_toInt]
    rw [if_pos h, if_pos (by omega), hback]
  · rw [if_neg h, if_neg (by split_ifs at hval <;> omega)]

theorem tryFrom_peekType (f : Frame) :
    (peekType f.bytes).bind MessageType.tryFrom = MessageType.tryFrom f.messageType := by
  rw [peekType_bytes]
  split_ifs with h
  · rfl
  · exact (if_neg h).symm

theorem tryFrom_toI32 (mt : MessageType) : MessageType.tryFrom mt.toI32 = some mt := by
  cases mt <;> decide

theorem eq_toI32_of_tryFrom {n : Int32} {mt : MessageType} (h : MessageType.tryFrom n = some mt) :
    n = mt.toI32 := by
  unfold MessageType.tryFrom at h
  split_ifs at h with hn
  obtain ⟨hlt, hget⟩ := List.getElem?_eq_some_iff.mp h
  have hnodup : MessageType.all.Nodup := by decide
  have hidx : MessageType.all.idxOf mt = n.toInt.toNat := by
    rw [← hget, hnodup.idxOf_getElem]
  rw [MessageType.toI32, hidx, ← Int32.ofInt_eq_ofNat, Int.toNat_of_nonneg hn, Int32.ofInt_toInt]

/-! ### Frames of a client -/

/-- A frame that a client can send: an `MT_EMIT` is always written by hand, from a table made
through its own API. -/
def Sendable : Frame → Prop
  | .request r => r.type ≠ MessageType.mtEmit.toI32
  | .emit r => r.table.Built

/-- The table of an `MT_EMIT`, as the database reads it. -/
def readTable (r : EmitRequest) : ExascriptTableData :=
  r.table.toProto.getD .empty

theorem decode_emit {r : EmitRequest} (h : r.table.Built) :
    ExascriptRequest.decode (Frame.emit r).bytes = some (r.toRequest (readTable r)) := by
  obtain ⟨cells, hcells⟩ := h.exists_cells
  have hraw := EmitTable.encodeRaw_eq hcells
  have htable : r.tableLen = (encodeFields (r.table.protoOf cells).fields).length := by
    rw [← hraw, EmitTable.encodeRaw_length, EmitRequest.tableLen]
  have hread : readTable r = r.table.protoOf cells := by
    rw [readTable, EmitTable.toProto_eq hcells, Option.getD_some]
  have hinner : encodeKey 2 2 ++ Varint.encode r.tableLen ++ r.table.encodeRaw
      = encodeFields [messageField 2 (r.table.protoOf cells).fields] := by
    rw [encodeFields_cons, encodeFields_nil, List.append_nil, messageField, encodeField,
      encodePayload, hraw, htable, List.append_assoc]
    rfl
  have hlen := EmitRequest.emit_length r
  rw [hinner] at hlen
  -- The frame is the three fields that are set, one after the other.
  have hframe : (Frame.emit r).bytes = (r.toRequest (readTable r)).encodeToVec := by
    show r.encodeFrame = encodeFields [(1, .varint (varintOfI32 r.messageType)),
      (2, .varint r.connectionId.toNat), messageField 7 [messageField 2 (readTable r).fields]]
    rw [hread, encodeFields_cons, encodeFields_cons, encodeFields_cons, encodeFields_nil,
      List.append_nil, messageField, encodeField, encodeField, encodeField, encodePayload,
      encodePayload, encodePayload, hlen, ← hinner, EmitRequest.encodeFrame]
    simp only [encodeVarintField, List.append_assoc]
    rfl
  rw [hframe, ExascriptRequest.decode_encodeToVec]

/-- What the database makes of a frame. -/
def readFrame : Frame → ExascriptRequest
  | .request r => r
  | .emit r => r.toRequest (readTable r)

theorem decode_bytes {f : Frame} (h : Sendable f) :
    ExascriptRequest.decode f.bytes = some (readFrame f) := by
  cases f with
  | request r => exact ExascriptRequest.decode_encodeToVec r
  | emit r => exact decode_emit h

theorem readFrame_type (f : Frame) : (readFrame f).type = f.messageType := by
  cases f <;> rfl

/-! ### The peer -/

/-- How far a session has come. -/
inductive Stage where
  | client | handshake | idle | running | finishing | finished
  deriving DecidableEq, Repr

/-- The mock database between two frames. -/
structure State where
  stage : Stage
  /-- The batches of each cycle to come. -/
  cycles : List (List ExascriptTableData)
  /-- The batches left of the current cycle. -/
  input : List ExascriptTableData
  /-- What has been emitted in the current cycle. -/
  emits : List EmitRequest
  /-- What has been emitted in each cycle that is over. -/
  collected : List (List EmitRequest)

def start (cycles : List (List ExascriptTableData)) : State where
  stage := .client
  cycles := cycles
  input := []
  emits := []
  collected := []

/-- The `MT_NEXT` that brings a batch. -/
def nextReply (table : ExascriptTableData) : ExascriptResponse :=
  { reply .mtNext with next := some table }

/-- The answer to a frame within a run cycle. -/
def answerRunning (s : State) (f : Frame) : Option (ExascriptResponse × State) :=
  match MessageType.tryFrom f.messageType with
  | some .mtNext =>
    match s.input with
    | table :: input => some (nextReply table, { s with input := input })
    | [] => some (reply .mtDone, s)
  | some .mtEmit =>
    match f with
    | .emit r => some (reply .mtEmit, { s with emits := s.emits ++ [r] })
    | .request _ => none
  | some .mtDone =>
    some (reply .mtDone,
      { s with stage := .idle, emits := [], collected := s.collected ++ [s.emits] })
  | _ => none

/-- The answer to a frame, and the state after it.  The first frame out of place is refused, and
nothing is answered after it. -/
def answer (info : ExascriptInfo) (metadata : ExascriptMetadata) :
    Peer State Frame ExascriptResponse := fun s f =>
  match s.stage with
  | .client =>
    if f.messageType = MessageType.mtClient.toI32 then
      some (Session.infoReply info, { s with stage := .handshake })
    else none
  | .handshake =>
    if f.messageType = MessageType.mtMeta.toI32 then
      some (Session.metaReply metadata, { s with stage := .idle })
    else none
  | .idle =>
    if f.messageType = MessageType.mtRun.toI32 then
      match s.cycles with
      | tables :: cycles =>
        some (reply .mtRun,
          { s with stage := .running, cycles := cycles, input := tables, emits := [] })
      | [] => some (reply .mtCleanup, { s with stage := .finishing })
    else none
  | .running => answerRunning s f
  | .finishing =>
    if f.messageType = MessageType.mtFinished.toI32 then
      some (reply .mtFinished, { s with stage := .finished })
    else none
  | .finished => none

/-- What the driver expects in a stage. -/
def Stage.expected : Stage → String
  | .client => "MT_CLIENT"
  | .handshake => "MT_META"
  | .idle => "MT_RUN"
  | .running => "MT_NEXT, MT_EMIT or MT_DONE"
  | .finishing => "MT_FINISHED"
  | .finished => ""

/-- The error of a driver that gets a frame out of place. -/
def refusal (stage : Stage) (f : Frame) : MockError :=
  if f.messageType = MessageType.mtClose.toI32 then
    .closed ((readFrame f).close.bind ExascriptClose.exceptionMessage)
  else .unexpected stage.expected f.messageType

/-! ### The driver -/

section Driver

variable {info : ExascriptInfo} {metadata : ExascriptMetadata} {s s' s'' : State}
  {fs : List Frame} {out : List (List UInt8)} {res : Except MockError Unit} {session : Session}

/-- How a driver fares with the frames `fs` when the peer is in state `s`. -/
inductive Plays (info : ExascriptInfo) (metadata : ExascriptMetadata) (s : State)
    (fs : List Frame) (out : List (List UInt8)) :
    Except MockError Unit → Session → State → Prop where
  /-- The first frames are answered, and the others are left. -/
  | done {pre post : List Frame} {s' : State} : fs = pre ++ post →
    (answer info metadata).after s pre = some s' →
    Plays info metadata s fs out (.ok ()) ⟨post.map Frame.bytes,
      out ++ ((answer info metadata).replies s pre).map ExascriptResponse.encodeToVec⟩ s'
  /-- A frame is out of place. -/
  | refused {pre post : List Frame} {f : Frame} {s' : State} : fs = pre ++ f :: post →
    (answer info metadata).after s pre = some s' → answer info metadata s' f = none →
    s'.stage ≠ .finished →
    Plays info metadata s fs out (.error (refusal s'.stage f)) ⟨post.map Frame.bytes,
      out ++ ((answer info metadata).replies s pre).map ExascriptResponse.encodeToVec⟩ s'
  /-- All frames are answered, and none comes any more. -/
  | starved {s' : State} : (answer info metadata).after s fs = some s' → s'.stage ≠ .finished →
    Plays info metadata s fs out (.error .zmq) ⟨[],
      out ++ ((answer info metadata).replies s fs).map ExascriptResponse.encodeToVec⟩ s'

/-- A frame is answered first. -/
theorem Plays.step {f : Frame} {r : ExascriptResponse}
    (hanswer : answer info metadata s f = some (r, s'))
    (h : Plays info metadata s' fs (out ++ [r.encodeToVec]) res session s'') :
    Plays info metadata s (f :: fs) out res session s'' := by
  have hout : ∀ pre, out ++ [r.encodeToVec]
      ++ ((answer info metadata).replies s' pre).map ExascriptResponse.encodeToVec
      = out ++ ((answer info metadata).replies s (f :: pre)).map ExascriptResponse.encodeToVec := by
    intro pre
    rw [Peer.replies_cons hanswer, List.map_cons, List.append_assoc, List.singleton_append]
  cases h with
  | @done pre post _ hfs hafter =>
    rw [hout]
    exact .done (by rw [hfs, List.cons_append]) ((Peer.after_cons hanswer pre).trans hafter)
  | @refused pre post f' _ hfs hafter hrefused hstage =>
    rw [hout]
    exact .refused (by rw [hfs, List.cons_append]) ((Peer.after_cons hanswer pre).trans hafter)
      hrefused hstage
  | starved hafter hstage =>
    rw [hout]
    exact .starved ((Peer.after_cons hanswer fs).trans hafter) hstage

/-- The first frame is out of place. -/
theorem Plays.refuse {f : Frame} (hstage : s.stage ≠ .finished)
    (hanswer : answer info metadata s f = none) :
    Plays info metadata s (f :: fs) out (.error (refusal s.stage f)) ⟨fs.map Frame.bytes, out⟩
      s := by
  have h := @Plays.refused info metadata s (f :: fs) out [] fs f s rfl rfl hanswer hstage
  rwa [Peer.replies, List.map_nil, List.append_nil] at h

/-- No frame comes. -/
theorem Plays.starve (hstage : s.stage ≠ .finished) :
    Plays info metadata s [] out (.error .zmq) ⟨[], out⟩ s := by
  have h := @Plays.starved info metadata s [] out s rfl hstage
  rwa [Peer.replies, List.map_nil, List.append_nil] at h

/-- Nothing is left to do. -/
theorem Plays.rest : Plays info metadata s fs out (.ok ()) ⟨fs.map Frame.bytes, out⟩ s := by
  have h := @Plays.done info metadata s fs out [] fs s rfl rfl
  rwa [Peer.replies, List.map_nil, List.append_nil] at h

/-- Some frames are answered first. -/
theorem Plays.append {pre post : List Frame}
    (hafter : (answer info metadata).after s pre = some s')
    (h : Plays info metadata s' post
      (out ++ ((answer info metadata).replies s pre).map ExascriptResponse.encodeToVec) res
      session s'') :
    Plays info metadata s (pre ++ post) out res session s'' := by
  induction pre generalizing s out with
  | nil =>
    cases hafter
    rwa [Peer.replies, List.map_nil, List.append_nil] at h
  | cons f pre ih =>
    rcases hanswer : answer info metadata s f with _ | ⟨r, s₁⟩
    · rw [Peer.after_of_refused hanswer] at hafter
      cases hafter
    · rw [Peer.after_cons hanswer] at hafter
      refine Plays.step hanswer (ih hafter ?_)
      rwa [Peer.replies_cons hanswer, List.map_cons, ← List.singleton_append,
        ← List.append_assoc] at h

/-- One part of a driver after another. -/
theorem Plays.trans (h : Plays info metadata s fs out (.ok ()) session s') :
    ∃ post, session.inbox = post.map Frame.bytes ∧ (∀ f ∈ post, f ∈ fs) ∧
      ∀ {res session' s''}, Plays info metadata s' post session.outbox res session' s'' →
        Plays info metadata s fs out res session' s'' := by
  cases h with
  | @done pre post _ hfs hafter =>
    subst hfs
    exact ⟨post, rfl, fun f => List.mem_append_right pre, fun h => h.append hafter⟩

/-- How a driver fares with these frames: it ends well in the last stage, and fails at the first
frame that the peer refuses, or when none comes. -/
def verdict (info : ExascriptInfo) (metadata : ExascriptMetadata) :
    State → List Frame → Except MockError Unit
  | s, [] => if s.stage = .finished then .ok () else .error .zmq
  | s, f :: fs =>
    if s.stage = .finished then .ok ()
    else
      match answer info metadata s f with
      | none => .error (refusal s.stage f)
      | some (_, s') => verdict info metadata s' fs

/-- Nothing is answered in the last stage. -/
theorem not_finished {f : Frame} {r : ExascriptResponse}
    (h : answer info metadata s f = some (r, s')) : s.stage ≠ .finished := by
  intro hstage
  rw [answer, hstage] at h
  cases h

theorem verdict_finished (hstage : s.stage = .finished) (fs : List Frame) :
    verdict info metadata s fs = .ok () := by
  cases fs <;> exact if_pos hstage

theorem verdict_append {pre : List Frame} (hafter : (answer info metadata).after s pre = some s')
    (post : List Frame) :
    verdict info metadata s (pre ++ post) = verdict info metadata s' post := by
  induction pre generalizing s with
  | nil =>
    cases hafter
    rfl
  | cons f pre ih =>
    rcases hanswer : answer info metadata s f with _ | ⟨r, s₁⟩
    · rw [Peer.after_of_refused hanswer] at hafter
      cases hafter
    · rw [Peer.after_cons hanswer] at hafter
      rw [List.cons_append, verdict, if_neg (not_finished hanswer), hanswer]
      exact ih hafter

theorem verdict_refused {f : Frame} (hrefused : answer info metadata s f = none)
    (hstage : s.stage ≠ .finished) (fs : List Frame) :
    verdict info metadata s (f :: fs) = .error (refusal s.stage f) := by
  rw [verdict, if_neg hstage, hrefused]

theorem verdict_ok_iff {fs : List Frame} : verdict info metadata s fs = .ok () ↔
    ((answer info metadata).stop s fs).stage = .finished := by
  induction fs generalizing s with
  | nil =>
    rw [verdict, Peer.stop]
    split_ifs with hstage
    · exact ⟨fun _ => hstage, fun _ => rfl⟩
    · exact ⟨(by intro h; cases h), fun h => absurd h hstage⟩
  | cons f fs ih =>
    rcases hanswer : answer info metadata s f with _ | ⟨r, s₁⟩
    · rw [Peer.stop_of_refused hanswer]
      by_cases hstage : s.stage = .finished
      · exact ⟨fun _ => hstage, fun _ => verdict_finished hstage _⟩
      · rw [verdict_refused hanswer hstage]
        exact ⟨(by intro h; cases h), fun h => absurd h hstage⟩
    · rw [Peer.stop_cons hanswer, verdict, if_neg (not_finished hanswer), hanswer]
      exact ih

/-- **What the driver has sent** are the answers of the peer, and its result is the verdict. -/
theorem Plays.spec (h : Plays info metadata s fs out res session s')
    (hok : res = .ok () → s'.stage = .finished) :
    session.outbox
        = out ++ ((answer info metadata).replies s fs).map ExascriptResponse.encodeToVec ∧
      res = verdict info metadata s fs ∧ (answer info metadata).stop s fs = s' := by
  cases h with
  | @done pre post _ hfs hafter =>
    -- The last stage refuses what comes after it.
    have hnone : (answer info metadata).replies s' post = [] ∧
        (answer info metadata).stop s' post = s' := by
      cases post with
      | nil => exact ⟨rfl, rfl⟩
      | cons f post =>
        have hrefused : answer info metadata s' f = none := by rw [answer, hok rfl]
        exact ⟨Peer.replies_of_refused hrefused post, Peer.stop_of_refused hrefused post⟩
    rw [hfs, Peer.replies_append hafter, hnone.1, List.append_nil, verdict_append hafter,
      verdict_finished (hok rfl), Peer.stop_append hafter]
    exact ⟨rfl, rfl, hnone.2⟩
  | @refused pre post f _ hfs hafter hrefused hstage =>
    rw [hfs, Peer.replies_append hafter, Peer.replies_of_refused hrefused, List.append_nil,
      verdict_append hafter, verdict_refused hrefused hstage, Peer.stop_append hafter]
    exact ⟨rfl, rfl, Peer.stop_of_refused hrefused post⟩
  | starved hafter hstage =>
    have hverdict := verdict_append hafter []
    have hstop := Peer.stop_append hafter []
    rw [List.append_nil, verdict, if_neg hstage] at hverdict
    rw [List.append_nil] at hstop
    exact ⟨rfl, hverdict.symm, hstop⟩

/-- **A receive**: a frame of another type is refused. -/
theorem recv_cons {f : Frame} (hf : Sendable f) {mt : MessageType}
    (hmt : mt.toI32 ≠ MessageType.mtClose.toI32) {stage : Stage} (inbox : List (List UInt8)) :
    Session.recv mt stage.expected ⟨f.bytes :: inbox, out⟩
      = (if f.messageType = mt.toI32 then .ok (readFrame f) else .error (refusal stage f),
        ⟨inbox, out⟩) := by
  rw [Session.recv]
  dsimp only
  rw [decode, decode_bytes hf]
  dsimp only
  rw [readFrame_type, refusal]
  by_cases hclose : f.messageType = MessageType.mtClose.toI32
  · rw [if_pos hclose, if_pos hclose, if_neg (hclose ▸ fun h => hmt h.symm)]
    rfl
  · rw [if_neg hclose, if_neg hclose]
    show ((expect (readFrame f) mt stage.expected).map fun () => readFrame f, _) = _
    rw [expect, readFrame_type]
    split_ifs <;> rfl

variable (info metadata s s' out) in
/-- A stage that goes on with one type of frame only: the driver receives it, or fails. -/
theorem recv_plays (mt : MessageType) (hfs : ∀ f ∈ fs, Sendable f)
    (hmt : mt.toI32 ≠ MessageType.mtClose.toI32) (hstage : s.stage ≠ .finished)
    {r : ExascriptResponse} (hanswer : ∀ f, answer info metadata s f
      = if f.messageType = mt.toI32 then some (r, s') else none) :
    (∃ e session, Session.recv mt s.stage.expected ⟨fs.map Frame.bytes, out⟩
        = (.error e, session) ∧ Plays info metadata s fs out (.error e) session s) ∨
    ∃ f post, fs = f :: post ∧ answer info metadata s f = some (r, s') ∧
      Session.recv mt s.stage.expected ⟨fs.map Frame.bytes, out⟩
        = (.ok (readFrame f), ⟨post.map Frame.bytes, out⟩) := by
  rcases fs with - | ⟨f, fs⟩
  · exact .inl ⟨_, _, rfl, .starve hstage⟩
  rw [List.map_cons, recv_cons (hfs f List.mem_cons_self) hmt]
  by_cases hf : f.messageType = mt.toI32
  · rw [if_pos hf]
    exact .inr ⟨f, fs, rfl, (hanswer f).trans (if_pos hf), rfl⟩
  · rw [if_neg hf]
    exact .inl ⟨_, _, rfl, .refuse hstage ((hanswer f).trans (if_neg hf))⟩

variable (metadata out) in
theorem handshake_plays (hfs : ∀ f ∈ fs, Sendable f) (hstage : s.stage = .client)
    (udfObject scriptName : String) :
    let r := Session.handshake udfObject scriptName metadata ⟨fs.map Frame.bytes, out⟩
    ∃ s', Plays (Session.mockInfo udfObject scriptName) metadata s fs out r.1 r.2 s' ∧
      (r.1 = .ok () → s' = { s with stage := .idle }) := by
  unfold Session.handshake
  have hclient := recv_plays (Session.mockInfo udfObject scriptName) metadata s
    { s with stage := .handshake } out .mtClient hfs (by decide) (by rw [hstage]; nofun)
    fun f => by rw [answer, hstage]
  rw [hstage] at hclient
  obtain ⟨e, session, hrecv, hplays⟩ | ⟨f, fs, rfl, hanswer, hrecv⟩ := hclient
  · rw [show Session.recv .mtClient "MT_CLIENT" _ = _ from hrecv]
    exact ⟨s, hplays, fun h => nomatch h⟩
  rw [show Session.recv .mtClient "MT_CLIENT" _ = _ from hrecv]
  dsimp only
  rw [Session.send_mk]
  have hmeta := recv_plays (Session.mockInfo udfObject scriptName) metadata
    { s with stage := .handshake } { s with stage := .idle }
    (out ++ [(Session.infoReply (Session.mockInfo udfObject scriptName)).encodeToVec]) .mtMeta
    (fun g hg => hfs g (List.mem_cons_of_mem f hg)) (by decide) nofun fun f => rfl
  obtain ⟨e, session, hrecv', hplays⟩ | ⟨g, fs, rfl, hanswer', hrecv'⟩ := hmeta
  · rw [show Session.recv .mtMeta "MT_META" _ = _ from hrecv']
    exact ⟨_, .step hanswer hplays, fun h => nomatch h⟩
  · rw [show Session.recv .mtMeta "MT_META" _ = _ from hrecv']
    exact ⟨_, .step hanswer (.step hanswer' .rest), fun _ => rfl⟩

/-! ### Run cycles -/

/-- The cursor of a cycle whose batches to come are `tables`. -/
def Gives (c : FrameCursor) (tables : List ExascriptTableData) : Prop :=
  c.frames.drop c.pos = tables.map fun table => (nextReply table).encodeToVec

theorem Gives.nil {c : FrameCursor} (h : Gives c []) : c.nextFrame = (none, c) := by
  have hnone : c.frames[c.pos]? = none :=
    List.getElem?_eq_none (List.drop_eq_nil_iff.mp h)
  rw [FrameCursor.nextFrame, hnone]

theorem Gives.cons {c : FrameCursor} {table : ExascriptTableData}
    {tables : List ExascriptTableData} (h : Gives c (table :: tables)) :
    ∃ c', c.nextFrame = (some (nextReply table).encodeToVec, c') ∧ Gives c' tables := by
  have hsome : c.frames[c.pos]? = some (nextReply table).encodeToVec := by
    have hhead := congrArg (fun l => l[0]?) h
    rwa [List.getElem?_drop, Nat.add_zero] at hhead
  refine ⟨{ c with pos := c.pos + 1 }, ?_, ?_⟩
  · rw [FrameCursor.nextFrame, hsome]
  · show c.frames.drop (c.pos + 1) = _
    rw [← List.drop_drop, h]
    rfl

/-- What is kept of the `MT_EMIT`s. -/
def emitFrames (emits : List EmitRequest) : List (List UInt8) :=
  emits.map fun r => (Frame.emit r).bytes

variable (out) in
/-- A frame that the peer refuses ends the window. -/
theorem windowStep_refused {f : Frame} (hf : Sendable f) (hrefused : answerRunning s f = none)
    (inbox emits : List (List UInt8)) (c : FrameCursor) :
    Session.window.step ⟨⟨f.bytes :: inbox, out⟩, c, emits⟩
      = .inl (.error (refusal .running f), ⟨⟨inbox, out⟩, c, emits⟩) := by
  unfold Session.window Session.windowStep
  unfold answerRunning at hrefused
  dsimp only
  rw [tryFrom_peekType]
  split <;> rename_i hkind <;> try rw [hkind] at hrefused
  · dsimp only at hrefused
    split at hrefused <;> cases hrefused
  · cases f with
    | emit r => cases hrefused
    -- A client has no other request of this type.
    | request r =>
      exact absurd (eq_toI32_of_tryFrom hkind) hf
  · cases hrefused
  · rw [decode, decode_bytes hf, refusal, ← readFrame_type]
    dsimp only
    split_ifs <;> rfl

variable (out) in
/-- `MT_DONE` ends the window too. -/
theorem windowStep_done {f : Frame} (hdone : MessageType.tryFrom f.messageType = some .mtDone)
    (inbox emits : List (List UInt8)) (c : FrameCursor) :
    Session.window.step ⟨⟨f.bytes :: inbox, out⟩, c, emits⟩
      = .inl (.ok (), ⟨⟨inbox, out⟩, c, emits⟩) := by
  unfold Session.window Session.windowStep
  dsimp only
  rw [tryFrom_peekType, hdone]

variable (out) in
/-- Any other frame is answered, and the window goes on. -/
theorem windowStep_answered {f : Frame} (hf : Sendable f) {r : ExascriptResponse}
    (hanswer : answerRunning s f = some (r, s'))
    (hdone : MessageType.tryFrom f.messageType ≠ some .mtDone)
    (hemits : ∀ r ∈ s.emits, r.table.Built) {c : FrameCursor} (hinput : Gives c s.input)
    (inbox : List (List UInt8)) :
    ∃ c', Session.window.step ⟨⟨f.bytes :: inbox, out⟩, c, emitFrames s.emits⟩
        = .inr ⟨⟨inbox, out ++ [r.encodeToVec]⟩, c', emitFrames s'.emits⟩ ∧
      Gives c' s'.input ∧ s'.stage = s.stage ∧ s'.cycles = s.cycles ∧
      s'.collected = s.collected ∧ ∀ r ∈ s'.emits, r.table.Built := by
  unfold answerRunning at hanswer
  have hstep : Session.window.step ⟨⟨f.bytes :: inbox, out⟩, c, emitFrames s.emits⟩
      = Session.windowStep ⟨⟨f.bytes :: inbox, out⟩, c, emitFrames s.emits⟩ := rfl
  rw [hstep]
  split at hanswer <;> rename_i hkind
  · rw [Session.windowStep]
    dsimp only
    rw [tryFrom_peekType, hkind]
    dsimp only
    split at hanswer <;> rename_i htables <;> rw [htables] at hinput
    · obtain ⟨c', hnext, hgives⟩ := hinput.cons
      cases hanswer
      rw [hnext]
      exact ⟨c', rfl, hgives, rfl, rfl, rfl, hemits⟩
    · cases hanswer
      rw [hinput.nil]
      exact ⟨c, rfl, by rw [htables]; exact hinput, rfl, rfl, rfl, hemits⟩
  · cases f with
    | request r => cases hanswer
    | emit q =>
      cases hanswer
      refine ⟨c, ?_, hinput, rfl, rfl, rfl, fun r hr => ?_⟩
      · rw [Session.windowStep]
        dsimp only
        rw [tryFrom_peekType, hkind, emitFrames, emitFrames, List.map_append]
        rfl
      · rcases List.mem_append.mp hr with hr | hr
        · exact hemits r hr
        · obtain rfl := List.mem_singleton.mp hr
          exact hf
  · exact absurd hkind hdone
  · cases hanswer

/-- How the window of a run cycle ends: frames are answered up to the first `MT_DONE`, or one is
out of place, or none comes. -/
inductive WindowPlays (info : ExascriptInfo) (metadata : ExascriptMetadata) (s : State)
    (fs : List Frame) (out : List (List UInt8)) :
    Except MockError Unit × Session.Window → Prop where
  | failed {e : MockError} {w : Session.Window} {s' : State} :
    Plays info metadata s fs out (.error e) w.session s' →
    WindowPlays info metadata s fs out (.error e, w)
  | done {pre post : List Frame} {f : Frame} {s' : State} {c : FrameCursor} :
    fs = pre ++ f :: post → (answer info metadata).after s pre = some s' →
    MessageType.tryFrom f.messageType = some .mtDone → s'.stage = .running →
    s'.cycles = s.cycles → s'.collected = s.collected → (∀ r ∈ s'.emits, r.table.Built) →
    WindowPlays info metadata s fs out (.ok (), ⟨⟨post.map Frame.bytes,
      out ++ ((answer info metadata).replies s pre).map ExascriptResponse.encodeToVec⟩, c,
      emitFrames s'.emits⟩)

theorem WindowPlays.step {f : Frame} {r : ExascriptResponse}
    (hanswer : answer info metadata s f = some (r, s')) (hcycles : s'.cycles = s.cycles)
    (hcollected : s'.collected = s.collected) {x : Except MockError Unit × Session.Window}
    (h : WindowPlays info metadata s' fs (out ++ [r.encodeToVec]) x) :
    WindowPlays info metadata s (f :: fs) out x := by
  cases h with
  | failed h => exact .failed (.step hanswer h)
  | @done pre post g s'' c hfs hafter hdone hstage hcycles' hcollected' hbuilt =>
    have hout : out ++ [r.encodeToVec]
        ++ ((answer info metadata).replies s' pre).map ExascriptResponse.encodeToVec
        = out ++ ((answer info metadata).replies s (f :: pre)).map
          ExascriptResponse.encodeToVec := by
      rw [Peer.replies_cons hanswer, List.map_cons, List.append_assoc, List.singleton_append]
    rw [hout]
    exact .done (by rw [hfs, List.cons_append]) ((Peer.after_cons hanswer pre).trans hafter) hdone
      hstage (hcycles'.trans hcycles) (hcollected'.trans hcollected) hbuilt

variable (info metadata out) in
/-- **The window of a run cycle.** -/
theorem window_plays (hfs : ∀ f ∈ fs, Sendable f) (hstage : s.stage = .running)
    (hemits : ∀ r ∈ s.emits, r.table.Built) {c : FrameCursor} (hinput : Gives c s.input) :
    WindowPlays info metadata s fs out
      (Session.window.run ⟨⟨fs.map Frame.bytes, out⟩, c, emitFrames s.emits⟩) := by
  induction fs generalizing s out c with
  | nil =>
    have hrun := Loop.run_of_inl (L := Session.window)
      (s := ⟨⟨[], out⟩, c, emitFrames s.emits⟩) rfl
    rw [List.map_nil, hrun]
    exact .failed (.starve (by rw [hstage]; nofun))
  | cons f fs ih =>
    have hf := hfs f List.mem_cons_self
    have hrunning : answer info metadata s f = answerRunning s f := by rw [answer, hstage]
    rw [List.map_cons]
    by_cases hdone : MessageType.tryFrom f.messageType = some .mtDone
    · have hstep := windowStep_done out hdone (fs.map Frame.bytes) (emitFrames s.emits) c
      rw [Loop.run_of_inl (L := Session.window) hstep]
      have h := @WindowPlays.done info metadata s (f :: fs) out [] fs f s c rfl rfl hdone hstage
        rfl rfl hemits
      rwa [Peer.replies, List.map_nil, List.append_nil] at h
    rcases hanswer : answerRunning s f with - | ⟨r, s'⟩
    · have hstep := windowStep_refused out hf hanswer (fs.map Frame.bytes)
        (emitFrames s.emits) c
      rw [Loop.run_of_inl (L := Session.window) hstep, ← hstage]
      exact .failed (.refuse (by rw [hstage]; nofun) (hrunning.trans hanswer))
    · obtain ⟨c', hstep, hgives, hstage', hcycles, hcollected, hbuilt⟩ :=
        windowStep_answered out hf hanswer hdone hemits hinput (fs.map Frame.bytes)
      rw [Loop.run_of_inr (L := Session.window) hstep]
      exact .step (hrunning.trans hanswer) hcycles hcollected
        (ih _ (fun g hg => hfs g (List.mem_cons_of_mem f hg)) (hstage'.trans hstage) hbuilt hgives)

/-- The frames of a cycle's batches. -/
def batchFrames (tables : List ExascriptTableData) : List (List UInt8) :=
  tables.map fun table => (nextReply table).encodeToVec

section Sink

variable {σ : Type} (sink : EmitSink σ)

/-- What a sink makes of `MT_EMIT`s. -/
def observed (emits : List EmitRequest) (st : σ) : σ :=
  emits.foldl (fun st r => sink r.encodeFrame.length (readTable r) st) st

theorem observed_append (emits emits' : List EmitRequest) (st : σ) :
    observed sink (emits ++ emits') st = observed sink emits' (observed sink emits st) :=
  List.foldl_append

theorem observeAll_emitFrames {emits : List EmitRequest} (hbuilt : ∀ r ∈ emits, r.table.Built)
    (st : σ) :
    Session.observeAll sink (emitFrames emits) st = (.ok (), observed sink emits st) := by
  induction emits generalizing st with
  | nil => rfl
  | cons r emits ih =>
    have hrest := ih (fun q hq => hbuilt q (List.mem_cons_of_mem r hq))
      (sink r.encodeFrame.length (readTable r) st)
    show Session.observeAll sink ((Frame.emit r).bytes :: emitFrames emits) st = _
    rw [Session.observeAll, decode_emit (hbuilt r List.mem_cons_self)]
    exact hrest

variable (info metadata out) in
theorem runCycle_plays (hfs : ∀ f ∈ fs, Sendable f) (hstage : s.stage = .idle)
    {tables : List ExascriptTableData} {cycles : List (List ExascriptTableData)}
    (hcycles : s.cycles = tables :: cycles) (st : σ) :
    let r := Session.runCycle sink (batchFrames tables) st ⟨fs.map Frame.bytes, out⟩
    ∃ s', Plays info metadata s fs out r.1 r.2.2 s' ∧ (r.1 = .ok () → s'.stage = .idle ∧
      s'.cycles = cycles ∧ ∃ emits, s'.collected = s.collected ++ [emits] ∧
        r.2.1 = observed sink emits st) := by
  unfold Session.runCycle
  set s₁ : State := { s with stage := .running, cycles := cycles, input := tables, emits := [] }
    with hs₁
  have hrun := recv_plays info metadata s s₁ out .mtRun hfs (by decide) (by rw [hstage]; nofun)
    fun f => by rw [answer, hstage, hcycles]
  rw [hstage] at hrun
  obtain ⟨e, session, hrecv, hplays⟩ | ⟨f, fs, rfl, hanswer, hrecv⟩ := hrun
  · rw [show Session.recv .mtRun "MT_RUN" _ = _ from hrecv]
    exact ⟨s, hplays, fun h => nomatch h⟩
  rw [show Session.recv .mtRun "MT_RUN" _ = _ from hrecv]
  dsimp only
  rw [Session.send_mk]
  have hgives : Gives (.new (batchFrames tables)) s₁.input := rfl
  have hwindow := window_plays info metadata (out ++ [(reply .mtRun).encodeToVec])
    (fun g hg => hfs g (List.mem_cons_of_mem f hg)) rfl (fun r hr => absurd hr List.not_mem_nil)
    hgives
  rw [show emitFrames s₁.emits = [] from rfl] at hwindow
  generalize Session.window.run _ = x at hwindow
  cases hwindow with
  | failed hplays => exact ⟨_, .step hanswer hplays, fun h => nomatch h⟩
  | @done pre post g s₂ c hpre hafter hdone hstage₂ hcycles₂ hcollected₂ hbuilt =>
    dsimp only
    rw [observeAll_emitFrames sink hbuilt]
    dsimp only
    rw [Session.send_mk]
    -- The answer to `MT_DONE` comes once the sink has seen everything.
    have hanswer₂ : answer info metadata s₂ g = some (reply .mtDone,
        { s₂ with stage := .idle, emits := [], collected := s₂.collected ++ [s₂.emits] }) := by
      rw [answer, hstage₂]
      show answerRunning s₂ g = _
      unfold answerRunning
      rw [hdone]
    rw [hpre]
    exact ⟨_, .step hanswer (.append hafter (.step hanswer₂ .rest)), fun _ =>
      ⟨rfl, hcycles₂, s₂.emits, by rw [hcollected₂], rfl⟩⟩

variable (info metadata out) in
theorem runCycles_plays (hfs : ∀ f ∈ fs, Sendable f) (hstage : s.stage = .idle)
    {cycles : List (List ExascriptTableData)} (hcycles : s.cycles = cycles) (st : σ) :
    let r := Session.runCycles sink (cycles.map batchFrames) st ⟨fs.map Frame.bytes, out⟩
    ∃ s', Plays info metadata s fs out r.1 r.2.2 s' ∧ (r.1 = .ok () → s'.stage = .idle ∧
      s'.cycles = [] ∧ ∃ emits, s'.collected = s.collected ++ emits ∧
        r.2.1 = observed sink emits.flatten st) := by
  induction cycles generalizing s fs out st with
  | nil =>
    exact ⟨s, .rest, fun _ => ⟨hstage, hcycles, [], (List.append_nil _).symm, rfl⟩⟩
  | cons tables cycles ih =>
    obtain ⟨s₁, hplays, hok⟩ := runCycle_plays info metadata out sink hfs hstage
      hcycles st
    rw [List.map_cons, Session.runCycles]
    generalize Session.runCycle sink _ st _ = r at hplays hok
    obtain ⟨res, st₁, inbox, out₁⟩ := r
    cases res with
    | error e => exact ⟨s₁, hplays, fun h => nomatch h⟩
    | ok _ =>
      obtain ⟨hstage₁, hcycles₁, emits, hcollected, hst⟩ := hok rfl
      obtain ⟨post, hinbox, hsub, htrans⟩ := hplays.trans
      obtain rfl : inbox = post.map Frame.bytes := hinbox
      obtain ⟨s₂, hplays₂, hok₂⟩ := ih out₁ (fun f hf => hfs f (hsub f hf)) hstage₁ hcycles₁ st₁
      refine ⟨s₂, htrans hplays₂, fun hres => ?_⟩
      obtain ⟨hstage₂, hcycles₂, emits₂, hcollected₂, hst₂⟩ := hok₂ hres
      refine ⟨hstage₂, hcycles₂, emits :: emits₂, ?_, ?_⟩
      · rw [hcollected₂, hcollected, List.append_assoc, List.singleton_append]
      · rw [List.flatten_cons, observed_append, ← show st₁ = observed sink emits st from hst]
        exact hst₂

end Sink

variable (info metadata out) in
theorem finish_plays (hfs : ∀ f ∈ fs, Sendable f) (hstage : s.stage = .idle)
    (hcycles : s.cycles = []) :
    let r := Session.finish ⟨fs.map Frame.bytes, out⟩
    ∃ s', Plays info metadata s fs out r.1 r.2 s' ∧
      (r.1 = .ok () → s' = { s with stage := .finished }) := by
  unfold Session.finish
  have hrun := recv_plays info metadata s { s with stage := .finishing } out .mtRun hfs (by decide)
    (by rw [hstage]; nofun)
    fun f => by rw [answer, hstage, hcycles]
  rw [hstage] at hrun
  obtain ⟨e, session, hrecv, hplays⟩ | ⟨f, fs, rfl, hanswer, hrecv⟩ := hrun
  · rw [show Session.recv .mtRun "MT_RUN" _ = _ from hrecv]
    exact ⟨s, hplays, fun h => nomatch h⟩
  rw [show Session.recv .mtRun "MT_RUN" _ = _ from hrecv]
  dsimp only
  rw [Session.send_mk]
  have hlast := recv_plays info metadata { s with stage := .finishing }
    { s with stage := .finished } (out ++ [(reply .mtCleanup).encodeToVec]) .mtFinished
    (fun g hg => hfs g (List.mem_cons_of_mem f hg)) (by decide) nofun fun f => rfl
  obtain ⟨e, session, hrecv', hplays⟩ | ⟨g, fs, rfl, hanswer', hrecv'⟩ := hlast
  · rw [show Session.recv .mtFinished "MT_FINISHED" _ = _ from hrecv']
    exact ⟨_, .step hanswer hplays, fun h => nomatch h⟩
  · rw [show Session.recv .mtFinished "MT_FINISHED" _ = _ from hrecv']
    exact ⟨_, .step hanswer (.step hanswer' .rest), fun _ => rfl⟩

variable (metadata) in
theorem drive_plays {σ : Type} (sink : EmitSink σ) (hfs : ∀ f ∈ fs, Sendable f)
    (udfObject scriptName : String) (cycles : List (List ExascriptTableData)) (st : σ) :
    let r := Session.drive sink udfObject scriptName metadata (cycles.map batchFrames) st
      (.bind (fs.map Frame.bytes))
    ∃ s', Plays (Session.mockInfo udfObject scriptName) metadata (start cycles) fs [] r.1 r.2.2 s' ∧
      (r.1 = .ok () → s'.stage = .finished ∧ r.2.1 = observed sink s'.collected.flatten st) := by
  unfold Session.drive Session.bind
  have hclient : (start cycles).stage = .client := rfl
  obtain ⟨s₁, hplays, hok⟩ := handshake_plays metadata [] hfs hclient udfObject scriptName
  generalize Session.handshake _ _ _ _ = r at hplays hok
  obtain ⟨e | _, inbox, out⟩ := r
  · exact ⟨s₁, hplays, fun h => nomatch h⟩
  obtain rfl := hok rfl
  obtain ⟨post, hinbox, hsub, htrans⟩ := hplays.trans
  obtain rfl : inbox = post.map Frame.bytes := hinbox
  dsimp only
  have hpost : ∀ f ∈ post, Sendable f := fun f hf => hfs f (hsub f hf)
  have hidle : State.stage { start cycles with stage := .idle } = .idle := rfl
  have hcycles₁ : State.cycles { start cycles with stage := .idle } = cycles := rfl
  obtain ⟨s₂, hplays₂, hok₂⟩ := runCycles_plays (Session.mockInfo udfObject scriptName) metadata
    out sink hpost hidle hcycles₁ st
  generalize Session.runCycles sink _ st _ = r at hplays₂ hok₂
  obtain ⟨e | _, st₂, inbox₂, out₂⟩ := r
  · exact ⟨s₂, htrans hplays₂, fun h => nomatch h⟩
  obtain ⟨hstage, hcycles, emits, hcollected, hst⟩ := hok₂ rfl
  obtain ⟨post₂, hinbox₂, hsub₂, htrans₂⟩ := hplays₂.trans
  obtain rfl : inbox₂ = post₂.map Frame.bytes := hinbox₂
  dsimp only
  obtain ⟨s₃, hplays₃, hok₃⟩ := finish_plays (Session.mockInfo udfObject scriptName)
    metadata out₂ (fun f hf => hpost f (hsub₂ f hf)) hstage hcycles
  refine ⟨s₃, htrans (htrans₂ hplays₃), fun hres => ?_⟩
  obtain rfl := hok₃ hres
  refine ⟨rfl, ?_⟩
  show st₂ = observed sink s₂.collected.flatten st
  rw [hcollected]
  exact hst

/-- **The driver refines the peer.**  Whatever frames a client of this repository can write, in
whatever order, the driver sends the peer's answers, up to the first frame that is refused.  It ends
well exactly when the frames lead the peer to its last stage, and the sink has then seen every
`MT_EMIT` of every cycle, in order; otherwise it reports the frame that is refused, or that none
came. -/
theorem drive_refines {σ : Type} (sink : EmitSink σ) (hfs : ∀ f ∈ fs, Sendable f)
    (udfObject scriptName : String) (cycles : List (List ExascriptTableData)) (st : σ) :
    let info := Session.mockInfo udfObject scriptName
    let peer := answer info metadata
    let r := Session.drive sink udfObject scriptName metadata (cycles.map batchFrames) st
      (.bind (fs.map Frame.bytes))
    r.2.2.outbox.map ExascriptResponse.decode = (peer.replies (start cycles) fs).map some ∧
      r.1 = verdict info metadata (start cycles) fs ∧
      (r.1 = .ok () ↔ (peer.stop (start cycles) fs).stage = .finished) ∧
      (r.1 = .ok () →
        r.2.1 = observed sink (peer.stop (start cycles) fs).collected.flatten st) := by
  intro info peer r
  obtain ⟨s', hplays, hok⟩ := drive_plays metadata sink hfs udfObject scriptName cycles st
  obtain ⟨houtbox, hverdict, hstop⟩ := hplays.spec fun hres => (hok hres).1
  refine ⟨?_, hverdict, ?_, fun hres => ?_⟩
  · rw [houtbox, List.nil_append, List.map_map]
    refine List.map_congr_left fun response _ => ?_
    exact ExascriptResponse.decode_encodeToVec response
  · rw [← verdict_ok_iff]
    exact hverdict ▸ Iff.rfl
  · rw [hstop]
    exact (hok hres).2

/-- A client that emits once in the only cycle, and sends one frame too many. -/
theorem drive_refines_sample :
    let info := Session.mockInfo "udf.so" "F"
    let metadata : ExascriptMetadata := .empty
    let peer := answer info metadata
    let request (mt : MessageType) : Frame :=
      .request { ExascriptRequest.empty with type := mt.toI32 }
    let fs := [request .mtClient, request .mtMeta, request .mtRun, request .mtNext,
      .emit ⟨7, .default⟩, request .mtDone, request .mtRun, request .mtFinished, request .mtRun]
    let cycles := [[ExascriptTableData.empty]]
    let r := Session.drive EmitCounters.observe "udf.so" "F" metadata (cycles.map batchFrames)
      .default (.bind (fs.map Frame.bytes))
    r.2.2.outbox.map ExascriptResponse.decode = (peer.replies (start cycles) fs).map some ∧
      r.1 = verdict info metadata (start cycles) fs ∧
      (r.1 = .ok () ↔ (peer.stop (start cycles) fs).stage = .finished) ∧
      (r.1 = .ok () → r.2.1 = observed EmitCounters.observe
        (peer.stop (start cycles) fs).collected.flatten .default) := by
  intro info metadata peer request fs cycles
  refine drive_refines EmitCounters.observe (fun f hf => ?_) "udf.so" "F" cycles .default
  simp only [fs, List.mem_cons, List.not_mem_nil, or_false] at hf
  rcases hf with rfl | rfl | rfl | rfl | rfl | rfl | rfl | rfl | rfl
  case inr.inr.inr.inr.inl => exact EmitTable.Built.default
  all_goals
    show MessageType.toI32 _ ≠ _
    decide

end Driver

end MockDb

end ExaUdf
