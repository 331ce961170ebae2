import ExaUdf.Equiv.Wire

/-!
# What the bridge does with a batch

`refillStep_inv` says what one round of refilling can do.  On a working socket every round asks the
database (`refill_sends`).
-/

namespace ExaUdf

variable {env : Env} {m : UdfMeta}

/-! ### Fetching asks the database -/

theorem feedRel_log (env : Env) : Feed.Rel env fun fd fd' => fd.world.log <+: fd'.world.log :=
  (sessionRel_log env).dispatchRel.groupRel.toRel

/-- On a working socket `fetch` sends an `MT_NEXT`. -/
theorem Feed.fetch_sends {fd : Feed} (hlive : fd.world.dead = false) :
    fd.world.log ++ [.send (.request fd.world.proto.nextRequest)]
      <+: (fd.fetch env).2.world.log := by
  have hrel := feedRel_log env
  have hopen := World.request_sends env (.request fd.world.proto.nextRequest) hlive
  rw [← fetchStep_world] at hopen
  have hrest := (fetchLoop env).step_rel id Prod.snd
    (R := fun fd fd' => fd.world.log <+: fd'.world.log) hrel.refl hrel.trans hrel.next fd
  exact hopen.trans hrest

theorem Feed.fetch_dead {fd : Feed} (hdead : fd.world.dead = true) :
    ∃ e, (fd.fetch env).1 = .error e := by
  have hstep : (fetchLoop env).step fd = .inl
      (.error (.connectBack (RuntimeError.protocol (.zmq env.socketStateError)).display), fd) := by
    show fd.fetchStep env = _
    unfold fetchStep
    rw [World.request_dead env _ hdead]
  unfold fetch
  rw [Loop.run_of_inl hstep]
  exact ⟨_, rfl⟩

/-- How a round of fetching leaves the exit of the group. -/
theorem Feed.fetchStep_exit (env : Env) (fd : Feed) :
    ((fd.fetchStep env).elim Prod.snd id).exit =
      match (fd.world.request env (.request fd.world.proto.nextRequest)).1 with
      | .ok .cleanup => some .session
      | .ok (.close message) => some (.closed message)
      | _ => fd.exit := by
  unfold fetchStep
  rcases fd.world.request env (.request fd.world.proto.nextRequest) with ⟨e | event, w⟩
  · rfl
  · cases event <;> rfl

namespace HostContextBridge

/-- What one round of refilling can do. -/
inductive RefillStep (env : Env) (m : UdfMeta) (b : HostContextBridge) :
    (Except UdfError Bool × HostContextBridge) ⊕ HostContextBridge → Prop where
  | failed {e : UdfError} {feed : Feed} : b.toFeed.fetch env = (.error e, feed) →
    RefillStep env m b (.inl (.error e, { b with toFeed := feed }))
  | ended {feed : Feed} : b.toFeed.fetch env = (.ok none, feed) →
    RefillStep env m b (.inl (.ok false, { b with toFeed := feed }))
  | undecodable {table : ExascriptTableData} {feed : Feed} {e : UdfError} :
    b.toFeed.fetch env = (.ok (some table), feed) →
    InputRowSet.decode env.toExtern table m.inputColumns = .error e →
    RefillStep env m b
      (.inl (.error e, { b with toFeed := feed, input := { b.input with cells := [] } }))
  | empty {table : ExascriptTableData} {feed : Feed} {input : InputRowSet} :
    b.toFeed.fetch env = (.ok (some table), feed) →
    InputRowSet.decode env.toExtern table m.inputColumns = .ok input → input.nRows = 0 →
    RefillStep env m b (.inr { b with toFeed := feed, input := input })
  | loaded {table : ExascriptTableData} {feed : Feed} {input : InputRowSet} :
    b.toFeed.fetch env = (.ok (some table), feed) →
    InputRowSet.decode env.toExtern table m.inputColumns = .ok input → input.nRows ≠ 0 →
    RefillStep env m b (.inl (.ok true, { b with toFeed := feed, input := input }))

theorem refillStep_inv (env : Env) (m : UdfMeta) (b : HostContextBridge) :
    RefillStep env m b (b.refillStep env m) := by
  unfold refillStep InputRowSet.reload
  rcases hf : b.toFeed.fetch env with ⟨e | (- | table), feed⟩
  · exact .failed hf
  · exact .ended hf
  · dsimp only
    rcases hd : InputRowSet.decode env.toExtern table m.inputColumns with e | input
    · exact .undecodable hf hd
    · dsimp only
      split_ifs with hempty
      · exact .empty hf hd (by simpa [InputRowSet.isEmpty] using hempty)
      · exact .loaded hf hd (by simpa [InputRowSet.isEmpty] using hempty)

theorem refillStep_feed (b : HostContextBridge) :
    (b.refillStep env m).elim (fun r => r.2.toFeed) toFeed = (b.toFeed.fetch env).2 := by
  have hinv := refillStep_inv env m b
  generalize b.refillStep env m = round at hinv
  cases hinv <;> rename_i hf <;> simp_all

/-- `refill` asks the database, or fails. -/
theorem refill_sends (b : HostContextBridge) (h : (b.refill env m).1 = .ok false) :
    sends (b.refill env m).2.world.log ≠ sends b.world.log := by
  cases hdead : b.world.dead with
  -- On a stuck socket the fetch fails, so there is no end of the input.
  | true =>
    obtain ⟨e, he⟩ := @Feed.fetch_dead env b.toFeed hdead
    have hstep : ∃ b', (refillLoop env m).step b = .inl (.error e, b') := by
      show ∃ b', b.refillStep env m = _
      unfold refillStep
      split <;> rename_i hf <;> rw [hf] at he <;> cases he
      exact ⟨_, rfl⟩
    obtain ⟨b', hb'⟩ := hstep
    unfold refill at h
    rw [Loop.run_of_inl hb'] at h
    cases h
  | false =>
    have hrel := feedRel_log env
    have hopen := @Feed.fetch_sends env b.toFeed hdead
    have hrest := (refillLoop env m).step_rel toFeed (fun r => r.2.toFeed)
      (R := fun fd fd' => fd.world.log <+: fd'.world.log) hrel.refl hrel.trans
      (refillStep_rel m hrel.toFetchRel) b
    change ((b.refillStep env m).elim (fun r => r.2.toFeed) toFeed).world.log <+: _ at hrest
    rw [refillStep_feed] at hrest
    have hmore := ((hopen.trans hrest).filterMap Event.sent?).length_le
    rw [List.filterMap_append, List.length_append] at hmore
    intro hsame
    have hlen := congrArg List.length hsame
    unfold sends refill at hlen
    simp only [List.filterMap_cons, Event.sent?, List.filterMap_nil, List.length_singleton] at hmore
    omega

end HostContextBridge

end ExaUdf
