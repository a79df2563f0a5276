import PeerCache.Proofs.Flight.Course

/-!
# What a poll publishes and what it returns

A signal other than `pending` is final (`signal?_apply`). A result is shown only by a poll of its
own leader, whose computation came to it and which returns it (`Turn.published`); and a poll that
returns a result either reads it off the call that the task follows or is the poll that publishes it
(`Turn.returned`).
-/

namespace PeerCache.Flight

variable {ν ε : Type} {flight flight' : Flight ν ε} {id other leader : TaskId} {key : String}
  {task : Task ν ε} {result : Except ε ν} {answer : Poll ν ε} {polled : Polled ν ε}
  {signal : Signal ν ε}

/-! ## Signals are final -/

/-- What has been shown to the followers of a call stays on show. -/
def Sealed (flight flight' : Flight ν ε) : Prop :=
  ∀ (leader : TaskId) (signal : Signal ν ε), signal ≠ .pending →
    flight.signal? leader = some signal → flight'.signal? leader = some signal

theorem Sealed.trans {mid : Flight ν ε} (one : Sealed flight mid) (two : Sealed mid flight') :
    Sealed flight flight' :=
  fun leader signal final shown => two leader signal final (one leader signal final shown)

/-- A new call overwrites no signal that was on show, because its leader had no call before. -/
theorem Coherent.sealed_register {phase : Phase} (h : flight.Coherent)
    (standing : flight.standing? id = some (key, phase)) (live : phase.isLive)
    (idle : phase ≠ .leading) : Sealed flight (flight.register id key) := by
  intro leader signal final shown
  -- the new call takes the place of none: its leader had no call before
  have apart : id ≠ leader := by
    rintro rfl
    rw [signal?, h.call?_eq_none standing live idle] at shown
    cases shown
  rw [signal?_register, if_neg apart]
  exact shown

/-- The last signal of a call replaces none that was on show, because until then the call was open.
-/
theorem Coherent.sealed_conclude {last : Signal ν ε} {phase : Phase} (h : flight.Coherent)
    (standing : flight.standing? id = some (key, .leading)) :
    Sealed flight (flight.conclude id key last phase) := by
  intro leader signal final shown
  -- the call that gets its last signal now was open until now
  have apart : id ≠ leader := by
    rintro rfl
    obtain ⟨followers, found⟩ := (h.leading standing).2
    rw [signal?_of_call? found, Option.some.injEq] at shown
    exact final shown.symm
  rw [signal?_conclude, if_neg apart]
  exact shown

/-- However a leader goes on, it changes the signal of an open call at most, and that is its own. -/
theorem Driven.sealed (driven : Driven flight id task flight' answer) (h : flight.Coherent)
    (standing : flight.standing? id = some (task.key, .leading)) : Sealed flight flight' := by
  cases driven with
  | computing => exact fun _ _ _ shown => shown
  | publishes => exact h.sealed_conclude standing
  | raises => exact h.sealed_conclude standing
  | refused => exact h.sealed_conclude standing
  | failsToCopy =>
    have poisoned : flight.poison.standing? id = some (task.key, .leading) := standing
    have kept : Sealed flight flight.poison := fun _ _ _ shown => shown
    exact kept.trans (h.poison.sealed_conclude poisoned)

/-- A turn takes no signal from show. A task that leads and goes in one turn writes twice, both
times to a call of its own. -/
theorem Turn.sealed (turn : Turn flight id task polled) (h : flight.Coherent)
    (standing : flight.standing? id = some (task.key, task.phase)) :
    Sealed flight polled.flight := by
  have registered := standing?_register_self standing
  cases turn with
  | waits => exact fun _ _ _ shown => shown
  | receives => exact fun _ _ _ shown => shown
  | refused => exact fun _ _ _ shown => shown
  | joins => exact fun _ _ _ shown => signal?_join.trans shown
  | failsToStart seeks _ free =>
    have registers := h.sealed_register standing seeks.live.1 seeks.live.2
    have coherent := h.register standing seeks.live.1 seeks.live.2 free
    exact registers.trans (coherent.sealed_conclude registered)
  | leads seeks _ free _ driven =>
    have registers := h.sealed_register standing seeks.live.1 seeks.live.2
    have coherent := h.register standing seeks.live.1 seeks.live.2 free
    exact registers.trans (driven.sealed coherent registered)
  | drives phase driven => exact driven.sealed h (phase ▸ standing)

/-- **A call that is over shows the same signal for ever.** -/
theorem Coherent.sealed_apply (h : flight.Coherent) (op : FlightOp ν ε) :
    Sealed flight (flight.apply op).flight := by
  cases op with
  | spawn id key outcome startFault => exact fun _ _ _ shown => signal?_spawn.trans shown
  | resolve id outcome => exact fun _ _ _ shown => shown
  | poll id =>
    show Sealed flight (flight.poll id).flight
    obtain ⟨task, found, live⟩ | finished := live_or_gone flight id
    · have standing := standing?_attend_of_task? found
      exact (poll_turn h found live).sealed h.attend standing
    · rw [poll_gone finished]
      exact fun _ _ _ shown => shown
  | abandon id =>
    show Sealed flight (flight.abandon id).1
    obtain ⟨task, found, live⟩ | finished := live_or_gone flight id
    · by_cases leads : task.phase = .leading
      · rw [abandon_leading found leads]
        exact h.sealed_conclude (leads ▸ standing?_of_task? found)
      · rw [abandon_idle found live leads]
        exact fun _ _ _ shown => shown
    · rw [abandon_gone finished]
      exact fun _ _ _ shown => shown

/-! ## Who publishes -/

/-- Of the ways a computation can go on, one publishes, and it publishes the result that the
computation came to and that the poll returns. -/
theorem Driven.published (driven : Driven flight id task flight' answer)
    (shown : flight'.signal? other = some (.published result)) :
    flight.signal? other = some (.published result) ∨
      other = id ∧ answer = .returned result ∧ task.CameTo result := by
  -- three of the ways to go on close the call of `id` and publish nothing
  have closed : ∀ {before : Flight ν ε},
      (before.conclude id task.key .closed .ended).signal? other = some (.published result) →
        before.signal? other = some (.published result) := by
    intro before there
    rw [signal?_conclude] at there
    split at there
    · obtain ⟨_, _, impossible⟩ := Option.map_eq_some_iff.mp there
      cases impossible
    · exact there
  cases driven with
  | computing => exact .inl shown
  | publishes came is =>
    rw [signal?_conclude] at shown
    split at shown
    · next same =>
      obtain ⟨_, _, eq⟩ := Option.map_eq_some_iff.mp shown
      obtain rfl := Signal.published.inj eq
      exact .inr ⟨same.symm, rfl, _, came, is⟩
    · exact .inl shown
  | raises => exact .inl (closed shown)
  | refused => exact .inl (closed shown)
  | failsToCopy => exact .inl (@closed flight.poison shown)

/-- **A result on show was there before, or this is the poll of its leader that came to it.** -/
theorem Turn.published (turn : Turn flight id task polled)
    (shown : polled.flight.signal? other = some (.published result)) :
    flight.signal? other = some (.published result) ∨
      other = id ∧ polled.answer = .returned result ∧ task.CameTo result ∧
        (polled.started = true ∨ task.phase = .leading) := by
  -- a call that has just been registered is open
  have registered : (flight.register id task.key).signal? other = some (.published result) →
      flight.signal? other = some (.published result) := by
    intro there
    rw [signal?_register] at there
    split at there
    · cases there
    · exact there
  cases turn with
  | waits => exact .inl shown
  | receives => exact .inl shown
  | refused => exact .inl shown
  | joins => exact .inl (signal?_join.symm.trans shown)
  | failsToStart =>
    rw [signal?_conclude] at shown
    split at shown
    · obtain ⟨_, _, impossible⟩ := Option.map_eq_some_iff.mp shown
      cases impossible
    · exact .inl (registered shown)
  | leads _ _ _ _ driven =>
    rcases driven.published shown with before | ⟨same, returned, came⟩
    · exact .inl (registered before)
    · exact .inr ⟨same, returned, came, .inl rfl⟩
  | drives phase driven =>
    rcases driven.published shown with before | ⟨same, returned, came⟩
    · exact .inl before
    · exact .inr ⟨same, returned, came, .inr phase⟩

/-! ## Who returns -/

/-- A leader that returns a result has published it: `computing` returns nothing yet and all other
ways fail. -/
theorem Driven.returned (driven : Driven flight id task flight' answer) (h : flight.Coherent)
    (standing : flight.standing? id = some (task.key, .leading))
    (returns : answer = .returned result) :
    flight'.signal? id = some (.published result) ∧ task.CameTo result := by
  cases driven with
  | computing => cases returns
  | publishes came is =>
    obtain rfl := Poll.returned.inj returns
    obtain ⟨followers, found⟩ := (h.leading standing).2
    rw [signal?_conclude, if_pos rfl, signal?_of_call? found]
    exact ⟨rfl, _, came, is⟩
  | raises => cases returns
  | refused => cases returns
  | failsToCopy => cases returns

/-- **A poll returns what the call shows that the task follows, or publishes what it returns.** In
the second case the task was not waiting for any other call. -/
theorem Turn.returned (turn : Turn flight id task polled) (h : flight.Coherent)
    (standing : flight.standing? id = some (task.key, task.phase))
    (returns : polled.answer = .returned result) :
    (∃ leader, task.phase = .following leader ∧
      flight.signal? leader = some (.published result) ∧ polled.started = false) ∨
    ((polled.started = true ∨ task.phase = .leading) ∧ task.CameTo result ∧
      polled.flight.signal? id = some (.published result) ∧
      ∀ leader, task.phase = .following leader → flight.signal? leader = some .closed) := by
  cases turn with
  | waits => cases returns
  | receives phase published =>
    obtain rfl := Poll.returned.inj returns
    exact .inl ⟨_, phase, published, rfl⟩
  | refused => cases returns
  | joins => cases returns
  | failsToStart => cases returns
  | leads seeks _ free _ driven =>
    have registered := standing?_register_self standing
    have coherent := h.register standing seeks.live.1 seeks.live.2 free
    obtain ⟨shown, came⟩ := driven.returned coherent registered returns
    exact .inr ⟨.inl rfl, came, shown, fun leader => seeks.closed⟩
  | drives phase driven =>
    obtain ⟨shown, came⟩ := driven.returned h (phase ▸ standing) returns
    refine .inr ⟨.inr phase, came, shown, fun leader follows => ?_⟩
    -- a task that leads follows nobody
    rw [phase] at follows
    cases follows

/-- Who returns is over. A follower ends when it takes over the result, a leader when it concludes
its call. -/
theorem Turn.ended (turn : Turn flight id task polled)
    (standing : flight.standing? id = some (task.key, task.phase))
    (returns : polled.answer = .returned result) :
    polled.flight.standing? id = some (task.key, .ended) := by
  -- the computation may be driven in the turn that starts it or in a later one
  have driven_ended : ∀ {before after : Flight ν ε} {answer : Poll ν ε},
      Driven before id task after answer → answer = .returned result →
        before.standing? id = some (task.key, .leading) →
          after.standing? id = some (task.key, .ended) := by
    intro before after answer driven returns leads
    cases driven with
    | computing => cases returns
    | publishes => exact standing?_conclude_self leads
    | raises => cases returns
    | refused => cases returns
    | failsToCopy => cases returns
  cases turn with
  | waits => cases returns
  | receives => exact standing?_setPhase_self standing
  | refused => cases returns
  | joins => cases returns
  | failsToStart => cases returns
  | leads _ _ _ _ driven =>
    exact driven_ended driven returns (standing?_register_self standing)
  | drives phase driven => exact driven_ended driven returns (phase ▸ standing)

/-! ## Who joins and who leaves -/

/-- A task that follows a call after its poll followed it before, or has just joined it. -/
theorem Turn.joined (turn : Turn flight id task polled) (h : flight.Coherent)
    (standing : flight.standing? id = some (task.key, task.phase))
    (follows : polled.flight.standing? id = some (key, .following leader)) :
    task.phase = .following leader ∨
      flight.standing? leader = some (key, .leading) ∧
        .callJoined key ∈ polled.events := by
  -- in every turn but a waiting or a joining one the task comes to lead or to be over
  have led : ∀ {after : Flight ν ε} {new : Phase}, (new = .leading ∨ new.isLive = false) →
      after.standing? id = some (task.key, new) →
        after.standing? id ≠ some (key, .following leader) := by
    intro after new is there again
    rw [there, Option.some.injEq, Prod.mk.injEq] at again
    rw [again.2] at is
    rcases is with is | is <;> cases is
  have registered := standing?_register_self standing
  cases turn with
  | waits =>
    rw [standing, Option.some.injEq, Prod.mk.injEq] at follows
    exact .inl follows.2
  | receives =>
    exact (led (.inr rfl) (standing?_setPhase_self standing) follows).elim
  | refused =>
    exact (led (.inr rfl) (standing?_setPhase_self standing) follows).elim
  | joins _ good taken =>
    rw [standing?_join standing, if_pos rfl, Option.some.injEq, Prod.mk.injEq] at follows
    obtain ⟨rfl, same⟩ := follows
    obtain rfl := Phase.following.inj same
    exact .inr ⟨h.registered good taken, List.mem_append_right _ (List.mem_singleton.mpr rfl)⟩
  | failsToStart =>
    exact (led (.inr rfl) (standing?_conclude_self registered) follows).elim
  | leads _ _ _ _ driven =>
    obtain ⟨new, is, after⟩ := driven.standing? registered
    exact (led is ((after id).trans (if_pos rfl)) follows).elim
  | drives phase driven =>
    rw [phase] at standing
    obtain ⟨new, is, after⟩ := driven.standing? standing
    exact (led is ((after id).trans (if_pos rfl)) follows).elim

/-- A follower leaves its call only if that was closed, or else it is over. -/
theorem Turn.left (turn : Turn flight id task polled)
    (standing : flight.standing? id = some (task.key, task.phase))
    (followed : task.phase = .following leader) :
    polled.flight.standing? id = some (task.key, .following leader) ∨
      polled.flight.standing? id = some (task.key, .ended) ∨
      flight.signal? leader = some .closed := by
  cases turn with
  | waits => exact .inl (followed ▸ standing)
  | receives => exact .inr (.inl (standing?_setPhase_self standing))
  | refused => exact .inr (.inl (standing?_setPhase_self standing))
  | joins seeks => exact .inr (.inr (seeks.closed followed))
  | failsToStart seeks => exact .inr (.inr (seeks.closed followed))
  | leads seeks => exact .inr (.inr (seeks.closed followed))
  | drives phase => cases followed.symm.trans phase

/-! ## The same of every step -/

section Steps

variable {op : FlightOp ν ε}

/-- Whatever a step has put on show was published by it, a poll of the leader. -/
theorem Coherent.published_apply (h : flight.Coherent)
    (shown : (flight.apply op).flight.signal? leader = some (.published result)) :
    flight.signal? leader = some (.published result) ∨
      op = .poll leader ∧ (flight.apply op).answer = .polled (.returned result) ∧
        (∃ task, flight.task? leader = some task ∧ task.CameTo result) ∧
        (leader ∈ (flight.apply op).started ∨
          ∃ key, flight.standing? leader = some (key, .leading)) := by
  cases op with
  | spawn => exact .inl (signal?_spawn.symm.trans shown)
  | resolve => exact .inl shown
  | poll id =>
    -- the only step that can publish
    have there : (flight.poll id).flight.signal? leader = some (.published result) := shown
    obtain ⟨task, found, live⟩ | finished := live_or_gone flight id
    · rcases (poll_turn h found live).published there with old | ⟨rfl, returned, came, began⟩
      · exact .inl old
      · have answered : (flight.apply (.poll leader)).answer = .polled (.returned result) :=
          congrArg FlightAnswer.polled returned
        refine .inr ⟨rfl, answered, ⟨task, found, came⟩, ?_⟩
        rcases began with started | leads
        · exact .inl (mem_started_poll.mpr ⟨rfl, started⟩)
        · exact .inr ⟨task.key, leads ▸ standing?_of_task? found⟩
    · rw [poll_gone finished] at there
      exact .inl there
  | abandon id =>
    have there : (flight.abandon id).1.signal? leader = some (.published result) := shown
    obtain ⟨task, found, live⟩ | finished := live_or_gone flight id
    · by_cases leads : task.phase = .leading
      · rw [abandon_leading found leads, signal?_conclude] at there
        split at there
        · obtain ⟨_, _, impossible⟩ := Option.map_eq_some_iff.mp there
          cases impossible
        · exact .inl there
      · rw [abandon_idle found live leads] at there
        exact .inl there
    · rw [abandon_gone finished] at there
      exact .inl there

/-- What a step returns is on show in the call that the task follows, or is published by it. -/
theorem Coherent.returned_apply (h : flight.Coherent)
    (returns : (flight.apply (.poll id)).answer = .polled (.returned result)) :
    (∃ leader key, flight.standing? id = some (key, .following leader) ∧
      flight.signal? leader = some (.published result) ∧
      id ∉ (flight.apply (.poll id)).started) ∨
    ((id ∈ (flight.apply (.poll id)).started ∨
        ∃ key, flight.standing? id = some (key, .leading)) ∧
      (∃ task, flight.task? id = some task ∧ task.CameTo result) ∧
      (flight.apply (.poll id)).flight.signal? id = some (.published result) ∧
      ∀ leader key, flight.standing? id = some (key, .following leader) →
        flight.signal? leader = some .closed) := by
  have answer : (flight.poll id).answer = .returned result := FlightAnswer.polled.inj returns
  obtain ⟨task, found, live⟩ | finished := live_or_gone flight id
  · have standing := standing?_of_task? found
    have attended := standing?_attend_of_task? found
    rcases (poll_turn h found live).returned h.attend attended answer with
      ⟨leader, phase, shown, idle⟩ | ⟨began, came, shown, closed⟩
    · refine .inl ⟨leader, task.key, phase ▸ standing, shown, fun mem => ?_⟩
      rw [mem_started_poll, idle] at mem
      cases mem.2
    · refine .inr ⟨?_, ⟨task, found, came⟩, shown, fun leader key follows => ?_⟩
      · rcases began with started | leads
        · exact .inl (mem_started_poll.mpr ⟨rfl, started⟩)
        · exact .inr ⟨task.key, leads ▸ standing⟩
      · rw [standing, Option.some.injEq, Prod.mk.injEq] at follows
        exact closed leader follows.2
  · rw [poll_gone finished] at answer
    cases answer

/-- The same of a whole step: a poll that returns leaves the task over. -/
theorem Coherent.isOver_of_returned (h : flight.Coherent)
    (returns : (flight.apply (.poll id)).answer = .polled (.returned result)) :
    IsOver ((flight.apply (.poll id)).flight.standing? id) := by
  have answer : (flight.poll id).answer = .returned result := FlightAnswer.polled.inj returns
  obtain ⟨task, found, live⟩ | finished := live_or_gone flight id
  · have attended := standing?_attend_of_task? found
    exact ⟨task.key, .ended, (poll_turn h found live).ended attended answer, rfl⟩
  · rw [poll_gone finished] at answer
    cases answer

/-- A task that follows a call after a step followed it before, or joined it by this step. -/
theorem Coherent.joined_apply (h : flight.Coherent)
    (follows : (flight.apply op).flight.standing? id = some (key, .following leader)) :
    flight.standing? id = some (key, .following leader) ∨
      op = .poll id ∧ flight.standing? leader = some (key, .leading) ∧
        .callJoined key ∈ (flight.apply op).events := by
  by_cases mine : op.subject = id
  · cases op with
    | spawn new key' outcome startFault =>
      have there : (flight.spawn new key' outcome startFault).standing? id =
          some (key, .following leader) := follows
      rw [standing?_spawn] at there
      split at there
      · cases there
      · exact .inl there
    | resolve resolved outcome =>
      have same : (flight.resolve resolved outcome).standing? id = flight.standing? id :=
        standing?_update fun _ => ⟨rfl, rfl⟩
      exact .inl (same.symm.trans follows)
    | poll polled =>
      obtain rfl : polled = id := mine
      have there : (flight.poll polled).flight.standing? polled =
          some (key, .following leader) := follows
      obtain ⟨task, found, live⟩ | finished := live_or_gone flight polled
      · have standing := standing?_of_task? found
        have attended := standing?_attend_of_task? found
        have turn := poll_turn h found live
        rcases turn.joined h.attend attended there with before | ⟨leads, joined⟩
        · -- it followed before, and under the same key, which no step changes
          have taskStep := (h.poll_taskStep polled).1
          rw [standing, there] at taskStep
          rw [standing, before, taskStep.key_eq]
          exact .inl rfl
        · rw [standing?_attend] at leads
          exact .inr ⟨rfl, leads, joined⟩
      · rw [poll_gone finished] at there
        exact .inl there
    | abandon dropped =>
      -- whoever is dropped follows nobody
      obtain ⟨task, found, -, phase⟩ := task?_of_standing? follows
      have finished := abandon_over (mine ▸ found)
      rw [phase] at finished
      cases finished
  · rw [(h.apply_taskStep op id).2 mine] at follows
    exact .inl follows

/-- A follower leaves its call only if that was closed, or else it is over. -/
theorem Coherent.left_apply (h : flight.Coherent) (op : FlightOp ν ε)
    (followed : flight.standing? id = some (key, .following leader)) :
    (flight.apply op).flight.standing? id = some (key, .following leader) ∨
      IsOver ((flight.apply op).flight.standing? id) ∨ flight.signal? leader = some .closed := by
  by_cases mine : op.subject = id
  · cases op with
    | spawn new key' outcome startFault =>
      have same : (flight.spawn new key' outcome startFault).standing? id =
          flight.standing? id := by
        -- the id is taken, so the spawn has no effect
        rw [standing?_spawn, if_neg]
        rintro ⟨rfl, none_⟩
        cases followed.symm.trans none_
      exact .inl (same.trans followed)
    | resolve resolved outcome =>
      have same : (flight.resolve resolved outcome).standing? id = flight.standing? id :=
        standing?_update fun _ => ⟨rfl, rfl⟩
      exact .inl (same.trans followed)
    | poll polled =>
      obtain rfl : polled = id := mine
      obtain ⟨task, found, rfl, phase⟩ := task?_of_standing? followed
      have live : task.phase.isLive := by
        rw [phase]
        rfl
      have attended := standing?_attend_of_task? found
      rcases (poll_turn h found live).left attended phase with stays | ended | closed
      · exact .inl stays
      · exact .inr (.inl ⟨_, _, ended, rfl⟩)
      · exact .inr (.inr closed)
    | abandon dropped =>
      obtain rfl : dropped = id := mine
      have taskStep := (abandon_taskStep flight dropped).1
      cases after : (flight.abandon dropped).1.task? dropped with
      | none =>
        rw [followed, standing?, after] at taskStep
        cases taskStep
      | some task' =>
        exact .inr (.inl ⟨_, _, standing?_of_task? after, abandon_over after⟩)
  · rw [(h.apply_taskStep op id).2 mine]
    exact .inl followed

end Steps

end PeerCache.Flight
