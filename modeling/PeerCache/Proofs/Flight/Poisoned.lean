import PeerCache.Proofs.Flight.Agreement

/-!
# Fail-stop

A copy that fails while the lock is held leaves the lock poisoned, and nothing heals it. From then
on the registry stands still and no result is put on show: `Frozen` says so of two moments,
`Coherent.frozen_apply` of one step, `frozen_before` of all that follow.

What a poll still answers is settled by where its task stands: `stopped` computes the answer from
the task and the signal of the call it follows, and `Turn.stopped` is the proof. `Stopped` tells the
same story in terms of the history, and `fail_stop` puts the two together.
-/

namespace PeerCache.Flight

variable {ν ε : Type} {flight flight' : Flight ν ε} {id other leader : TaskId} {key : String}
  {task : Task ν ε} {answer : Poll ν ε} {polled : Polled ν ε} {ops : List (FlightOp ν ε)}
  {n m : Nat}

/-- On a good lock the question how many calls are in flight has an answer. -/
theorem inFlight_of_good (good : flight.poisoned = false) :
    flight.inFlight = .ok flight.registered := by
  rw [inFlight, good]
  rfl

/-! ## Nothing moves any more -/

/-- Between two moments of a flight whose lock is poisoned nothing was registered, unregistered or
published. -/
structure Frozen (flight flight' : Flight ν ε) : Prop where
  poisoned : flight'.poisoned = true
  leaders : ∀ key, flight'.leader? key = flight.leader? key
  published : ∀ {leader : TaskId} {result : Except ε ν},
    flight'.signal? leader = some (.published result) →
      flight.signal? leader = some (.published result)

theorem Frozen.refl (bad : flight.poisoned = true) : Frozen flight flight :=
  ⟨bad, fun _ => rfl, fun shown => shown⟩

/-- What is not there after two stretches was not there after the first. -/
theorem Frozen.trans {mid : Flight ν ε} (one : Frozen flight mid) (two : Frozen mid flight') :
    Frozen flight flight' :=
  ⟨two.poisoned, fun key => (two.leaders key).trans (one.leaders key),
    fun shown => one.published (two.published shown)⟩

/-- The count is refused from now on, though the registry could still be counted. -/
theorem Frozen.inFlight_eq (frozen : Frozen flight flight') :
    flight'.inFlight = .error (.poisoned .callMap) := by
  simp [inFlight, frozen.poisoned]

/-- A leader that goes without publishing is not even taken out of the registry. -/
theorem frozen_conclude {phase : Phase} (bad : flight.poisoned = true) :
    Frozen flight (flight.conclude id key .closed phase) := by
  refine ⟨by simpa using bad, fun wanted => ?_, fun {other result} shown => ?_⟩
  · simp [leader?_conclude, bad]
  · rw [signal?_conclude] at shown
    split at shown
    · obtain ⟨_, _, impossible⟩ := Option.map_eq_some_iff.mp shown
      cases impossible
    · exact shown

/-- On a poisoned lock a leader can only go unpublished. The two ways to publish or to fail to copy
need a good lock. -/
theorem Driven.frozen (driven : Driven flight id task flight' answer)
    (bad : flight.poisoned = true) : Frozen flight flight' := by
  cases driven with
  | computing => exact .refl bad
  | raises => exact frozen_conclude bad
  | refused => exact frozen_conclude bad
  | publishes _ _ _ good => simp [bad] at good
  | failsToCopy _ _ good => simp [bad] at good

/-- A turn on a poisoned lock starts nothing: to start is to register, and for that the lock has to
be good. -/
theorem Turn.frozen (turn : Turn flight id task polled) (bad : flight.poisoned = true) :
    Frozen flight polled.flight ∧ polled.started = false := by
  cases turn with
  | waits => exact ⟨.refl bad, rfl⟩
  | receives => exact ⟨⟨bad, fun _ => rfl, fun shown => shown⟩, rfl⟩
  | refused => exact ⟨⟨bad, fun _ => rfl, fun shown => shown⟩, rfl⟩
  | drives _ driven => exact ⟨driven.frozen bad, rfl⟩
  | joins _ good => simp [bad] at good
  | failsToStart _ good => simp [bad] at good
  | leads _ good => simp [bad] at good

/-- **A step on a poisoned lock freezes the registry and starts nothing.** -/
theorem Coherent.frozen_apply (h : flight.Coherent) (bad : flight.poisoned = true)
    (op : FlightOp ν ε) :
    Frozen flight (flight.apply op).flight ∧ (flight.apply op).started = [] := by
  cases op with
  | spawn id key outcome startFault =>
    have spawned : Frozen flight (flight.spawn id key outcome startFault) :=
      ⟨by simpa using bad, by simp, by simp⟩
    exact ⟨spawned, rfl⟩
  | resolve id outcome => exact ⟨⟨bad, fun _ => rfl, fun shown => shown⟩, rfl⟩
  | poll id =>
    show Frozen flight (flight.poll id).flight ∧
      (if (flight.poll id).started then [id] else []) = []
    obtain ⟨task, found, live⟩ | finished := live_or_gone flight id
    · have attended : Frozen flight (flight.attend id) :=
        ⟨bad, fun _ => rfl, fun shown => shown⟩
      have turned := (poll_turn h found live).frozen bad
      simp [turned.2, attended.trans turned.1]
    · simp [poll_gone finished, Frozen.refl bad]
  | abandon id =>
    show Frozen flight (flight.abandon id).1 ∧ _
    refine ⟨?_, rfl⟩
    obtain ⟨task, found, live⟩ | finished := live_or_gone flight id
    · by_cases leads : task.phase = .leading
      · rw [abandon_leading found leads]
        exact frozen_conclude bad
      · rw [abandon_idle found live leads]
        exact ⟨bad, fun _ => rfl, fun shown => shown⟩
    · rw [abandon_gone finished]
      exact .refl bad

/-- Once poisoned, a history stands still from there to every later moment. -/
theorem frozen_before (bad : (before ops n).poisoned = true) (le : n ≤ m) :
    Frozen (before ops n) (before ops m) :=
  keeps_before (P := Frozen (before ops n))
    (fun _ op h frozen => frozen.trans (h.frozen_apply frozen.poisoned op).1) le (.refl bad)

/-- The same from a flight that is poisoned, over any operations that follow. -/
theorem Coherent.frozen_after (h : flight.Coherent) (bad : flight.poisoned = true)
    (ops : List (FlightOp ν ε)) : Frozen flight (flight.after ops) := by
  induction ops generalizing flight with
  | nil => exact .refl bad
  | cons op ops ih =>
    have step := (h.frozen_apply bad op).1
    exact step.trans (ih (h.apply op) step.poisoned)

/-! ## What a poll answers -/

/-- The answer to a poll of a task on a poisoned lock. -/
def stopped (flight : Flight ν ε) (task : Task ν ε) : Poll ν ε :=
  match task.phase with
  | .fresh => .failed (.poisoned .callMap)
  | .following leader =>
    match flight.signal? leader with
    | some .pending => .pending
    | some (.published result) => .returned result
    | some .closed | none => .failed (.poisoned .callMap)
  | .leading =>
    match task.outcome with
    | none => .pending
    | some (.raises text) => .failed (.raised text)
    | some _ => .failed (.poisoned .callMap)
  | .ended | .dropped => .gone

/-- Who looks for a call on a poisoned lock finds out that it is. -/
theorem Seeks.stopped {news : List Log.Event} (seeks : Seeks flight task news) :
    flight.stopped task = .failed (.poisoned .callMap) := by
  cases seeks with
  | fresh phase => simp [Flight.stopped, phase]
  | released phase closed => simp [Flight.stopped, phase, closed]

/-- The answer of a leader on a poisoned lock is that of `stopped`. A result gets lost; a failure of
the computation is reported as ever, since it needs no lock. -/
theorem Driven.stopped (driven : Driven flight id task flight' answer)
    (bad : flight.poisoned = true) (leads : task.phase = .leading) :
    answer = flight.stopped task := by
  cases driven with
  | computing none_ => simp [Flight.stopped, leads, none_]
  | raises came => simp [Flight.stopped, leads, came]
  | @refused outcome result came is =>
    -- it came to a result, so it did not raise anything
    cases outcome <;> simp_all [Flight.stopped, Outcome.result?]
  | publishes _ _ _ good => simp [bad] at good
  | failsToCopy _ _ good => simp [bad] at good

/-- On a poisoned lock each way a turn can go has the answer that `stopped` computes from where the
task stands. -/
theorem Turn.stopped (turn : Turn flight id task polled) (bad : flight.poisoned = true) :
    polled.answer = flight.stopped task := by
  cases turn with
  | waits phase pending => simp [Flight.stopped, phase, pending]
  | receives phase published => simp [Flight.stopped, phase, published]
  | refused seeks => exact seeks.stopped.symm
  | drives phase driven => exact driven.stopped bad phase
  | joins _ good => simp [bad] at good
  | failsToStart _ good => simp [bad] at good
  | leads _ good => simp [bad] at good

/-- Whoever looks for a call on a poisoned lock fails. -/
theorem Coherent.poll_of_seeks_poisoned {news : List Log.Event} (h : flight.Coherent)
    (bad : flight.poisoned = true) (found : flight.task? id = some task)
    (seeks : Seeks flight task news) :
    (flight.poll id).started = false ∧ (flight.poll id).answer = .failed (.poisoned .callMap) := by
  have turn := poll_turn h found seeks.live.1
  exact ⟨(turn.frozen bad).2, (turn.stopped bad).trans seeks.stopped⟩

/-! ## The copy that fails -/

/-- A copy can only fail while the lock is good, and it leaves the leader registered: nothing takes
a key off the registry of a poisoned lock. -/
theorem Driven.copyFailed (driven : Driven flight id task flight' answer) (h : flight.Coherent)
    (standing : flight.standing? id = some (task.key, .leading))
    (fails : answer = .failed .copyFailed) :
    flight.poisoned = false ∧ flight'.poisoned = true ∧ flight'.leader? task.key = some id := by
  cases driven with
  | computing => cases fails
  | publishes => cases fails
  | raises => cases fails
  | refused => cases fails
  | failsToCopy _ _ good =>
    refine ⟨good, by simp, ?_⟩
    rw [leader?_conclude, poisoned_poison, if_neg (by simp), leader?_poison]
    exact (h.leading standing).1

/-- A poll whose copy fails poisons a good lock and leaves the entry of the task behind. -/
theorem Turn.copyFailed (turn : Turn flight id task polled) (h : flight.Coherent)
    (standing : flight.standing? id = some (task.key, task.phase))
    (fails : polled.answer = .failed .copyFailed) :
    flight.poisoned = false ∧ polled.flight.poisoned = true ∧
      polled.flight.leader? task.key = some id := by
  cases turn with
  | waits => cases fails
  | receives => cases fails
  | refused => cases fails
  | joins => cases fails
  | failsToStart => cases fails
  | leads seeks _ free _ driven =>
    have coherent := h.register standing seeks.live.1 seeks.live.2 free
    exact driven.copyFailed coherent (standing?_register_self standing) fails
  | drives phase driven => exact driven.copyFailed h (phase ▸ standing) fails

/-- At step `n` the poll of a leader fails because its result cannot be copied. -/
def CopyFailsAt (ops : List (FlightOp ν ε)) (n : Nat) (leader : TaskId) : Prop :=
  FailsAt ops n leader .copyFailed

/-- The step at which a copy fails is the one that poisons the lock, and the entry it leaves behind
is that of the task whose copy it was. -/
theorem CopyFailsAt.poisons (fails : CopyFailsAt ops n leader) :
    (before ops n).poisoned = false ∧ (before ops (n + 1)).poisoned = true ∧
      ∃ task, (before ops n).task? leader = some task ∧
        (before ops (n + 1)).leader? task.key = some leader := by
  have failed := fails.poll
  rw [before_succ fails.1]
  have coherent := coherent_before ops n
  obtain ⟨task, held, live⟩ | finished := live_or_gone (before ops n) leader
  · have turned := (poll_turn coherent held live).copyFailed coherent.attend
      (standing?_attend_of_task? held) failed
    exact ⟨turned.1, turned.2.1, task, held, turned.2.2⟩
  · rw [poll_gone finished] at failed
    cases failed

/-- Only a copy that fails poisons the lock. -/
theorem Driven.poisoned_eq (driven : Driven flight id task flight' answer)
    (copied : answer ≠ .failed .copyFailed) : flight'.poisoned = flight.poisoned := by
  cases driven with
  | computing => rfl
  | publishes => exact poisoned_conclude
  | raises => exact poisoned_conclude
  | refused => exact poisoned_conclude
  | failsToCopy => exact absurd rfl copied

/-- A turn leaves the lock as it found it, unless its answer is a failed copy. -/
theorem Turn.poisoned_eq (turn : Turn flight id task polled)
    (copied : polled.answer ≠ .failed .copyFailed) :
    polled.flight.poisoned = flight.poisoned := by
  cases turn with
  | waits => rfl
  | receives => rfl
  | refused => rfl
  | joins => rfl
  | failsToStart => exact poisoned_conclude
  | leads _ _ _ _ driven => exact driven.poisoned_eq copied
  | drives _ driven => exact driven.poisoned_eq copied

/-- A step leaves the lock as it found it, unless it is a poll that answers with a failed copy. In
particular a leader that is dropped cannot poison it. -/
theorem Coherent.poisoned_apply (h : flight.Coherent) (op : FlightOp ν ε)
    (copied : (flight.apply op).answer ≠ .polled (.failed .copyFailed)) :
    (flight.apply op).flight.poisoned = flight.poisoned := by
  cases op with
  | spawn => exact poisoned_spawn
  | resolve => rfl
  | poll id =>
    show (flight.poll id).flight.poisoned = flight.poisoned
    obtain ⟨task, found, live⟩ | finished := live_or_gone flight id
    · exact (poll_turn h found live).poisoned_eq fun fails =>
        copied (congrArg FlightAnswer.polled fails)
    · rw [poll_gone finished]
  | abandon id =>
    show (flight.abandon id).1.poisoned = flight.poisoned
    obtain ⟨task, found, live⟩ | finished := live_or_gone flight id
    · by_cases leads : task.phase = .leading
      · rw [abandon_leading found leads, poisoned_conclude]
      · rw [abandon_idle found live leads, poisoned_setPhase]
    · rw [abandon_gone finished]

/-- Where no copy fails no step answers that one has failed. -/
theorem answer_ne_copyFailed (copied : ∀ n id, ¬ CopyFailsAt ops n id) {op : FlightOp ν ε}
    (found : ops[n]? = some op) :
    ((before ops n).apply op).answer ≠ .polled (.failed .copyFailed) := by
  intro fails
  cases op with
  | poll id => exact copied n id ⟨found, _, stepAt_eq found, fails⟩
  | spawn => cases fails
  | resolve => cases fails
  | abandon => cases fails

/-- Where no copy fails the lock stays good. -/
theorem good_before (copied : ∀ n id, ¬ CopyFailsAt ops n id) (n : Nat) :
    (before ops n).poisoned = false := by
  induction n with
  | zero => rfl
  | succ n ih =>
    cases found : ops[n]? with
    | none => rw [before_succ_of_none found, ih]
    | some op =>
      rw [before_succ found, ← ih]
      exact (coherent_before ops n).poisoned_apply op (answer_ne_copyFailed copied found)

/-! ## Tasks that were never polled -/

/-- A result that is on show once the lock is poisoned was published before. -/
theorem CopyFailsAt.published_before {result : Except ε ν} (fails : CopyFailsAt ops n leader)
    (lt : n < m) (shown : (before ops m).signal? other = some (.published result)) :
    ∃ p < n, PublishesAt ops p other result := by
  have frozen := frozen_before fails.poisons.2.1 lt
  obtain ⟨p, le, publishes⟩ := exists_publishesAt (frozen.published shown)
  refine ⟨p, Nat.lt_of_le_of_ne (Nat.le_of_lt_succ le) ?_, publishes⟩
  -- step `n` itself fails, so it does not return anything
  rintro rfl
  obtain ⟨-, step, there, failed⟩ := fails
  obtain ⟨⟨-, _, there', returned⟩, -⟩ := publishes
  obtain rfl := Option.some.inj (there.symm.trans there')
  cases failed.symm.trans returned

/-- After a failed copy no step publishes. -/
theorem CopyFailsAt.not_publishesAt {result : Except ε ν} (fails : CopyFailsAt ops n leader)
    (lt : n < m) : ¬ PublishesAt ops m id result := by
  intro publishes
  have shown := publishes.shown (show m < m + 1 by omega)
  obtain ⟨p, before_, earlier⟩ := fails.published_before (show n < m + 1 by omega) shown
  -- its leader has returned then, and is over
  have ended := isOver_before_mono (show p + 1 ≤ m by omega) earlier.1.isOver
  exact publishes.1.not_over ended

end PeerCache.Flight
