import PeerCache.Proofs.Flight.Handover

/-!
# A copy that fails against a computation that fails

Two runs that part at one point only: the computation of a leader comes to a result that cannot be
copied in the one, and fails with a text in the other. `copyFailure_against_failure` compares what
they leave behind. All that tasks and calls are is the same, the followers are released in both; but
the lock is poisoned in the first, and with it goes the handover: the key of the leader stays taken
for good, and whoever looks for a call next fails, under whatever key.
-/

namespace PeerCache.Flight

variable {ν ε : Type} {flight : Flight ν ε} {id leader : TaskId} {key : String}
  {task : Task ν ε} {ops : List (FlightOp ν ε)}

/-! ## The two polls -/

/-- A poll of a leader has nothing to look for: it goes on with the computation. -/
theorem poll_leading (found : flight.task? id = some task) (leads : task.phase = .leading) :
    flight.poll id = (flight.attend id).drive id task := by
  unfold poll
  rw [found]
  simp only [leads, Phase.isLive, if_true, advance]
  rfl

/-- A computation that fails closes the call of its leader, whatever state the lock is in. -/
theorem drive_raises {text : String} (came : task.outcome = some (.raises text)) :
    flight.drive id task =
      { flight := flight.conclude id task.key .closed .ended
        answer := .failed (.raised text) } := by
  unfold drive
  rw [came]
  rfl

/-- On a good lock a result that cannot be copied closes the call just as a failure does, but
poisons the lock before: the key is not unregistered after that. -/
theorem drive_uncopyable {outcome : Outcome ν ε} (came : task.outcome = some outcome)
    (uncopyable : outcome.isCopyable = false) (good : flight.poisoned = false) :
    flight.drive id task =
      { flight := flight.poison.conclude id task.key .closed .ended
        answer := .failed .copyFailed } := by
  have fails : flight.failToPublish id =
      { flight := flight.poison.conclude id task.key .closed .ended
        answer := .failed .copyFailed } := by
    rw [failToPublish_eq task.key, good]
    rfl
  unfold drive
  rw [came]
  cases outcome with
  | uncopyable => exact fails
  | uncopyableErr => exact fails
  | ok => cases uncopyable
  | err => cases uncopyable
  | raises => cases uncopyable

/-- The flight as the poll of a leader finds it that comes to `outcome` just before. -/
def settle (flight : Flight ν ε) (leader : TaskId) (outcome : Outcome ν ε) : Flight ν ε :=
  (flight.resolve leader outcome).attend leader

/-- That its outcome is known is not felt by others before the leader is polled. -/
theorem standing?_settle {outcome : Outcome ν ε} {other : TaskId} :
    (flight.settle leader outcome).standing? other = flight.standing? other :=
  standing?_attend.trans (standing?_update fun _ => ⟨rfl, rfl⟩)

theorem task?_settle_of_ne {outcome : Outcome ν ε} {other : TaskId} (apart : leader ≠ other) :
    (flight.settle leader outcome).task? other = flight.task? other := by
  unfold settle attend resolve
  rw [task?_update, if_neg apart, task?_update, if_neg apart]

/-- A leader that is polled right after its computation came out goes on with just that outcome. -/
theorem poll_resolved (outcome : Outcome ν ε)
    (leads : flight.standing? leader = some (key, .leading)) :
    ∃ task, task.key = key ∧ task.outcome = some outcome ∧
      (flight.resolve leader outcome).poll leader =
        (flight.settle leader outcome).drive leader task := by
  obtain ⟨task, found, rfl, phase⟩ := task?_of_standing? leads
  let resolved : Task ν ε :=
    { task with outcome := some outcome, woken := task.woken || task.phase = .leading }
  have there : (flight.resolve leader outcome).task? leader = some resolved := by
    unfold resolve
    rw [task?_update, if_pos rfl, found]
    rfl
  have same : resolved.phase = .leading := phase
  exact ⟨resolved, rfl, rfl, poll_leading there same⟩

/-- What a leader leaves behind whose computation fails. -/
def leftByFailure (flight : Flight ν ε) (leader : TaskId) (key text : String) : Flight ν ε :=
  (flight.settle leader (.raises text)).conclude leader key .closed .ended

/-- What a leader leaves behind whose result cannot be copied. -/
def leftByCopy (flight : Flight ν ε) (leader : TaskId) (key : String) (outcome : Outcome ν ε) :
    Flight ν ε :=
  (flight.settle leader outcome).poison.conclude leader key .closed .ended

/-- The poll of the run in which the computation fails. -/
theorem poll_resolved_raises {text : String}
    (leads : flight.standing? leader = some (key, .leading)) :
    (flight.resolve leader (.raises text)).poll leader =
      { flight := flight.leftByFailure leader key text, answer := .failed (.raised text) } := by
  obtain ⟨task, rfl, came, polled⟩ := poll_resolved (.raises text) leads
  rw [polled, drive_raises came]
  rfl

/-- The poll of the run in which the result cannot be copied. -/
theorem poll_resolved_uncopyable {outcome : Outcome ν ε}
    (leads : flight.standing? leader = some (key, .leading))
    (uncopyable : outcome.isCopyable = false) (good : flight.poisoned = false) :
    (flight.resolve leader outcome).poll leader =
      { flight := flight.leftByCopy leader key outcome, answer := .failed .copyFailed } := by
  obtain ⟨task, rfl, came, polled⟩ := poll_resolved outcome leads
  have good : (flight.settle leader outcome).poisoned = false := good
  rw [polled, drive_uncopyable came uncopyable good]
  rfl

/-! ## What they have in common -/

variable {text wanted : String} {outcome : Outcome ν ε}

/-- After the failure the leader is over, and everybody else stands where they stood. -/
theorem standing?_leftByFailure (leads : flight.standing? leader = some (key, .leading)) :
    (flight.leftByFailure leader key text).standing? other =
      if leader = other then some (key, .ended) else flight.standing? other := by
  have settled : (flight.settle leader (.raises text)).standing? leader = some (key, .leading) :=
    standing?_settle.trans leads
  rw [leftByFailure, standing?_conclude settled, standing?_settle]

/-- The same after the copy has failed, the key included: it is the registry that remembers the
leader, and not its standing. -/
theorem standing?_leftByCopy (leads : flight.standing? leader = some (key, .leading)) :
    (flight.leftByCopy leader key outcome).standing? other =
      if leader = other then some (key, .ended) else flight.standing? other := by
  have settled : (flight.settle leader outcome).poison.standing? leader = some (key, .leading) :=
    standing?_settle.trans leads
  rw [leftByCopy, standing?_conclude settled, standing?_poison, standing?_settle]

/-- A poisoned lock does not change what becomes of the tasks, and of the leader's own outcome
nobody else takes notice. -/
theorem task?_leftByCopy (apart : leader ≠ other) :
    (flight.leftByCopy leader key outcome).task? other =
      (flight.leftByFailure leader key text).task? other := by
  rw [leftByCopy, leftByFailure, task?_conclude_of_ne apart, task?_conclude_of_ne apart,
    task?_poison, task?_settle_of_ne apart, task?_settle_of_ne apart]
  rfl

/-- All calls come out alike, that of the leader closed in both runs. -/
theorem call?_leftByCopy :
    (flight.leftByCopy leader key outcome).call? other =
      (flight.leftByFailure leader key text).call? other := by
  rw [leftByCopy, leftByFailure, call?_conclude, call?_conclude]
  rfl

/-- The followers of the leader are released in both. -/
theorem signal?_leftByFailure (h : flight.Coherent)
    (leads : flight.standing? leader = some (key, .leading)) :
    (flight.leftByFailure leader key text).signal? leader = some .closed := by
  obtain ⟨-, followers, found⟩ := h.leading leads
  have there : (flight.settle leader (.raises text)).signal? leader = some .pending :=
    signal?_of_call? found
  rw [leftByFailure, signal?_conclude, if_pos rfl, there, Option.map_some]

theorem signal?_leftByCopy :
    (flight.leftByCopy leader key outcome).signal? other =
      (flight.leftByFailure leader key text).signal? other := by
  rw [signal?, signal?, call?_leftByCopy]

/-! ## Where they differ -/

/-- The failure frees the key of the leader. -/
theorem leader?_leftByFailure (good : flight.poisoned = false) :
    (flight.leftByFailure leader key text).leader? wanted =
      if key = wanted then none else flight.leader? wanted := by
  have good : (flight.settle leader (.raises text)).poisoned = false := good
  rw [leftByFailure, leader?_conclude]
  simp only [good, true_and]
  rfl

/-- The copy frees no key, not even that of the leader which is over. -/
theorem leader?_leftByCopy :
    (flight.leftByCopy leader key outcome).leader? wanted = flight.leader? wanted := by
  rw [leftByCopy, leader?_conclude, if_neg (by simp)]
  rfl

/-- The failure of a computation leaves a good lock good. -/
theorem poisoned_leftByFailure (good : flight.poisoned = false) :
    (flight.leftByFailure leader key text).poisoned = false :=
  poisoned_conclude.trans good

theorem poisoned_leftByCopy : (flight.leftByCopy leader key outcome).poisoned = true :=
  poisoned_conclude

/-! ## The comparison -/

/-- Those that a leader has let go of, or that nobody has polled yet, look for a call. -/
theorem exists_seeks (closed : flight.signal? leader = some .closed)
    (waiting : task.phase = .fresh ∨ task.phase = .following leader) :
    ∃ news, Seeks flight task news := by
  rcases waiting with fresh | follows
  · exact ⟨_, .fresh fresh⟩
  · exact ⟨_, .released follows closed⟩

/-- **A copy that fails is not contained.** A leader at work comes to a result that cannot be copied
in one run, and its computation fails in another one that is the same up to there. After its poll:

* all other tasks and all calls are the same in both runs, so the same followers are released;
* in the run that failed the key is free and the lock is good, in the other one the key stays
  registered and the lock is poisoned;
* whoever looks for a call next, under whatever key, leads or joins in the one run and fails in the
  other;
* in the other one neither is mended by anything that follows. -/
theorem copyFailure_against_failure (ops : List (FlightOp ν ε)) {leader : TaskId} {key : String}
    (leads : LiveLeader ops leader key) (good : (({} : Flight ν ε).after ops).poisoned = false)
    {outcome : Outcome ν ε} (uncopyable : outcome.isCopyable = false) (text : String) :
    let start := ({} : Flight ν ε).after ops
    let copied := (start.resolve leader outcome).poll leader
    let raised := (start.resolve leader (.raises text)).poll leader
    (copied.answer = .failed .copyFailed ∧ raised.answer = .failed (.raised text)) ∧
    (∀ id, id ≠ leader → copied.flight.task? id = raised.flight.task? id) ∧
    (∀ id, copied.flight.standing? id = raised.flight.standing? id ∧
      copied.flight.call? id = raised.flight.call? id) ∧
    (raised.flight.leader? key = none ∧
      raised.flight.inFlight = .ok raised.flight.registered) ∧
    (∀ wanted, key ≠ wanted → raised.flight.leader? wanted = start.leader? wanted ∧
      copied.flight.leader? wanted = start.leader? wanted) ∧
    (∀ id task, copied.flight.task? id = some task →
      (task.phase = .fresh ∨ task.phase = .following leader) →
        (raised.flight.poll id).started = (raised.flight.leader? task.key).isNone ∧
        (copied.flight.poll id).started = false ∧
        (copied.flight.poll id).answer = .failed (.poisoned .callMap)) ∧
    ∀ more, (copied.flight.after more).leader? key = some leader ∧
      (copied.flight.after more).inFlight = .error (.poisoned .callMap) := by
  intro start copied raised
  have coherent : start.Coherent := coherent_after ops
  have standing : start.standing? leader = some (key, .leading) := liveLeader_iff.mp leads
  have entry : start.leader? key = some leader := (coherent.leading standing).1
  have copiedCoherent : copied.flight.Coherent := coherent.resolve.poll
  have raisedCoherent : raised.flight.Coherent := coherent.resolve.poll
  have isCopied : copied = _ := poll_resolved_uncopyable standing uncopyable good
  have isRaised : raised = _ := poll_resolved_raises standing
  rw [isCopied] at copiedCoherent ⊢
  rw [isRaised] at raisedCoherent ⊢
  have healthy : (start.leftByFailure leader key text).poisoned = false :=
    poisoned_leftByFailure good
  refine ⟨⟨rfl, rfl⟩, fun id apart => task?_leftByCopy apart.symm, fun id => ⟨?_, call?_leftByCopy⟩,
    ⟨?_, inFlight_of_good healthy⟩, fun wanted apart => ⟨?_, leader?_leftByCopy⟩,
    fun id task found waiting => ?_, fun more => ?_⟩
  · rw [standing?_leftByCopy standing, standing?_leftByFailure standing]
  · rw [leader?_leftByFailure good, if_pos rfl]
  · rw [leader?_leftByFailure good, if_neg apart]
  · -- it is not the leader, who is over, so it is there in both runs and looks for a call in both
    have apart : leader ≠ id := by
      rintro rfl
      have ended : (start.leftByCopy leader key outcome).standing? leader = some (key, .ended) :=
        (standing?_leftByCopy standing).trans (if_pos rfl)
      rw [standing?_of_task? found, Option.some.injEq, Prod.mk.injEq] at ended
      simp [ended.2] at waiting
    have there : (start.leftByFailure leader key text).task? id = some task :=
      (task?_leftByCopy apart).symm.trans found
    have closed : (start.leftByFailure leader key text).signal? leader = some .closed :=
      signal?_leftByFailure coherent standing
    obtain ⟨news, seeks⟩ := exists_seeks (signal?_leftByCopy.trans closed) waiting
    obtain ⟨news', seeks'⟩ := exists_seeks closed waiting
    exact ⟨raisedCoherent.poll_of_seeks healthy there seeks',
      copiedCoherent.poll_of_seeks_poisoned poisoned_leftByCopy found seeks⟩
  · have frozen := copiedCoherent.frozen_after poisoned_leftByCopy more
    exact ⟨(frozen.leaders key).trans (leader?_leftByCopy.trans entry), frozen.inFlight_eq⟩

/-- Task 1 follows task 0, whose result cannot be copied. Had the computation of task 0 failed
instead, task 1 would lead now. -/
theorem copyFailure_against_failure_follower :
    let ops : List (FlightOp Nat Nat) :=
      [.spawn 0 "a" none none, .poll 0, .spawn 1 "a" none none, .poll 1]
    let start := ({} : Flight Nat Nat).after ops
    let copied := (start.resolve 0 (.uncopyable 5)).poll 0
    let raised := (start.resolve 0 (.raises "boom")).poll 0
    LiveLeader ops 0 "a" ∧ copied.flight.task? 1 = raised.flight.task? 1 ∧
      (raised.flight.poll 1).started = true ∧
      (copied.flight.poll 1).answer = .failed (.poisoned .callMap) ∧
      ((copied.flight.after [.poll 1]).leader? "a" = some 0) := by
  intro ops start copied raised
  have leads : LiveLeader ops 0 "a" := liveLeader_iff.mpr rfl
  have uncopyable : (Outcome.uncopyable 5 : Outcome Nat Nat).isCopyable = false := rfl
  obtain ⟨-, same, -, -, -, polls, stuck⟩ :=
    copyFailure_against_failure ops leads rfl uncopyable "boom"
  obtain ⟨started, -, failed⟩ := polls 1 _ rfl (.inr rfl)
  exact ⟨leads, same 1 (by decide), started.trans rfl, failed, (stuck [.poll 1]).1⟩

/-- A call whose result cannot be copied is not unregistered, its follower fails instead of leading,
and so does a newcomer under another key. -/
theorem copyFailure_not_contained :
    let copied := ({} : Flight Nat Nat).after
      [.spawn 0 "a" none none, .poll 0, .spawn 1 "a" none none, .poll 1, .spawn 2 "b" none none,
        .resolve 0 (.uncopyable 5), .poll 0]
    let raised := ({} : Flight Nat Nat).after
      [.spawn 0 "a" none none, .poll 0, .spawn 1 "a" none none, .poll 1, .spawn 2 "b" none none,
        .resolve 0 (.raises "boom"), .poll 0]
    copied.leader? "a" = some 0 ∧
      ((copied.poll 1).started = false ∧
        (copied.poll 1).answer = .failed (.poisoned .callMap)) ∧
      ((raised.poll 2).started = true ∧
        (copied.poll 2).answer = .failed (.poisoned .callMap)) ∧
      raised.inFlight = .ok 0 ∧ copied.inFlight = .error (.poisoned .callMap) :=
  ⟨rfl, ⟨rfl, rfl⟩, ⟨rfl, rfl⟩, rfl, rfl⟩

end PeerCache.Flight
