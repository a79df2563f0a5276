import PeerCache.Proofs.Flight.Course

/-!
# Nobody waits in vain

A live task that is not awake waits for something that can still come: as a leader for its own
outcome, as a follower for a call that is open and has a leader at work (`attended_after`). It holds
of every history, those that poison the lock included, for a leader wakes its followers however it
goes.

The step is proved from both sides. `Turn.self_waits` is about the task that is polled: what it
comes to rest on is there. `Bystander` is about all others: whatever a step takes away from them, it
wakes them for it.
-/

namespace PeerCache.Flight

variable {ν ε : Type} {flight flight' : Flight ν ε} {id other leader : TaskId} {key : String}
  {task : Task ν ε} {ops : List (FlightOp ν ε)}

/-- What a task can wait for: its own outcome if it leads, an open call if it follows. -/
def Waits (flight : Flight ν ε) (task : Task ν ε) : Prop :=
  (task.phase = .leading ∧ task.outcome = none) ∨
    ∃ leader, task.phase = .following leader ∧ flight.signal? leader = some .pending

/-- Every live task that is not awake has something to wait for. -/
def Attended (flight : Flight ν ε) : Prop :=
  ∀ {id : TaskId} {task : Task ν ε}, flight.task? id = some task → task.phase.isLive →
    task.woken = false → flight.Waits task

/-! ## Those whose turn it is not -/

/-- A change that is none of this task's business: it stays as it was, but may be woken, and must be
if the open call that it follows is open no more. -/
def Bystander (other : TaskId) (flight flight' : Flight ν ε) : Prop :=
  ∀ task', flight'.task? other = some task' → ∃ task, flight.task? other = some task ∧
    task'.phase = task.phase ∧ task'.outcome = task.outcome ∧
    (task'.woken = false → task.woken = false ∧ ∀ leader, task.phase = .following leader →
      flight.signal? leader = some .pending → flight'.signal? leader = some .pending)

namespace Bystander

/-- Two changes that are none of a task's business are none of it together. If it is asleep after
the second it was so in between, and what it follows has stayed open both times. -/
theorem trans {mid : Flight ν ε} (one : Bystander other flight mid)
    (two : Bystander other mid flight') : Bystander other flight flight' := by
  intro task' found'
  obtain ⟨between, foundMid, phase₂, outcome₂, asleep₂⟩ := two task' found'
  obtain ⟨task, found, phase₁, outcome₁, asleep₁⟩ := one between foundMid
  refine ⟨task, found, phase₂.trans phase₁, outcome₂.trans outcome₁, fun asleep => ?_⟩
  obtain ⟨asleepMid, keeps₂⟩ := asleep₂ asleep
  obtain ⟨asleepFirst, keeps₁⟩ := asleep₁ asleepMid
  exact ⟨asleepFirst, fun leader follows pending =>
    keeps₂ leader (phase₁.trans follows) (keeps₁ leader follows pending)⟩

/-- A change that leaves the task alone and no open call without its signal. -/
theorem of_same (same : flight'.task? other = flight.task? other)
    (open_ : ∀ leader, flight.signal? leader = some .pending →
      flight'.signal? leader = some .pending) : Bystander other flight flight' :=
  fun task' found' => ⟨task', same ▸ found', rfl, rfl, fun asleep =>
    ⟨asleep, fun leader _ pending => open_ leader pending⟩⟩

theorem refl (other : TaskId) (flight : Flight ν ε) : Bystander other flight flight :=
  of_same rfl fun _ pending => pending

/-- To change another task is none of this task's business. -/
theorem update {change : Task ν ε → Task ν ε} (apart : id ≠ other) :
    Bystander other flight (flight.update id change) :=
  of_same (by rw [task?_update, if_neg apart]) fun _ pending => pending

theorem setPhase {phase : Phase} (apart : id ≠ other) :
    Bystander other flight (flight.setPhase id phase) :=
  update apart

/-- That the lock is poisoned concerns nobody who waits: neither an outcome nor a signal depends on
it. -/
theorem poison : Bystander other flight flight.poison :=
  of_same rfl fun _ pending => pending

/-- A new call is nobody else's business. Should the leader have had a call before, the new one is
open too. -/
theorem register (apart : id ≠ other) :
    Bystander other flight (flight.register id key) := by
  refine of_same (by rw [task?_register, if_neg apart]) fun leader pending => ?_
  rw [signal?_register]
  split
  · rfl
  · exact pending

/-- That another task joins a call is not felt by those who follow it. -/
theorem join (apart : id ≠ other) : Bystander other flight (flight.join id leader) :=
  of_same (by rw [task?_join, if_neg apart]) fun head pending => signal?_join.trans pending

/-- A leader that goes wakes those that follow its call. -/
theorem conclude {signal : Signal ν ε} {phase : Phase} (h : flight.Coherent) (apart : id ≠ other) :
    Bystander other flight (flight.conclude id key signal phase) := by
  intro task' found'
  rw [task?_conclude_of_ne apart] at found'
  obtain ⟨task, found, rfl⟩ := Option.map_eq_some_iff.mp found'
  refine ⟨task, found, ?_, ?_, fun asleep => ?_⟩
  · split <;> rfl
  · split <;> rfl
  · -- still asleep, so it was not woken, so it is none of the followers that the leader leaves
    have unjoined : other ∉ flight.followers id := by
      intro joined
      rw [if_pos joined] at asleep
      cases asleep
    rw [if_neg unjoined] at asleep
    refine ⟨asleep, fun leader follows pending => ?_⟩
    have apart' : id ≠ leader := by
      rintro rfl
      have standing := standing?_of_task? found
      rw [follows] at standing
      obtain ⟨call, there, -, joined⟩ := h.following standing
      rw [signal?_of_call? there, Option.some.injEq] at pending
      exact unjoined (followers_of_call? there ▸ joined pending)
    rw [signal?_conclude, if_neg apart']
    exact pending

end Bystander

/-- However the computation of a leader goes on, the others are bystanders. A copy that fails is two
changes of this kind, to poison the lock and to conclude. -/
theorem Driven.bystander {answer : Poll ν ε} (driven : Driven flight id task flight' answer)
    (h : flight.Coherent) (apart : id ≠ other) : Bystander other flight flight' := by
  cases driven with
  | computing => exact .refl other flight
  | publishes => exact .conclude h apart
  | raises => exact .conclude h apart
  | refused => exact .conclude h apart
  | failsToCopy => exact Bystander.poison.trans (.conclude h.poison apart)

/-- Whatever a task does in its turn, every other one is a bystander. Where it takes two changes to
lead and to go at once, the second is made to a flight that is coherent again. -/
theorem Turn.bystander {polled : Polled ν ε} (turn : Turn flight id task polled)
    (h : flight.Coherent) (standing : flight.standing? id = some (task.key, task.phase))
    (apart : id ≠ other) : Bystander other flight polled.flight := by
  have registers : Bystander other flight (flight.register id task.key) := .register apart
  cases turn with
  | waits => exact .refl other flight
  | receives => exact .setPhase apart
  | refused => exact .setPhase apart
  | joins => exact .join apart
  | failsToStart seeks _ free =>
    have coherent := h.register standing seeks.live.1 seeks.live.2 free
    exact registers.trans (.conclude coherent apart)
  | leads seeks _ free _ driven =>
    have coherent := h.register standing seeks.live.1 seeks.live.2 free
    exact registers.trans (driven.bystander coherent apart)
  | drives _ driven => exact driven.bystander h apart

/-! ## The one whose turn it is -/

/-- Who stands as ended is not live. -/
theorem not_live_of_ended {key : String} {task' : Task ν ε}
    (standing : flight.standing? id = some (key, .ended)) (found : flight.task? id = some task') :
    task'.phase.isLive = false := by
  rw [standing?_of_task? found, Option.some.injEq, Prod.mk.injEq] at standing
  rw [standing.2]
  rfl

/-- A leader that is still live after its poll has no outcome yet. -/
theorem Driven.self_waits {answer : Poll ν ε} {task' : Task ν ε}
    (driven : Driven flight id task flight' answer)
    (standing : flight.standing? id = some (task.key, .leading))
    (outcome : flight.outcome? id = task.outcome) (found : flight'.task? id = some task')
    (live : task'.phase.isLive) : flight'.Waits task' := by
  -- every way to go on but one concludes the call
  have finished : ∀ {before : Flight ν ε} {signal : Signal ν ε},
      before.standing? id = some (task.key, .leading) →
      (before.conclude id task.key signal .ended).task? id = some task' → False := by
    intro before signal leads there
    have gone := not_live_of_ended (standing?_conclude_self leads) there
    rw [gone] at live
    cases live
  cases driven with
  | computing none_ =>
    rw [standing?_of_task? found, Option.some.injEq, Prod.mk.injEq] at standing
    rw [outcome?_of_task? found, none_] at outcome
    exact .inl ⟨standing.2, outcome⟩
  | publishes => exact (finished standing found).elim
  | raises => exact (finished standing found).elim
  | refused => exact (finished standing found).elim
  | failsToCopy =>
    have poisoned : flight.poison.standing? id = some (task.key, .leading) := standing
    exact (finished poisoned found).elim

/-- A task that is still live after its poll has come to rest on something that can come. -/
theorem Turn.self_waits {polled : Polled ν ε} {task' : Task ν ε}
    (turn : Turn flight id task polled) (h : flight.Coherent)
    (standing : flight.standing? id = some (task.key, task.phase))
    (outcome : flight.outcome? id = task.outcome) (found : polled.flight.task? id = some task')
    (live : task'.phase.isLive) : polled.flight.Waits task' := by
  have registered := standing?_register_self standing
  have finished : ∀ {after : Flight ν ε}, after.standing? id = some (task.key, .ended) →
      after.task? id = some task' → False := by
    intro after ended there
    rw [not_live_of_ended ended there] at live
    cases live
  cases turn with
  | waits phase pending =>
    rw [standing?_of_task? found, Option.some.injEq, Prod.mk.injEq] at standing
    exact .inr ⟨_, standing.2.trans phase, pending⟩
  | receives => exact (finished (standing?_setPhase_self standing) found).elim
  | refused => exact (finished (standing?_setPhase_self standing) found).elim
  | @joins _ leader _ good taken =>
    -- the call it has found in the registry is open
    have joined : (flight.join id leader).standing? id = some (task.key, .following leader) :=
      standing?_join_self standing
    rw [standing?_of_task? found, Option.some.injEq, Prod.mk.injEq] at joined
    exact .inr ⟨leader, joined.2, signal?_join.trans (h.signal?_of_registered good taken)⟩
  | failsToStart =>
    exact (finished (standing?_conclude_self registered) found).elim
  | leads _ _ _ _ driven =>
    exact driven.self_waits registered (outcome?_register.trans outcome) found live
  | drives phase driven => exact driven.self_waits (phase ▸ standing) outcome found live

/-! ## Every step -/

/-- A bystander that is asleep after a change was so before, and what it waited for then can still
come. -/
theorem Attended.of_bystander (attended : flight.Attended)
    (bystander : Bystander other flight flight') {task' : Task ν ε}
    (found' : flight'.task? other = some task') (live : task'.phase.isLive)
    (asleep' : task'.woken = false) : flight'.Waits task' := by
  obtain ⟨task, found, phase, outcome, keeps⟩ := bystander task' found'
  obtain ⟨asleep, open_⟩ := keeps asleep'
  rcases attended found (phase ▸ live) asleep with ⟨leads, none_⟩ | ⟨leader, follows, pending⟩
  · exact .inl ⟨phase.trans leads, outcome.trans none_⟩
  · exact .inr ⟨leader, phase.trans follows, open_ leader follows pending⟩

/-- A new task is awake, so it need not wait for anything, and it changes nothing for the others. -/
theorem Attended.spawn {outcome : Option (Outcome ν ε)} {startFault : Option String}
    (attended : flight.Attended) : (flight.spawn id key outcome startFault).Attended := by
  intro other task' found' live asleep
  by_cases new : id = other ∧ flight.task? id = none
  · -- a new task is awake
    rw [task?_spawn, if_pos new] at found'
    rw [← Option.some.inj found'] at asleep
    cases asleep
  · have bystander : Bystander other flight (flight.spawn id key outcome startFault) :=
      .of_same (by rw [task?_spawn, if_neg new]) fun leader pending =>
        signal?_spawn.trans pending
    exact attended.of_bystander bystander found' live asleep

/-- To give a task its outcome wakes it if it leads, so that no leader sleeps on an outcome that is
there. A follower does not wait for its own outcome, and may sleep on. -/
theorem Attended.resolve {outcome : Outcome ν ε} (attended : flight.Attended) :
    (flight.resolve id outcome).Attended := by
  intro other task' found' live asleep
  by_cases apart : id = other
  · unfold Flight.resolve at found'
    rw [task?_update, if_pos apart] at found'
    obtain ⟨task, found, rfl⟩ := Option.map_eq_some_iff.mp found'
    -- a leader would have been woken, so it is a follower that has not been
    obtain ⟨asleep, idle⟩ := Bool.or_eq_false_iff.mp asleep
    rcases attended found live asleep with ⟨leads, -⟩ | waits
    · exact absurd leads (of_decide_eq_false idle)
    · exact .inr waits
  · exact attended.of_bystander (.update apart) found' live asleep

/-- A poll strands neither the task that is polled nor any other: the first has come to rest on
something that can come, the others are bystanders. -/
theorem Attended.poll (attended : flight.Attended) (h : flight.Coherent) :
    (flight.poll id).flight.Attended := by
  intro other task' found' live asleep
  obtain ⟨task, found, liveNow⟩ | finished := live_or_gone flight id
  · have turn := poll_turn h found liveNow
    have standing := standing?_attend_of_task? found
    by_cases apart : id = other
    · -- the task that has been polled, awake or not
      subst apart
      have outcome : (flight.attend id).outcome? id = task.outcome := by
        rw [outcome?_attend, outcome?_of_task? found]
      exact turn.self_waits h.attend standing outcome found' live
    · -- a task that was asleep already, and has not been woken by this
      have first : Bystander other flight (flight.attend id) := .update apart
      exact attended.of_bystander (first.trans (turn.bystander h.attend standing apart)) found' live
        asleep
  · rw [poll_gone finished] at found' ⊢
    exact attended found' live asleep

/-- A task that is dropped waits no more, and its followers are woken if it led. -/
theorem Attended.abandon (attended : flight.Attended) (h : flight.Coherent) :
    (flight.abandon id).1.Attended := by
  intro other task' found' live asleep
  obtain ⟨task, found, liveNow⟩ | finished := live_or_gone flight id
  · by_cases apart : id = other
    · -- whoever is dropped waits for nothing
      rw [← apart] at found'
      rw [abandon_over found'] at live
      cases live
    · by_cases leads : task.phase = .leading
      · rw [abandon_leading found leads] at found' ⊢
        exact attended.of_bystander (.conclude h apart) found' live asleep
      · rw [abandon_idle found liveNow leads] at found' ⊢
        exact attended.of_bystander (.setPhase apart) found' live asleep
  · rw [abandon_gone finished] at found' ⊢
    exact attended found' live asleep

/-- **No step strands a task.** -/
theorem Attended.apply (attended : flight.Attended) (h : flight.Coherent) (op : FlightOp ν ε) :
    (flight.apply op).flight.Attended := by
  cases op with
  | spawn id key outcome startFault => exact attended.spawn
  | poll id => exact attended.poll h
  | resolve id outcome => exact attended.resolve
  | abandon id => exact attended.abandon h

/-- **Every live task that is asleep has something to wait for, after every history.** -/
theorem attended_after (ops : List (FlightOp ν ε)) : (({} : Flight ν ε).after ops).Attended := by
  induction ops using List.reverseRecOn with
  | nil =>
    intro id task found
    rw [after_nil, task?] at found
    simp at found
  | append_singleton ops op ih =>
    rw [after_append]
    exact Attended.apply ih (coherent_after ops) op

/-! ## No stranded waiter -/

/-- The task follows a call of its own key that is unpublished and open, and whose leader is at
work. -/
def FollowsLiveCall (ops : List (FlightOp ν ε)) (task : Task ν ε) : Prop :=
  ∃ leader call, task.phase = .following leader ∧
    (({} : Flight ν ε).after ops).call? leader = some call ∧ call.key = task.key ∧
    call.signal = .pending ∧ LiveLeader ops leader task.key

/-- **No stranded waiter.** After every history, whether or not it has poisoned the lock:

* a task that is neither over nor awake (so it has been polled) is a leader whose computation has no
  outcome, or follows a live call of its own key;
* a step by which a leader ends, in whatever way, leaves all followers of its call awake. -/
theorem no_stranded_waiter (ops : List (FlightOp ν ε)) :
    (∀ id task, (({} : Flight ν ε).after ops).task? id = some task → task.phase.isLive = true →
      (({} : Flight ν ε).after ops).isAwake id = false →
        (LiveLeader ops id task.key ∧ task.outcome = none) ∨ FollowsLiveCall ops task) ∧
    (∀ op leader held, LiveLeader ops leader held → ¬ LiveLeader (ops ++ [op]) leader held →
      ∀ id task, (({} : Flight ν ε).after ops).task? id = some task →
        task.phase = .following leader →
          (({} : Flight ν ε).after (ops ++ [op])).isAwake id = true) := by
  constructor
  · intro id task found live asleep
    have coherent := coherent_after ops
    have standing := standing?_of_task? found
    rw [isAwake, found, Option.any_some, Task.isAwake, live, Bool.and_true] at asleep
    rcases attended_after ops found live asleep with ⟨leads, none_⟩ | ⟨leader, follows, pending⟩
    · exact .inl ⟨liveLeader_iff.mpr (leads ▸ standing), none_⟩
    · obtain ⟨call, there, same, -⟩ := coherent.following (follows ▸ standing)
      rw [signal?_of_call? there, Option.some.injEq] at pending
      have leads := coherent.openCall there pending
      exact .inr ⟨leader, call, follows, there, same, pending, liveLeader_iff.mpr (same ▸ leads)⟩
  · intro op leader held leads ended id task found follows
    rw [liveLeader_iff] at leads ended
    have untouched := fun id => ((coherent_after ops).apply_taskStep op id).2
    have next : ({} : Flight ν ε).after (ops ++ [op]) =
        ((({} : Flight ν ε).after ops).apply op).flight := by
      rw [after_append]
      rfl
    rw [← next] at untouched
    have mine : op.subject = leader := by
      by_contra other
      exact ended ((untouched leader other).trans leads)
    have standing := standing?_of_task? found
    have apart : op.subject ≠ id := by
      rintro same
      rw [← same, mine, leads, Option.some.injEq, Prod.mk.injEq, follows] at standing
      cases standing.2
    obtain ⟨task', found', key', phase'⟩ := task?_of_standing? ((untouched id apart).trans standing)
    rw [follows] at phase'
    have live : task'.phase.isLive = true := by
      rw [phase']
      rfl
    rw [isAwake, found', Option.any_some, Task.isAwake, live, Bool.and_true]
    -- were it asleep, the call would be open still, and so its leader at work
    by_contra asleep
    rw [Bool.not_eq_true] at asleep
    rcases attended_after _ found' live asleep with ⟨leads', -⟩ | ⟨head, follows', pending⟩
    · cases phase'.symm.trans leads'
    · obtain rfl : leader = head := Phase.following.inj (phase'.symm.trans follows')
      have standing' := standing?_of_task? found'
      rw [phase'] at standing'
      obtain ⟨call, there, -⟩ := (coherent_after _).following standing'
      rw [signal?_of_call? there, Option.some.injEq] at pending
      have still := (coherent_after _).openCall there pending
      have taskStep := ((coherent_after ops).apply_taskStep op leader).1
      rw [← next, leads, still] at taskStep
      exact ended (taskStep.key_eq ▸ still)

/-- A leader whose result cannot be copied poisons the lock, and wakes its follower. -/
theorem no_stranded_waiter_on_poison :
    let ops : List (FlightOp Nat Nat) :=
      [.spawn 0 "a" none none, .poll 0, .spawn 1 "a" none none, .poll 1, .resolve 0 (.uncopyable 5)]
    (({} : Flight Nat Nat).after ops).isAwake 1 = false ∧
      (({} : Flight Nat Nat).after (ops ++ [.poll 0])).poisoned = true ∧
      (({} : Flight Nat Nat).after (ops ++ [.poll 0])).isAwake 1 = true := by
  intro ops
  have leads : LiveLeader ops 0 "a" := liveLeader_iff.mpr rfl
  have ended : ¬ LiveLeader (ops ++ [.poll 0]) 0 "a" := fun leads => nomatch liveLeader_iff.mp leads
  exact ⟨rfl, rfl, (no_stranded_waiter ops).2 (.poll 0) 0 "a" leads ended 1 _ rfl rfl⟩

end PeerCache.Flight
