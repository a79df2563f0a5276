import PeerCache.Proofs.Flight.Part

/-!
# A flight without a task

`without flight gone` is the flight as if there had never been a task `gone`, provided it has never
led: the task is not there, and no call lists it among its followers. What the registry holds is
left, and so is the lock.

A step done to another task does to the flight without `gone` what it does to the whole, whatever
state that is in (`without_apply`): followers are only ever listed to be woken, and each list is
read for every task on its own. A step done to `gone` itself leaves no trace unless it makes the
task lead (`Coherent.without_apply_self`).
-/

namespace PeerCache

variable {ν ε : Type}

/-- A call as if a task had never joined it. -/
def Call.without (call : Call ν ε) (gone : TaskId) : Call ν ε :=
  { call with followers := call.followers.filter fun follower => follower ≠ gone }

/-- A flight as if it had never had a task that does not lead. -/
def Flight.without (flight : Flight ν ε) (gone : TaskId) : Flight ν ε where
  tasks := flight.tasks.erase gone
  calls := flight.calls.map fun _ call => call.without gone
  registry := flight.registry
  poisoned := flight.poisoned

/-- What a poll leaves behind, with a task taken out. -/
def Polled.without (polled : Polled ν ε) (gone : TaskId) : Polled ν ε :=
  { polled with flight := polled.flight.without gone }

/-- What a step leaves behind, with a task taken out. -/
def FlightStep.without (step : FlightStep ν ε) (gone : TaskId) : FlightStep ν ε :=
  { step with flight := step.flight.without gone }

namespace Flight

variable {flight : Flight ν ε} {gone id other leader : TaskId} {key : String} {task : Task ν ε}

/-! ## What is seen without the task -/

/-- The task that is taken out is the only one missing. -/
theorem task?_without :
    (flight.without gone).task? other = if gone = other then none else flight.task? other := by
  simp [without, task?, Std.ExtTreeMap.getElem?_erase]

theorem task?_without_of_ne (apart : gone ≠ other) :
    (flight.without gone).task? other = flight.task? other := by
  rw [task?_without, if_neg apart]

/-- Every call is still there, those the task joined included. Only their lists of followers are
shorter. -/
theorem call?_without :
    (flight.without gone).call? other = (flight.call? other).map fun call => call.without gone :=
  Std.ExtTreeMap.getElem?_map

/-- What is to be seen of a call does not depend on who follows it. -/
@[simp] theorem signal?_without : (flight.without gone).signal? other = flight.signal? other := by
  rw [signal?, call?_without, Option.map_map, signal?]
  rfl

@[simp] theorem leader?_without : (flight.without gone).leader? key = flight.leader? key := rfl

@[simp] theorem poisoned_without : (flight.without gone).poisoned = flight.poisoned := rfl

@[simp] theorem inFlight_without : (flight.without gone).inFlight = flight.inFlight := rfl

@[simp] theorem describe_without : (flight.without gone).describe = flight.describe := rfl

/-- The bound on the rounds counts calls, and no call is taken out. So a poll without the task has
as many rounds as with it. -/
@[simp] theorem roundBound_without : (flight.without gone).roundBound = flight.roundBound :=
  congrArg (· + 2) Std.ExtTreeMap.size_map

/-- A list of followers loses the one task only. -/
theorem mem_followers_without (apart : gone ≠ other) :
    other ∈ (flight.without gone).followers leader ↔ other ∈ flight.followers leader := by
  unfold followers
  rw [call?_without]
  cases flight.call? leader with
  | none => rfl
  | some call => simp [Call.without, apart.symm]

/-- From a new flight there is nothing to take out. -/
theorem without_empty : ({} : Flight ν ε).without gone = {} := by
  refine eq_of_views (fun other => ?_) (fun other => ?_) (fun _ => rfl) rfl
  · rw [task?_without]
    simp [task?]
  · rw [call?_without]
    simp [call?]

/-! ## Changes commute with taking the task out -/

/-- A change to one task commutes with taking one out, also if it is the same: then there is nothing
to change on the one side, and nothing left of the change on the other. -/
theorem without_update {change : Task ν ε → Task ν ε} :
    (flight.update id change).without gone = (flight.without gone).update id change := by
  refine eq_of_views (fun other => ?_) (fun _ => rfl) (fun _ => rfl) rfl
  rw [task?_without, task?_update, task?_update, task?_without, task?_without]
  grind

theorem without_setPhase {phase : Phase} :
    (flight.setPhase id phase).without gone = (flight.without gone).setPhase id phase :=
  without_update

/-- A signal wakes the other followers alike. The one that is taken out would be woken, but nothing
is seen of it. -/
theorem without_announce {signal : Signal ν ε} :
    (flight.announce leader signal).without gone =
      (flight.without gone).announce leader signal := by
  refine eq_of_views (fun other => ?_) (fun other => ?_) (fun wanted => ?_) ?_
  · rw [task?_without, task?_announce, task?_announce, task?_without]
    split
    · rfl
    · next apart => simp only [mem_followers_without apart]
  · rw [call?_without, call?_announce, call?_announce, call?_without, call?_without]
    split
    · rw [Option.map_map, Option.map_map]
      rfl
    · rfl
  · rw [leader?_without, leader?_announce, leader?_announce, leader?_without]
  · rw [poisoned_without, poisoned_announce, poisoned_announce, poisoned_without]

/-- A leader goes alike whether or not the task follows it. -/
theorem without_conclude {signal : Signal ν ε} {phase : Phase} :
    (flight.conclude id key signal phase).without gone =
      (flight.without gone).conclude id key signal phase := by
  unfold conclude
  rw [without_setPhase, without_announce, poisoned_without]
  split <;> rfl

/-- A new call lists nobody, so there is no follower to take out of it. -/
theorem without_register :
    (flight.register id key).without gone = (flight.without gone).register id key := by
  refine eq_of_views (fun other => ?_) (fun other => ?_) (fun _ => rfl) rfl
  · show ((flight.setPhase id _).without gone).task? other = _
    rw [without_setPhase]
    rfl
  · rw [call?_without, call?_register, call?_register, call?_without]
    split <;> rfl

/-- A join of another task. That the task which joins is not the one taken out is needed here: the
call would have to list it on one side. -/
theorem without_join (apart : gone ≠ id) :
    (flight.join id leader).without gone = (flight.without gone).join id leader := by
  refine eq_of_views (fun other => ?_) (fun other => ?_) (fun _ => rfl) rfl
  · show ((flight.setPhase id _).without gone).task? other = _
    rw [without_setPhase]
    rfl
  · rw [call?_without, call?_join, call?_join, call?_without, call?_without]
    split
    · rw [Option.map_map, Option.map_map]
      congr 1
      funext call
      simp [Call.without, apart.symm]
    · rfl

/-- Another task is spawned alike. For the same id this fails: it is free again in the flight
without the task. -/
theorem without_spawn {outcome : Option (Outcome ν ε)} {startFault : Option String}
    (apart : gone ≠ id) :
    (flight.spawn id key outcome startFault).without gone =
      (flight.without gone).spawn id key outcome startFault := by
  refine eq_of_views (fun other => ?_) (fun other => ?_) (fun wanted => ?_) ?_
  · rw [task?_without, task?_spawn, task?_spawn, task?_without, task?_without]
    grind
  · rw [call?_without, call?_spawn, call?_spawn, call?_without]
  · rw [leader?_without, leader?_spawn, leader?_spawn, leader?_without]
  · rw [poisoned_without, poisoned_spawn, poisoned_spawn, poisoned_without]

/-! ## Steps of other tasks -/

/-- A leader's computation looks at its outcome and at the lock, and neither is changed. It may be
that of the task taken out, too: then it goes on without a task. -/
theorem without_drive :
    (flight.drive id task).without gone = (flight.without gone).drive id task := by
  have completed : ∀ result, (flight.complete id task.key result).without gone =
      (flight.without gone).complete id task.key result := by
    intro result
    rw [complete_eq, complete_eq, poisoned_without, ← without_conclude, ← without_conclude]
    split <;> rfl
  have uncopied : (flight.failToPublish id).without gone =
      ((flight.without gone).failToPublish id : Polled ν ε) := by
    have poisons : flight.poison.without gone = (flight.without gone).poison := rfl
    rw [failToPublish_eq task.key, failToPublish_eq task.key, ← poisons, ← without_conclude]
    rfl
  unfold drive
  cases task.outcome with
  | none => rfl
  | some outcome =>
    cases outcome with
    | ok value => exact completed _
    | err error => exact completed _
    | raises text => simp only [release_setPhase, Polled.without, without_conclude]
    | uncopyable value => exact uncopied
    | uncopyableErr error => exact uncopied

/-- To lead is to register and to start, of which neither looks at followers. -/
theorem without_lead :
    (flight.lead id task).without gone = (flight.without gone).lead id task := by
  unfold lead
  cases task.startFault with
  | none =>
    have driven : ((flight.register id task.key).drive id task).without gone = _ := without_drive
    rw [without_register] at driven
    simp only [← driven]
    rfl
  | some text =>
    simp only [release_setPhase, Polled.without, without_conclude, without_register]

variable {again again' : Flight ν ε → Polled ν ε}

/-- Waiting commutes with taking a task out if trying again does. The two ways to try again are
parameters, so that the loop can be closed over them (`without_enter`). -/
theorem without_await
    (retried : ∀ flight, (again flight).without gone = again' (flight.without gone)) :
    (flight.await id key leader again).without gone =
      (flight.without gone).await id key leader again' := by
  have after : ∀ {polled : Polled ν ε} {event : Log.Event},
      (polled.after event).without gone = (polled.without gone).after event := rfl
  unfold await
  rw [signal?_without]
  cases flight.signal? leader with
  | none => exact after.trans (congrArg _ (retried flight))
  | some signal =>
    cases signal with
    | pending => rfl
    | published result => simp only [Polled.without, without_setPhase]
    | closed => exact after.trans (congrArg _ (retried flight))

/-- One round of another task commutes with taking a task out, if the rounds after it do. -/
theorem without_round (apart : gone ≠ id)
    (retried : ∀ flight, (again flight).without gone = again' (flight.without gone)) :
    (flight.round id task again).without gone = (flight.without gone).round id task again' := by
  unfold round
  rw [poisoned_without, leader?_without]
  split
  · simp only [Polled.without, without_setPhase]
  · cases flight.leader? task.key with
    | none => exact without_lead
    | some leader =>
      have waited : ((flight.join id leader).await id task.key leader again).without gone = _ :=
        without_await retried
      rw [without_join apart] at waited
      simp only [← waited]
      rfl

/-- However many rounds a task is granted, each of them goes alike. -/
theorem without_enter (apart : gone ≠ id) (bound : Nat) (flight : Flight ν ε) :
    (enter id task bound flight).without gone = enter id task bound (flight.without gone) := by
  -- each round goes on with the next one, on a flight that the one before has changed
  induction bound generalizing flight with
  | zero => exact without_round apart fun _ => rfl
  | succ bound ih => exact without_round apart ih

/-- A live task moves alike in each of its phases. -/
theorem without_advance (apart : gone ≠ id) :
    (flight.advance id task).without gone = (flight.without gone).advance id task := by
  unfold advance
  rw [roundBound_without]
  cases task.phase with
  | fresh => exact without_enter apart _ _
  | following leader => exact without_await (without_enter apart _)
  | leading => exact without_drive
  | ended => rfl
  | dropped => rfl

/-- A poll of another task is the same poll of the flight without this one, with the same answer,
starts and events. -/
theorem without_poll (apart : gone ≠ id) :
    (flight.poll id).without gone = (flight.without gone).poll id := by
  unfold poll
  rw [task?_without_of_ne apart]
  cases flight.task? id with
  | none => rfl
  | some task =>
    simp only
    split
    · rw [without_advance apart, without_update]
    · rfl

/-- Another task is dropped alike, and it is there to be dropped alike. -/
theorem without_abandon (apart : gone ≠ id) :
    (flight.without gone).abandon id =
      ((flight.abandon id).1.without gone, (flight.abandon id).2) := by
  obtain ⟨task, found, live⟩ | finished := live_or_gone flight id
  · have there := (task?_without_of_ne apart).trans found
    by_cases leads : task.phase = .leading
    · rw [abandon_leading found leads, abandon_leading there leads, without_conclude]
    · rw [abandon_idle found live leads, abandon_idle there live leads, without_setPhase]
  · have finished' := finished
    rw [← task?_without_of_ne apart] at finished'
    rw [abandon_gone finished, abandon_gone finished']

/-- **What is done to another task is done to the flight without this one.** -/
theorem without_apply {op : FlightOp ν ε} (apart : op.subject ≠ gone) :
    (flight.apply op).without gone = (flight.without gone).apply op := by
  cases op with
  | spawn id key outcome startFault =>
    exact congrArg (fun flight => FlightStep.mk flight .done [] []) (without_spawn apart.symm)
  | poll id =>
    have polled : (flight.poll id).without gone = _ := without_poll apart.symm
    simp only [Flight.apply, ← polled]
    rfl
  | resolve id outcome =>
    exact congrArg (fun flight => FlightStep.mk flight .done [] []) without_update
  | abandon id =>
    have dropped : (flight.without gone).abandon id = _ := without_abandon apart.symm
    simp only [Flight.apply, dropped]
    rfl

/-! ## Steps of the task itself -/

/-- What is changed on a task is gone when it is taken out. -/
theorem without_update_self {change : Task ν ε → Task ν ε} :
    (flight.update gone change).without gone = flight.without gone := by
  rw [without_update]
  exact update_of_none (by rw [task?_without, if_pos rfl])

theorem without_setPhase_self {phase : Phase} :
    (flight.setPhase gone phase).without gone = flight.without gone :=
  without_update_self

/-- The call that is joined lists the task, and that is all. -/
theorem without_join_self : (flight.join gone leader).without gone = flight.without gone := by
  refine eq_of_views (fun other => ?_) (fun other => ?_) (fun _ => rfl) rfl
  · show ((flight.setPhase gone _).without gone).task? other = _
    rw [without_setPhase_self]
  · rw [call?_without, call?_join, call?_without]
    split
    · next same =>
      rw [← same, Option.map_map]
      congr 1
      funext call
      simp [Call.without]
    · rfl

/-- To spawn a task and to take it out again is no change. If the id was taken there was nothing to
spawn. -/
theorem without_spawn_self {outcome : Option (Outcome ν ε)} {startFault : Option String} :
    (flight.spawn gone key outcome startFault).without gone = flight.without gone := by
  refine eq_of_views (fun other => ?_) (fun other => ?_) (fun wanted => ?_) ?_
  · rw [task?_without, task?_spawn, task?_without]
    grind
  · rw [call?_without, call?_spawn, call?_without]
  · rw [leader?_without, leader?_spawn, leader?_without]
  · rw [poisoned_without, poisoned_spawn, poisoned_without]

/-- Whoever neither leads nor starts to has only read when its turn is over. -/
theorem Turn.without_self {polled : Polled ν ε} (turn : Turn flight gone task polled)
    (idle : task.phase ≠ .leading) (unstarted : polled.started = false) :
    polled.flight.without gone = flight.without gone := by
  cases turn with
  | waits => rfl
  | receives => exact without_setPhase_self
  | refused => exact without_setPhase_self
  | joins => exact without_join_self
  | failsToStart => cases unstarted
  | leads => cases unstarted
  | drives leads => exact absurd leads idle

/-- **What is done to a task that does not come to lead leaves no trace.** -/
theorem Coherent.without_apply_self {op : FlightOp ν ε} (h : flight.Coherent)
    (mine : op.subject = gone) (idle : ∀ key, flight.standing? gone ≠ some (key, .leading))
    (unstarted : gone ∉ (flight.apply op).started) :
    (flight.apply op).flight.without gone = flight.without gone := by
  have idle' : ∀ {task : Task ν ε}, flight.task? gone = some task → task.phase ≠ .leading := by
    intro task found leads
    exact idle task.key (leads ▸ standing?_of_task? found)
  subst mine
  cases op with
  | spawn id key outcome startFault => exact without_spawn_self
  | resolve id outcome => exact without_update_self
  | poll id =>
    show (flight.poll id).flight.without id = flight.without id
    obtain ⟨task, found, live⟩ | finished := live_or_gone flight id
    · have idlePoll : (flight.poll id).started = false := by
        by_contra started
        exact unstarted (mem_started_poll.mpr ⟨rfl, by simpa using started⟩)
      have turn := poll_turn h found live
      exact (turn.without_self (idle' found) idlePoll).trans without_update_self
    · rw [poll_gone finished]
  | abandon id =>
    show (flight.abandon id).1.without id = flight.without id
    obtain ⟨task, found, live⟩ | finished := live_or_gone flight id
    · rw [abandon_idle found live (idle' found)]
      exact without_setPhase_self
    · rw [abandon_gone finished]

end Flight

end PeerCache
