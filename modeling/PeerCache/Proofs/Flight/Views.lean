import PeerCache.Flight.History

/-!
# What each change to a flight leaves to be seen

A flight is looked at through four views: `task?`, `call?`, `leader?` and the `poisoned` flag. For
every change (`update`, `wake`, `announce`, `register`, `join`, `unregister`, `spawn`) this module
gives one equation per view, so that no later proof opens a map.

However the leader of a call goes, it leaves the flight by one and the same change: its key leaves
the registry unless the lock is poisoned, its followers are shown a last signal and woken, and the
task is over. That change is `Flight.conclude`; `complete_eq`, `failToPublish_eq` and
`abandon_leading` say that each of the ways is a case of it.
-/

namespace PeerCache.Flight

variable {ν ε : Type} {flight : Flight ν ε} {id other leader : TaskId} {key : String}

/-! ## Changing one task -/

@[simp] theorem call?_update {change : Task ν ε → Task ν ε} :
    (flight.update id change).call? other = flight.call? other := rfl

@[simp] theorem leader?_update {change : Task ν ε → Task ν ε} :
    (flight.update id change).leader? key = flight.leader? key := rfl

@[simp] theorem poisoned_update {change : Task ν ε → Task ν ε} :
    (flight.update id change).poisoned = flight.poisoned := rfl

@[simp] theorem call?_setPhase {phase : Phase} :
    (flight.setPhase id phase).call? other = flight.call? other := rfl

@[simp] theorem leader?_setPhase {phase : Phase} :
    (flight.setPhase id phase).leader? key = flight.leader? key := rfl

@[simp] theorem poisoned_setPhase {phase : Phase} :
    (flight.setPhase id phase).poisoned = flight.poisoned := rfl

/-- A task whose phase is set keeps its key, its outcome and its wakefulness; no other task is
touched. -/
theorem task?_setPhase {phase : Phase} :
    (flight.setPhase id phase).task? other =
      if id = other then (flight.task? id).map fun task => { task with phase }
      else flight.task? other :=
  task?_update

/-! ## Waking -/

@[simp] theorem wake_nil : flight.wake [] = flight := rfl

@[simp] theorem wake_cons {ids : List TaskId} :
    flight.wake (id :: ids) = (flight.update id Task.wake).wake ids := rfl

/-- Waking marks tasks only, so it leaves the calls alone. Induction on the woken ids. -/
@[simp] theorem call?_wake {ids : List TaskId} :
    (flight.wake ids).call? other = flight.call? other := by
  induction ids generalizing flight with
  | nil => rfl
  | cons head rest ih => rw [wake_cons, ih, call?_update]

/-- The registry is not read or written when tasks are woken. -/
@[simp] theorem leader?_wake {ids : List TaskId} :
    (flight.wake ids).leader? key = flight.leader? key := by
  induction ids generalizing flight with
  | nil => rfl
  | cons head rest ih => rw [wake_cons, ih, leader?_update]

/-- Waking takes no lock, so it can poison none. -/
@[simp] theorem poisoned_wake {ids : List TaskId} :
    (flight.wake ids).poisoned = flight.poisoned := by
  induction ids generalizing flight with
  | nil => rfl
  | cons head rest ih => rw [wake_cons, ih, poisoned_update]

/-! ## Showing a signal -/

/-- The tasks that have joined the call of `leader`. -/
def followers (flight : Flight ν ε) (leader : TaskId) : List TaskId :=
  match flight.call? leader with
  | none => []
  | some call => call.followers

/-- The followers of a call that is there are those it lists. -/
theorem followers_of_call? {call : Call ν ε} (h : flight.call? leader = some call) :
    flight.followers leader = call.followers := by
  rw [followers, h]

/-- A signal reaches the tasks by waking those that follow the call. It changes nothing else of a
task: a follower reads the signal only when it is polled. -/
theorem task?_announce {signal : Signal ν ε} :
    (flight.announce leader signal).task? other =
      (flight.task? other).map fun task =>
        if other ∈ flight.followers leader then task.wake else task := by
  unfold announce followers
  cases flight.call? leader with
  | none => simp
  | some call => exact task?_wake

/-- The signal is written to the call it is meant for and to no other; on a leader that has no call
it gets lost. -/
theorem call?_announce {signal : Signal ν ε} :
    (flight.announce leader signal).call? other =
      if leader = other then (flight.call? leader).map fun call => { call with signal }
      else flight.call? other := by
  unfold announce
  cases h : flight.call? leader with
  | none =>
    by_cases same : leader = other
    · rw [if_pos same, ← same, h]; rfl
    · rw [if_neg same]
  | some call =>
    show (flight.calls.insert leader { call with signal })[other]? = _
    simp only [Std.ExtTreeMap.getElem?_insert, Std.compare_eq_iff_eq, Option.map_some]
    rfl

/-- A call that has shown its signal can still be registered: taking the key off the registry is a
step of its own (`leader?_unregister`). -/
@[simp] theorem leader?_announce {signal : Signal ν ε} :
    (flight.announce leader signal).leader? key = flight.leader? key := by
  unfold announce
  cases flight.call? leader with
  | none => rfl
  | some call => exact leader?_wake

/-- To show a signal cannot poison the lock. The attempt to copy a result can, and that is a step of
its own (`failToPublish_eq`). -/
@[simp] theorem poisoned_announce {signal : Signal ν ε} :
    (flight.announce leader signal).poisoned = flight.poisoned := by
  unfold announce
  cases flight.call? leader with
  | none => rfl
  | some call => exact poisoned_wake

/-! ## The registry -/

@[simp] theorem task?_unregister : (flight.unregister key).task? other = flight.task? other := rfl

@[simp] theorem call?_unregister : (flight.unregister key).call? other = flight.call? other := rfl

@[simp] theorem poisoned_unregister : (flight.unregister key).poisoned = flight.poisoned := rfl

/-- Only the given key leaves the registry, whoever it is registered for. -/
theorem leader?_unregister {wanted : String} :
    (flight.unregister key).leader? wanted =
      if key = wanted then none else flight.leader? wanted := by
  simp [unregister, leader?, Std.ExtTreeMap.getElem?_erase]

/-- Registering a task makes it a leader, if it is there at all. -/
theorem task?_register :
    (flight.register id key).task? other =
      if id = other then (flight.task? id).map fun task => { task with phase := .leading }
      else flight.task? other :=
  task?_setPhase

/-- A new leader starts with a call of its own: no signal yet and no follower. A call the same task
might have led before is overwritten. -/
theorem call?_register :
    (flight.register id key).call? other =
      if id = other then some { key } else flight.call? other := by
  simp [register, call?, Std.ExtTreeMap.getElem?_insert]

/-- The key now belongs to the new leader, also if it belonged to another one before. That the
flight never takes a key from a live leader is a fact about `enter`, not about this change. -/
theorem leader?_register {wanted : String} :
    (flight.register id key).leader? wanted =
      if key = wanted then some id else flight.leader? wanted := by
  simp [register, leader?, Std.ExtTreeMap.getElem?_insert]

@[simp] theorem poisoned_register : (flight.register id key).poisoned = flight.poisoned := rfl

/-- A task that joins is from then on a follower of the leader it found. -/
theorem task?_join :
    (flight.join id leader).task? other =
      if id = other then (flight.task? id).map fun task => { task with phase := .following leader }
      else flight.task? other :=
  task?_setPhase

/-- The call notes its new follower in front of those it has, so that it can wake it later. -/
theorem call?_join :
    (flight.join id leader).call? other =
      if leader = other then
        (flight.call? leader).map fun call => { call with followers := id :: call.followers }
      else flight.call? other := by
  simp [join, call?, Std.ExtTreeMap.getElem?_modify]

@[simp] theorem leader?_join : (flight.join id leader).leader? key = flight.leader? key := rfl

@[simp] theorem poisoned_join : (flight.join id leader).poisoned = flight.poisoned := rfl

/-! ## From outside -/

/-- A spawned task begins fresh, awake and with the outcome it will have. An id that is
taken is left as it is. -/
theorem task?_spawn {outcome : Option (Outcome ν ε)} {startFault : Option String} :
    (flight.spawn id key outcome startFault).task? other =
      if id = other ∧ flight.task? id = none then some { key, outcome, startFault }
      else flight.task? other := by
  unfold spawn
  cases h : flight.task? id with
  | some task => simp
  | none => simp [task?, Std.ExtTreeMap.getElem?_insert]

/-- To spawn a task is not yet to enter the flight: there is no call for it before its first poll.
-/
@[simp] theorem call?_spawn {outcome : Option (Outcome ν ε)} {startFault : Option String} :
    (flight.spawn id key outcome startFault).call? other = flight.call? other := by
  unfold spawn
  cases flight.task? id <;> rfl

/-- A task that was only spawned holds no key. -/
@[simp] theorem leader?_spawn {wanted : String} {outcome : Option (Outcome ν ε)}
    {startFault : Option String} :
    (flight.spawn id key outcome startFault).leader? wanted = flight.leader? wanted := by
  unfold spawn
  cases flight.task? id <;> rfl

/-- Spawning does not touch the lock. -/
@[simp] theorem poisoned_spawn {outcome : Option (Outcome ν ε)} {startFault : Option String} :
    (flight.spawn id key outcome startFault).poisoned = flight.poisoned := by
  unfold spawn
  cases flight.task? id <;> rfl

/-! ## The end of a leader -/

/-- The flight with its lock poisoned. -/
def poison (flight : Flight ν ε) : Flight ν ε :=
  { flight with poisoned := true }

@[simp] theorem task?_poison : flight.poison.task? other = flight.task? other := rfl

@[simp] theorem call?_poison : flight.poison.call? other = flight.call? other := rfl

@[simp] theorem leader?_poison : flight.poison.leader? key = flight.leader? key := rfl

@[simp] theorem poisoned_poison : flight.poison.poisoned = true := rfl

/-- The leader `id` of a call under `key` goes: the key leaves the registry unless the lock is
poisoned, the followers see `signal`, and the task is over in `phase`. -/
def conclude (flight : Flight ν ε) (id : TaskId) (key : String) (signal : Signal ν ε)
    (phase : Phase) : Flight ν ε :=
  ((if flight.poisoned then flight else flight.unregister key).announce id signal).setPhase id phase

variable {signal : Signal ν ε} {phase : Phase}

/-- Seen from the tasks, a leader that goes wakes its followers and is itself over. Should the
leader be among its own followers, it is over all the same: the phase is set last. -/
theorem task?_conclude :
    (flight.conclude id key signal phase).task? other =
      (flight.task? other).map fun task =>
        let seen := if other ∈ flight.followers id then task.wake else task
        if id = other then { seen with phase } else seen := by
  have shown : ((if flight.poisoned then flight else flight.unregister key).announce id
      signal).task? other = (flight.task? other).map fun task =>
        if other ∈ flight.followers id then task.wake else task := by
    rw [task?_announce]
    cases flight.poisoned <;> rfl
  rw [conclude, task?_setPhase]
  by_cases same : id = other
  · subst same
    simp only [if_true]
    rw [shown, Option.map_map]
    rfl
  · simp only [if_neg same]
    exact shown

/-- For a task other than the leader there is only the question whether it followed. -/
theorem task?_conclude_of_ne (h : id ≠ other) :
    (flight.conclude id key signal phase).task? other =
      (flight.task? other).map fun task =>
        if other ∈ flight.followers id then task.wake else task := by
  simp only [task?_conclude, if_neg h]

/-- The task of the leader keeps all but its phase; whether it counts as woken no longer matters. -/
theorem task?_conclude_self {task : Task ν ε} (h : flight.task? id = some task) :
    ∃ woken, (flight.conclude id key signal phase).task? id = some { task with phase, woken } := by
  rw [task?_conclude, h, Option.map_some]
  by_cases joined : id ∈ flight.followers id
  · exact ⟨true, by simp [joined, Task.wake]⟩
  · exact ⟨task.woken, by simp [joined]⟩

/-- The call of a leader that went stays, with its last signal in it, so that followers that are
polled later still find it. -/
theorem call?_conclude :
    (flight.conclude id key signal phase).call? other =
      if id = other then (flight.call? id).map fun call => { call with signal }
      else flight.call? other := by
  rw [conclude, call?_setPhase, call?_announce]
  cases flight.poisoned <;> rfl

/-- The key is free after the leader went, unless the lock is poisoned: then nothing can leave the
registry any more. -/
theorem leader?_conclude {wanted : String} :
    (flight.conclude id key signal phase).leader? wanted =
      if flight.poisoned = false ∧ key = wanted then none else flight.leader? wanted := by
  rw [conclude, leader?_setPhase, leader?_announce]
  cases flight.poisoned with
  | true => simp
  | false => simpa using leader?_unregister

/-- A leader that goes neither poisons the lock nor heals it. Where a way out poisons it
(`failToPublish_eq`) this comes first. -/
@[simp] theorem poisoned_conclude :
    (flight.conclude id key signal phase).poisoned = flight.poisoned := by
  rw [conclude, poisoned_setPhase, poisoned_announce]
  split
  · rfl
  · exact poisoned_unregister

/-! ### What the followers see -/

/-- What is to be seen of a leader is the signal its call holds. -/
theorem signal?_of_call? {call : Call ν ε} (h : flight.call? leader = some call) :
    flight.signal? leader = some call.signal := by
  rw [signal?, h, Option.map_some]

@[simp] theorem signal?_setPhase : (flight.setPhase id phase).signal? other = flight.signal? other :=
  rfl

@[simp] theorem signal?_poison : flight.poison.signal? other = flight.signal? other := rfl

/-- There is nothing new to be seen after a task was spawned, since there is no new call. -/
@[simp] theorem signal?_spawn {outcome : Option (Outcome ν ε)} {startFault : Option String} :
    (flight.spawn id key outcome startFault).signal? other = flight.signal? other := by
  rw [signal?, call?_spawn, signal?]

/-- A new leader has shown nothing yet, whatever it showed the last time it led. -/
theorem signal?_register :
    (flight.register id key).signal? other =
      if id = other then some .pending else flight.signal? other := by
  rw [signal?, call?_register]
  split <;> rfl

/-- Joining a call does not show in it. -/
@[simp] theorem signal?_join : (flight.join id leader).signal? other = flight.signal? other := by
  rw [signal?, call?_join, signal?]
  split
  · next same => rw [same, Option.map_map]; rfl
  · rfl

/-- The last signal replaces whatever the call showed before, for this leader alone. -/
theorem signal?_conclude :
    (flight.conclude id key signal phase).signal? other =
      if id = other then (flight.signal? id).map fun _ => signal else flight.signal? other := by
  rw [signal?, call?_conclude]
  split
  · rw [Option.map_map, signal?, Option.map_map]
    rfl
  · rfl

/-! ### The ways for a leader to go -/

/-- Giving a call up without a result is to conclude it as closed. -/
theorem release_setPhase :
    (flight.release id key).setPhase id phase = flight.conclude id key .closed phase := rfl

/-- Waking commutes with poisoning, as the two write different fields. Induction on the woken ids.
-/
theorem wake_poison {ids : List TaskId} : flight.poison.wake ids = (flight.wake ids).poison := by
  induction ids generalizing flight with
  | nil => rfl
  | cons head rest ih => exact @ih (flight.update head Task.wake)

/-- It makes no difference whether the lock is poisoned before the signal is shown or after. -/
theorem announce_poison : flight.poison.announce id signal = (flight.announce id signal).poison := by
  unfold announce
  rw [call?_poison]
  cases flight.call? id with
  | none => rfl
  | some call =>
    simp only
    rw [wake_poison]
    rfl

/-- A result that can be published is; on a poisoned lock the call is closed instead. -/
theorem complete_eq (result : Except ε ν) :
    flight.complete id key result =
      if flight.poisoned then
        { flight := flight.conclude id key .closed .ended, answer := .failed (.poisoned .callMap) }
      else
        { flight := flight.conclude id key (.published result) .ended
          answer := .returned result } := by
  unfold complete conclude
  cases flight.poisoned <;> rfl

/-- A result that cannot be copied closes the call on a lock that is poisoned first. -/
theorem failToPublish_eq (key : String) :
    flight.failToPublish id =
      { flight := flight.poison.conclude id key .closed .ended
        answer := .failed (if flight.poisoned then .poisoned .callMap else .copyFailed) } := by
  have same : flight.poison.conclude id key .closed .ended =
      ((flight.announce id .closed).setPhase id .ended).poison := by
    rw [conclude, poisoned_poison, if_pos rfl, announce_poison]
    rfl
  rw [same]
  unfold failToPublish
  cases held : flight.poisoned with
  | false => rfl
  | true =>
    have fixed : ((flight.announce id .closed).setPhase id .ended).poisoned = true := by
      rw [poisoned_setPhase, poisoned_announce, held]
    simp only [if_true]
    rw [poison, ← fixed]

end PeerCache.Flight
