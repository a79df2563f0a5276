import PeerCache.Proofs.Flight.Kindred

/-!
# The part of a flight under one key

`part flight key` is what a flight has under a key: the tasks of that key, their calls, and the
registration of the key. The lock belongs to every part.

Each change commutes with taking the part (`part_update`, `part_conclude`, `part_join`,
`part_register_self`), so that a step done to a task of the key does to the part what it does to the
whole (`part_apply`). A task of another key is not in the part, nor is its call or the registration
of its key: a step done to it leaves the part as it is, as long as the lock does not change
(`part_apply_of_ne`).
-/

namespace PeerCache

variable {ν ε : Type}

/-- The tasks of a key, their calls, and the registration of the key. -/
def Flight.part (flight : Flight ν ε) (key : String) : Flight ν ε where
  tasks := flight.tasks.filter fun _ task => task.key = key
  calls := flight.calls.filter fun _ call => call.key = key
  registry := flight.registry.filter fun held _ => held = key
  poisoned := flight.poisoned

/-- What a poll leaves behind, seen under a key. -/
def Polled.part (polled : Polled ν ε) (key : String) : Polled ν ε :=
  { polled with flight := polled.flight.part key }

/-- What a step leaves behind, seen under a key. -/
def FlightStep.part (step : FlightStep ν ε) (key : String) : FlightStep ν ε :=
  { step with flight := step.flight.part key }

/-- The key that a step brings along, if it spawns a task. -/
def FlightOp.key? : FlightOp ν ε → Option String
  | .spawn _ key _ _ => some key
  | .poll _ | .resolve _ _ | .abandon _ => none

/-- The key of the task that something is done to. A task that is spawned has the key it is spawned
under. -/
def Flight.keyFor? (flight : Flight ν ε) (op : FlightOp ν ε) : Option String :=
  ((flight.task? op.subject).map (·.key)).or op.key?

namespace Flight

variable {flight flight' : Flight ν ε} {id other leader : TaskId} {key wanted : String}
  {task : Task ν ε}

/-- A flight is known by its views. -/
theorem eq_of_views (tasks : ∀ id, flight.task? id = flight'.task? id)
    (calls : ∀ id, flight.call? id = flight'.call? id)
    (leaders : ∀ key, flight.leader? key = flight'.leader? key)
    (poisoned : flight.poisoned = flight'.poisoned) : flight = flight' := by
  cases flight
  cases flight'
  rw [Flight.mk.injEq]
  exact ⟨Std.ExtTreeMap.ext_getElem? tasks, Std.ExtTreeMap.ext_getElem? calls,
    Std.ExtTreeMap.ext_getElem? leaders, poisoned⟩

/-- A task is in the part of its own key and in no other. -/
theorem task?_part :
    (flight.part key).task? id = (flight.task? id).filter fun task => task.key = key :=
  Std.ExtTreeMap.getElem?_filter'

/-- A call is in the part of the key it was registered under, also when it is long over. -/
theorem call?_part :
    (flight.part key).call? id = (flight.call? id).filter fun call => call.key = key :=
  Std.ExtTreeMap.getElem?_filter'

/-- The part has the registration of its own key and none of another. -/
theorem leader?_part :
    (flight.part key).leader? wanted = if wanted = key then flight.leader? wanted else none := by
  have filtered : (flight.part key).leader? wanted =
      (flight.leader? wanted).filter fun _ => decide (wanted = key) :=
    Std.ExtTreeMap.getElem?_filter'
  rw [filtered]
  cases flight.leader? wanted <;> by_cases same : wanted = key <;> simp [same]

@[simp] theorem poisoned_part : (flight.part key).poisoned = flight.poisoned := rfl

theorem task?_part_of_key (found : flight.task? id = some task) (mine : task.key = key) :
    (flight.part key).task? id = some task := by
  rw [task?_part, found]
  simp [mine]

/-- Who has another key, or is not there at all, is not in the part. -/
theorem task?_part_of_ne (others : ∀ task, flight.task? id = some task → task.key ≠ key) :
    (flight.part key).task? id = none := by
  rw [task?_part]
  cases found : flight.task? id with
  | none => rfl
  | some task => simp [others task found]

theorem call?_part_of_key {call : Call ν ε} (found : flight.call? leader = some call)
    (mine : call.key = key) : (flight.part key).call? leader = some call := by
  rw [call?_part, found]
  simp [mine]

theorem leader?_part_self : (flight.part key).leader? key = flight.leader? key := by
  rw [leader?_part, if_pos rfl]

/-! ## Changes commute with taking the part -/

/-- A change to one task that leaves the key alone commutes with taking the part. On a task that is
not in the part it does nothing there, since `update` looks for the task first. -/
theorem part_update {change : Task ν ε → Task ν ε} (same : ∀ task, (change task).key = task.key) :
    (flight.update id change).part key = (flight.part key).update id change := by
  refine eq_of_views (fun other => ?_) (fun _ => rfl) (fun _ => rfl) rfl
  rw [task?_part, task?_update, task?_update, task?_part, task?_part]
  split
  · rw [Option.filter_map]
    congr 2
    funext task
    simp [same]
  · rfl

theorem part_setPhase {phase : Phase} :
    (flight.setPhase id phase).part key = (flight.part key).setPhase id phase :=
  part_update fun _ => rfl

/-- The outcome of a computation is fixed in the part just as in the whole. -/
theorem part_resolve {outcome : Outcome ν ε} :
    (flight.resolve id outcome).part key = (flight.part key).resolve id outcome :=
  part_update fun _ => rfl

theorem part_attend : (flight.attend id).part key = (flight.part key).attend id :=
  part_update fun _ => rfl

/-- A key that leaves the registry leaves that of the part; a foreign key was not in there. -/
theorem part_unregister :
    (flight.unregister wanted).part key = (flight.part key).unregister wanted := by
  refine eq_of_views (fun _ => rfl) (fun _ => rfl) (fun other => ?_) rfl
  rw [leader?_part, leader?_unregister, leader?_unregister, leader?_part]
  split <;> split <;> rfl

theorem part_poison : flight.poison.part key = (flight.part key).poison := rfl

/-- A follower joins in the part what it joins in the whole. No condition on the keys is needed,
because both the task and the call are only changed where they are. -/
theorem part_join : (flight.join id leader).part key = (flight.part key).join id leader := by
  refine eq_of_views (fun other => ?_) (fun other => ?_) (fun _ => rfl) rfl
  · show ((flight.setPhase id _).part key).task? other = _
    rw [part_setPhase]
    rfl
  · rw [call?_part, call?_join, call?_join, call?_part, call?_part]
    split
    · rw [Option.filter_map]
      rfl
    · rfl

/-- Whoever has the key of the part is listed there by the same calls. -/
theorem mem_followers_part (kindred : flight.Kindred) (found : flight.task? other = some task) :
    other ∈ (flight.part task.key).followers leader ↔ other ∈ flight.followers leader := by
  cases there : flight.call? leader with
  | none =>
    have gone : (flight.part task.key).call? leader = none := by rw [call?_part, there]; rfl
    rw [followers, followers, there, gone]
  | some call =>
    rw [followers_of_call? there]
    by_cases own : call.key = task.key
    · rw [followers_of_call? (call?_part_of_key there own)]
    · -- a call of another key is not in the part, and does not list this task
      have gone : (flight.part task.key).call? leader = none := by simp [call?_part, there, own]
      rw [followers, gone]
      refine iff_of_false List.not_mem_nil fun joined => own ?_
      obtain ⟨task', found', same⟩ := kindred.task? there joined
      rw [← same, Option.some.inj (found.symm.trans found')]

/-- The followers of a call are in its part, so they are woken there too. -/
theorem part_announce {signal : Signal ν ε} (kindred : flight.Kindred) :
    (flight.announce leader signal).part key = (flight.part key).announce leader signal := by
  refine eq_of_views (fun other => ?_) (fun other => ?_) (fun wanted => ?_) ?_
  · rw [task?_part, task?_announce, task?_announce, task?_part]
    cases found : flight.task? other with
    | none => rfl
    | some task =>
      by_cases mine : task.key = key
      · subst mine
        have listed : other ∈ (flight.part task.key).followers leader ↔ _ :=
          mem_followers_part kindred found
        by_cases joined : other ∈ flight.followers leader
        · simp [Option.filter_some, joined, listed.mpr joined, Task.wake]
        · simp [Option.filter_some, joined, mt listed.mp joined]
      · by_cases joined : other ∈ flight.followers leader <;>
          simp [Option.filter_some, joined, mine, Task.wake]
  · rw [call?_part, call?_announce, call?_announce, call?_part, call?_part]
    split
    · rw [Option.filter_map]
      rfl
    · rfl
  · rw [leader?_part, leader?_announce, leader?_announce, leader?_part]
  · rw [poisoned_part, poisoned_announce, poisoned_announce, poisoned_part]

/-- A leader that goes does so in the part as well. Beyond the two commutations before there is the
lock to look at, which is the same in both. -/
theorem part_conclude {signal : Signal ν ε} {phase : Phase} (kindred : flight.Kindred) :
    (flight.conclude id wanted signal phase).part key =
      (flight.part key).conclude id wanted signal phase := by
  unfold conclude
  rw [part_setPhase, poisoned_part]
  split
  · rw [part_announce kindred]
  · have unregistered : (flight.unregister wanted).Kindred := kindred
    rw [part_announce unregistered, part_unregister]

/-- A new call under the key is in the part. -/
theorem part_register_self :
    (flight.register id key).part key = (flight.part key).register id key := by
  refine eq_of_views (fun other => ?_) (fun other => ?_) (fun wanted => ?_) rfl
  · show ((flight.setPhase id _).part key).task? other = _
    rw [part_setPhase]
    rfl
  · rw [call?_part, call?_register, call?_register, call?_part]
    split
    · simp
    · rfl
  · rw [leader?_part, leader?_register, leader?_register, leader?_part]
    by_cases same : key = wanted
    · simp [same]
    · simp [same, Ne.symm same]

/-! ## What is not there is not changed -/

/-- There is neither a task of this id nor a call that it leads or has led. -/
structure Lacks (flight : Flight ν ε) (id : TaskId) : Prop where
  task : flight.task? id = none
  call : flight.call? id = none

/-- There is nothing to change on a task that is not there. -/
theorem update_of_none {change : Task ν ε → Task ν ε} (gone : flight.task? id = none) :
    flight.update id change = flight := by
  refine eq_of_views (fun other => ?_) (fun _ => rfl) (fun _ => rfl) rfl
  rw [task?_update]
  split
  · next same => rw [← same, gone]; rfl
  · rfl

theorem setPhase_of_none {phase : Phase} (gone : flight.task? id = none) :
    flight.setPhase id phase = flight :=
  update_of_none gone

/-- A join between a task and a call that are both missing is no change at all. -/
theorem join_of_none (gone : flight.task? id = none) (noCall : flight.call? leader = none) :
    flight.join id leader = flight := by
  refine eq_of_views (fun other => ?_) (fun other => ?_) (fun _ => rfl) rfl
  · show (flight.setPhase id _).task? other = _
    rw [setPhase_of_none gone]
  · rw [call?_join]
    split
    · next same => rw [← same, noCall]; rfl
    · rfl

/-- A key that is free need not be taken off the registry. -/
theorem unregister_of_none (free : flight.leader? key = none) : flight.unregister key = flight := by
  refine eq_of_views (fun _ => rfl) (fun _ => rfl) (fun wanted => ?_) rfl
  rw [leader?_unregister]
  split
  · next same => rw [← same, free]
  · rfl

/-- A leader that the flight does not have, under a key that is free, can go without a trace. In a
part this is what becomes of every leader of a foreign key. -/
theorem Lacks.conclude {signal : Signal ν ε} {phase : Phase} (lacks : flight.Lacks id)
    (free : flight.leader? key = none) : flight.conclude id key signal phase = flight := by
  have noAnnounce : flight.announce id signal = flight := by rw [announce, lacks.call]
  rw [Flight.conclude, unregister_of_none free, ite_self, noAnnounce, setPhase_of_none lacks.task]

/-- A call is led by a task of its key. -/
theorem Coherent.task?_of_call? {call : Call ν ε} (h : flight.Coherent)
    (found : flight.call? id = some call) :
    ∃ task, flight.task? id = some task ∧ task.key = call.key := by
  have standing : ∃ phase, flight.standing? id = some (call.key, phase) := by
    by_cases pending : call.signal = .pending
    · exact ⟨_, h.openCall found pending⟩
    · obtain ⟨phase, finished, -⟩ := h.overCall found pending
      exact ⟨phase, finished⟩
  obtain ⟨phase, there⟩ := standing
  obtain ⟨task, is, same, -⟩ := task?_of_standing? there
  exact ⟨task, is, same⟩

/-- A task of another key has neither a place nor a call in the part, since a call has the key of
the task that leads it. -/
theorem Coherent.part_lacks (h : flight.Coherent) (found : flight.task? id = some task)
    (foreign : task.key ≠ key) : (flight.part key).Lacks id := by
  constructor
  · rw [task?_part, found]
    simp [Option.filter_some, foreign]
  · rw [call?_part]
    cases there : flight.call? id with
    | none => rfl
    | some call =>
      obtain ⟨task', found', same⟩ := h.task?_of_call? there
      obtain rfl := Option.some.inj (found.symm.trans found')
      simp [Option.filter_some, ← same, foreign]

/-! ## Steps of tasks of other keys -/

/-- A new call under a foreign key does not enter the part. -/
theorem part_register_of_ne (lacks : (flight.part key).Lacks id) (foreign : wanted ≠ key) :
    (flight.register id wanted).part key = flight.part key := by
  refine eq_of_views (fun other => ?_) (fun other => ?_) (fun other => ?_) rfl
  · show ((flight.setPhase id _).part key).task? other = _
    rw [part_setPhase, setPhase_of_none lacks.task]
  · rw [call?_part, call?_register]
    split
    · next same => rw [← same, lacks.call]; simp [Option.filter_some, foreign]
    · rw [call?_part]
  · rw [leader?_part, leader?_register, leader?_part]
    grind

/-- A task spawned under a foreign key does not enter the part. If the id is taken already nothing
is spawned, so the key it was to have does not matter then. -/
theorem part_spawn_of_ne {outcome : Option (Outcome ν ε)} {startFault : Option String}
    (foreign : flight.task? id = none → wanted ≠ key) :
    (flight.spawn id wanted outcome startFault).part key = flight.part key := by
  refine eq_of_views (fun other => ?_) (fun other => ?_) (fun held => ?_) ?_
  · rw [task?_part, task?_spawn, task?_part]
    split
    · next brought =>
      rw [← brought.1, brought.2]
      simp [Option.filter_some, foreign brought.2]
    · rfl
  · rw [call?_part, call?_spawn, call?_part]
  · rw [leader?_part, leader?_spawn, leader?_part]
  · rw [poisoned_part, poisoned_spawn, poisoned_part]

/-- The computation of a leader of another key goes on without the part, unless a copy fails: the
lock that this poisons is the part's too. -/
theorem Driven.part_of_ne {answer : Poll ν ε} (driven : Driven flight id task flight' answer)
    (kindred : flight.Kindred) (lacks : (flight.part key).Lacks id) (foreign : task.key ≠ key)
    (copied : answer ≠ .failed .copyFailed) : flight'.part key = flight.part key := by
  have free : (flight.part key).leader? task.key = none := by rw [leader?_part, if_neg foreign]
  cases driven with
  | computing => rfl
  | publishes => rw [part_conclude kindred, lacks.conclude free]
  | raises => rw [part_conclude kindred, lacks.conclude free]
  | refused => rw [part_conclude kindred, lacks.conclude free]
  | failsToCopy => exact absurd rfl copied

/-- A turn of a task of another key is not felt, unless it poisons the lock. -/
theorem Turn.part_of_ne {polled : Polled ν ε} (turn : Turn flight id task polled)
    (h : flight.Coherent) (kindred : flight.Kindred) (lacks : (flight.part key).Lacks id)
    (standing : flight.standing? id = some (task.key, task.phase)) (foreign : task.key ≠ key)
    (copied : polled.answer ≠ .failed .copyFailed) :
    polled.flight.part key = flight.part key := by
  have registered := part_register_of_ne lacks foreign
  have free : (flight.part key).leader? task.key = none := by rw [leader?_part, if_neg foreign]
  cases turn with
  | waits => rfl
  | receives => rw [part_setPhase, setPhase_of_none lacks.task]
  | refused => rw [part_setPhase, setPhase_of_none lacks.task]
  | joins _ good taken =>
    -- the call that is joined has the other key as well
    obtain ⟨followers, there⟩ := (h.leading (h.registered good taken)).2
    show (flight.join id _).part key = _
    rw [part_join]
    refine join_of_none lacks.task ?_
    rw [call?_part, there]
    simp [Option.filter_some, foreign]
  | failsToStart =>
    rw [part_conclude (kindred.register standing), registered, lacks.conclude free]
  | leads _ _ _ _ driven =>
    have lacks' : ((flight.register id task.key).part key).Lacks id := by rwa [registered]
    exact (driven.part_of_ne (kindred.register standing) lacks' foreign copied).trans registered
  | drives _ driven => exact driven.part_of_ne kindred lacks foreign copied

/-! ## Steps of tasks of the key -/

/-- The computation of a leader of the key goes on alike in the part: its outcome is a matter of the
task, and each way to end is a `conclude`. -/
theorem part_drive (kindred : flight.Kindred) (mine : task.key = key) :
    (flight.drive id task).part key = (flight.part key).drive id task := by
  subst mine
  have completed : ∀ result, (flight.complete id task.key result).part task.key =
      (flight.part task.key).complete id task.key result := by
    intro result
    rw [complete_eq, complete_eq, poisoned_part, ← part_conclude kindred, ← part_conclude kindred]
    split <;> rfl
  have uncopied : (flight.failToPublish id).part task.key =
      (flight.part task.key).failToPublish id := by
    rw [failToPublish_eq task.key, failToPublish_eq task.key, ← part_poison,
      ← part_conclude kindred.poison]
    rfl
  unfold drive
  cases task.outcome with
  | none => rfl
  | some outcome =>
    cases outcome with
    | ok value => exact completed _
    | err error => exact completed _
    | raises text =>
      simp only [release_setPhase, Polled.part, part_conclude kindred]
    | uncopyable value => exact uncopied
    | uncopyableErr error => exact uncopied

/-- A task that becomes a leader does so in the part, with the same outcome of its start. -/
theorem part_lead (kindred : flight.Kindred)
    (standing : flight.standing? id = some (task.key, task.phase)) (mine : task.key = key) :
    (flight.lead id task).part key = (flight.part key).lead id task := by
  subst mine
  have registered : (flight.register id task.key).Kindred := kindred.register standing
  unfold lead
  cases task.startFault with
  | none =>
    have driven : ((flight.register id task.key).drive id task).part task.key = _ :=
      part_drive registered rfl
    rw [part_register_self] at driven
    simp only [← driven]
    rfl
  | some text =>
    simp only [release_setPhase, Polled.part, part_conclude registered, part_register_self]

/-- A task of the key finds in the part the lock and the registration that decide whether it is
refused, leads or joins. -/
theorem part_enlist (kindred : flight.Kindred)
    (standing : flight.standing? id = some (task.key, task.phase)) (mine : task.key = key) :
    (flight.enlist id task).part key = (flight.part key).enlist id task := by
  unfold enlist
  rw [poisoned_part]
  cases flight.poisoned with
  | true => simp only [Polled.part, part_setPhase, if_true]
  | false =>
    rw [mine, leader?_part_self]
    simp only [Bool.false_eq_true, if_false]
    cases flight.leader? key with
    | none => exact part_lead kindred standing mine
    | some leader => simp only [Polled.part, part_join]

/-- What a call of the key shows is shown in the part. -/
theorem signal?_part {call : Call ν ε} (found : flight.call? leader = some call)
    (mine : call.key = key) : (flight.part key).signal? leader = flight.signal? leader := by
  rw [signal?_of_call? found, signal?_of_call? (call?_part_of_key found mine)]

/-- A live task of the key moves in the part as in the whole. The rounds it may take are counted by
all calls in the whole and by those of the key in the part, and for this both have to be coherent:
then the count does not show. -/
theorem part_advance (h : flight.Coherent) (alone : (flight.part key).Coherent)
    (kindred : flight.Kindred) (standing : flight.standing? id = some (task.key, task.phase))
    (mine : task.key = key) :
    (flight.advance id task).part key = (flight.part key).advance id task := by
  unfold advance
  cases phase : task.phase with
  | ended => rfl
  | dropped => rfl
  | leading => exact part_drive kindred mine
  | fresh =>
    -- there are fewer calls to join in the part, but the first round is the last in both
    simp only [enter_eq h, enter_eq alone]
    exact part_enlist kindred standing mine
  | following leader =>
    obtain ⟨call, found, same, -⟩ := h.following (phase ▸ standing)
    have shown := signal?_part found (same.trans mine)
    simp only [await, shown, signal?_of_call? found]
    cases call.signal with
    | pending => rfl
    | published result => simp only [Polled.part, part_setPhase]
    | closed =>
      simp only [enter_eq h, enter_eq alone, ← part_enlist kindred standing mine]
      rfl

/-- Who is over in the whole is over in the part. -/
theorem gone_in_part (finished : ∀ task, flight.task? id = some task → task.phase.isLive = false)
    (task : Task ν ε) (found : (flight.part key).task? id = some task) :
    task.phase.isLive = false := by
  rw [task?_part, Option.filter_eq_some_iff] at found
  exact finished task found.1

/-- A poll of a task of the key, or of none, is the same poll of the part. -/
theorem part_poll (h : flight.Coherent) (alone : (flight.part key).Coherent)
    (kindred : flight.Kindred) (mine : ∀ task, flight.task? id = some task → task.key = key) :
    (flight.poll id).part key = (flight.part key).poll id := by
  obtain ⟨task, found, live⟩ | finished := live_or_gone flight id
  · have attended : (flight.attend id).Kindred := kindred.update fun _ => ⟨rfl, rfl⟩
    have alone' : ((flight.attend id).part key).Coherent := part_attend ▸ alone.attend
    have advanced := part_advance h.attend alone' attended (standing?_attend_of_task? found)
      (mine task found)
    rw [part_attend] at advanced
    unfold poll
    rw [found, task?_part_of_key found (mine task found)]
    simp only [live, if_true]
    exact advanced
  · rw [poll_gone finished, poll_gone (gone_in_part finished)]
    rfl

/-- A task of the key is dropped from the part when it is dropped from the whole. -/
theorem part_abandon (kindred : flight.Kindred)
    (mine : ∀ task, flight.task? id = some task → task.key = key) :
    (flight.part key).abandon id = ((flight.abandon id).1.part key, (flight.abandon id).2) := by
  obtain ⟨task, found, live⟩ | finished := live_or_gone flight id
  · have there := task?_part_of_key found (mine task found)
    by_cases leads : task.phase = .leading
    · rw [abandon_leading found leads, abandon_leading there leads, part_conclude kindred]
    · rw [abandon_idle found live leads, abandon_idle there live leads, part_setPhase]
  · rw [abandon_gone finished, abandon_gone (gone_in_part finished)]

/-- A task spawned under the key is spawned in the part. An id that is taken must be taken by a task
of the key, else the part would not know that it is. -/
theorem part_spawn {outcome : Option (Outcome ν ε)} {startFault : Option String}
    (mine : ∀ task, flight.task? id = some task → task.key = key)
    (brought : flight.task? id = none → wanted = key) :
    (flight.spawn id wanted outcome startFault).part key =
      (flight.part key).spawn id wanted outcome startFault := by
  refine eq_of_views (fun other => ?_) (fun other => ?_) (fun held => ?_) ?_
  · rw [task?_part, task?_spawn, task?_spawn, task?_part, task?_part]
    cases found : flight.task? id with
    | none => by_cases same : id = other <;> simp [Option.filter_some, same, brought found]
    | some task => simp [Option.filter_some, mine task found]
  · rw [call?_part, call?_spawn, call?_spawn, call?_part]
  · rw [leader?_part, leader?_spawn, leader?_spawn, leader?_part]
  · rw [poisoned_part, poisoned_spawn, poisoned_spawn, poisoned_part]

/-- **What is done to a task of a key is done to the part.** It is enough that the key for which the
step is taken, if there is one, is no other. -/
theorem part_apply {op : FlightOp ν ε} (h : flight.Coherent) (alone : (flight.part key).Coherent)
    (kindred : flight.Kindred) (mine : ∀ held, flight.keyFor? op = some held → held = key) :
    (flight.apply op).part key = (flight.part key).apply op := by
  have own : ∀ task, flight.task? op.subject = some task → task.key = key := by
    intro task found
    refine mine task.key ?_
    rw [keyFor?, found]
    rfl
  cases op with
  | spawn id wanted outcome startFault =>
    have brought : flight.task? id = none → wanted = key := by
      intro gone
      refine mine wanted ?_
      rw [keyFor?, FlightOp.subject, gone]
      rfl
    exact congrArg (fun flight => FlightStep.mk flight .done [] []) (part_spawn own brought)
  | poll id =>
    have polled : (flight.poll id).part key = _ := part_poll h alone kindred own
    simp only [Flight.apply, ← polled]
    rfl
  | resolve id outcome =>
    exact congrArg (fun flight => FlightStep.mk flight .done [] []) part_resolve
  | abandon id =>
    have dropped : (flight.part key).abandon id = _ := part_abandon kindred own
    simp only [Flight.apply, dropped]
    rfl

/-- **What is done to a task of another key is not felt in the part**, nor is what is done to
nobody, as long as no copy fails. -/
theorem part_apply_of_ne {op : FlightOp ν ε} (h : flight.Coherent) (kindred : flight.Kindred)
    (foreign : flight.keyFor? op ≠ some key)
    (copied : (flight.apply op).answer ≠ .polled (.failed .copyFailed)) :
    (flight.apply op).flight.part key = flight.part key := by
  have others : ∀ task, flight.task? op.subject = some task → task.key ≠ key := by
    intro task found same
    refine foreign ?_
    rw [keyFor?, found, ← same]
    rfl
  cases op with
  | spawn id wanted outcome startFault =>
    refine part_spawn_of_ne fun gone same => foreign ?_
    rw [keyFor?, FlightOp.subject, gone, same]
    rfl
  | poll id =>
    show (flight.poll id).flight.part key = _
    obtain ⟨task, found, live⟩ | finished := live_or_gone flight id
    · have lacks := h.part_lacks found (others task found)
      have unfelt : (flight.attend id).part key = flight.part key := by
        rw [part_attend]
        exact update_of_none lacks.task
      have attended : (flight.attend id).Kindred := kindred.update fun _ => ⟨rfl, rfl⟩
      have turned := (poll_turn h found live).part_of_ne h.attend attended (unfelt ▸ lacks)
        (standing?_attend_of_task? found) (others task found)
        fun fails => copied (congrArg FlightAnswer.polled fails)
      exact turned.trans unfelt
    · rw [poll_gone finished]
  | resolve id outcome =>
    show (flight.resolve id outcome).part key = _
    rw [part_resolve]
    exact update_of_none (task?_part_of_ne others)
  | abandon id =>
    show (flight.abandon id).1.part key = _
    obtain ⟨task, found, live⟩ | finished := live_or_gone flight id
    · have lacks := h.part_lacks found (others task found)
      have free : (flight.part key).leader? task.key = none := by
        rw [leader?_part, if_neg (others task found)]
      by_cases leads : task.phase = .leading
      · rw [abandon_leading found leads, part_conclude kindred, lacks.conclude free]
      · rw [abandon_idle found live leads, part_setPhase, setPhase_of_none lacks.task]
    · rw [abandon_gone finished]

end Flight

end PeerCache
