import Mathlib.Data.List.Induction
import Mathlib.Data.List.Nodup
import Mathlib.Data.Nat.Init
import PeerCache.Proofs.Flight.Turn

/-!
# The course of a task

A task is spawned, may join calls one after the other, may start its computation once, and is over.
`TaskStep` says which of these a step may be for a task; `apply_taskStep` that each step of a flight
is one of them for every task. The second half of the module names the moments of a history: the
flight before a step, the steps that start something, and who leads.
-/

namespace PeerCache

variable {ν ε : Type}

/-- What one step may do to a task: how its standing goes on, and whether its computation is
started. -/
inductive TaskStep : Option (String × Phase) → Bool → Option (String × Phase) → Prop where
  | stays (standing : Option (String × Phase)) : TaskStep standing false standing
  | comes (key : String) : TaskStep none false (some (key, .fresh))
  | joins {key : String} {old : Phase} (leader : TaskId) (live : old.isLive)
      (idle : old ≠ .leading) : TaskStep (some (key, old)) false (some (key, .following leader))
  | starts {key : String} {old new : Phase} (live : old.isLive) (idle : old ≠ .leading)
      (led : new = .leading ∨ new.isLive = false) :
      TaskStep (some (key, old)) true (some (key, new))
  | ends {key : String} {old new : Phase} (live : old.isLive) (finished : new.isLive = false) :
      TaskStep (some (key, old)) false (some (key, new))

/-- The standing of a task that has no start before it any more. -/
def PastStart (standing : Option (String × Phase)) : Prop :=
  ∃ key phase, standing = some (key, phase) ∧ (phase = .leading ∨ phase.isLive = false)

/-- Of the tasks past their start the only live ones are those that lead. -/
theorem PastStart.not_idle {old : Phase} (h : PastStart (some (key, old))) (live : old.isLive) :
    old = .leading := by
  obtain ⟨_, phase, same, led | finished⟩ := h
  · rw [Option.some.injEq, Prod.mk.injEq] at same
    rw [same.2, led]
  · rw [Option.some.injEq, Prod.mk.injEq] at same
    rw [← same.2, live] at finished
    cases finished

/-- A task that is past its start is not started again and stays past it. -/
theorem TaskStep.pastStart {old new : Option (String × Phase)} {started : Bool}
    (taskStep : TaskStep old started new) (past : PastStart old) :
    started = false ∧ PastStart new := by
  cases taskStep with
  | stays => exact ⟨rfl, past⟩
  | comes => obtain ⟨_, _, same, _⟩ := past; cases same
  | joins leader live idle => exact absurd (past.not_idle live) idle
  | starts live idle => exact absurd (past.not_idle live) idle
  | ends live finished => exact ⟨rfl, _, _, rfl, .inr finished⟩

/-- A start is the last one: it makes the task lead, and it may be over at once. -/
theorem TaskStep.pastStart_of_start {old new : Option (String × Phase)}
    (taskStep : TaskStep old true new) : PastStart new := by
  cases taskStep with
  | starts live idle led => exact ⟨_, _, rfl, led⟩

/-- The standing of a task that is over. -/
def IsOver (standing : Option (String × Phase)) : Prop :=
  ∃ key phase, standing = some (key, phase) ∧ phase.isLive = false

/-- Nothing happens any more to a task that is over. -/
theorem TaskStep.over {old new : Option (String × Phase)} {started : Bool}
    (taskStep : TaskStep old started new) (finished : IsOver old) :
    started = false ∧ new = old := by
  -- every step but the one that leaves things as they are is one of a live task
  obtain ⟨key, phase, rfl, gone⟩ := finished
  cases taskStep with
  | stays => exact ⟨rfl, rfl⟩
  | joins _ live => rw [gone] at live; cases live
  | starts live => rw [gone] at live; cases live
  | ends live => rw [gone] at live; cases live

/-- A task keeps the key it was spawned with. -/
theorem TaskStep.key_eq {key key' : String} {old new : Phase} {started : Bool}
    (taskStep : TaskStep (some (key, old)) started (some (key', new))) : key = key' := by
  cases taskStep <;> rfl

/-- Nobody comes to lead but by a start. -/
theorem TaskStep.leading {old new : Option (String × Phase)} {started : Bool} {key : String}
    (taskStep : TaskStep old started new) (leads : new = some (key, .leading)) :
    old = some (key, .leading) ∨ started = true := by
  cases taskStep with
  | stays => exact .inl leads
  | comes => cases leads
  | joins => cases leads
  | starts => exact .inr rfl
  | ends live finished =>
    rw [Option.some.injEq, Prod.mk.injEq] at leads
    rw [leads.2] at finished
    cases finished

/-- The task that something is done to. -/
def FlightOp.subject : FlightOp ν ε → TaskId
  | .spawn id .. | .poll id | .resolve id _ | .abandon id => id

namespace Flight

variable {flight : Flight ν ε} {id other leader : TaskId} {key : String} {task : Task ν ε}

/-! ## Outcomes stay as they were fixed -/

/-- The outcome fixed for a task. -/
def outcome? (flight : Flight ν ε) (id : TaskId) : Option (Outcome ν ε) :=
  (flight.task? id).bind (·.outcome)

theorem outcome?_of_task? (h : flight.task? id = some task) :
    flight.outcome? id = task.outcome := by
  rw [outcome?, h, Option.bind_some]

/-- A change that leaves the outcome of a task alone leaves that of every task alone. -/
theorem outcome?_update {change : Task ν ε → Task ν ε}
    (same : ∀ task, (change task).outcome = task.outcome) :
    (flight.update id change).outcome? other = flight.outcome? other := by
  unfold outcome?
  rw [task?_update]
  split
  · next eq =>
    subst eq
    cases flight.task? id with
    | none => rfl
    | some task => exact same task
  · rfl

@[simp] theorem outcome?_setPhase {phase : Phase} :
    (flight.setPhase id phase).outcome? other = flight.outcome? other :=
  outcome?_update fun _ => rfl

@[simp] theorem outcome?_register :
    (flight.register id key).outcome? other = flight.outcome? other :=
  outcome?_setPhase

@[simp] theorem outcome?_join : (flight.join id leader).outcome? other = flight.outcome? other :=
  outcome?_setPhase

/-- A leader that goes keeps its outcome. It is read again later, when a history is asked what the
task came to. -/
@[simp] theorem outcome?_conclude {signal : Signal ν ε} {phase : Phase} :
    (flight.conclude id key signal phase).outcome? other = flight.outcome? other := by
  unfold outcome?
  rw [task?_conclude]
  cases flight.task? other with
  | none => rfl
  | some task =>
    simp only [Option.map_some, Option.bind_some]
    split <;> split <;> rfl

@[simp] theorem outcome?_attend : (flight.attend id).outcome? other = flight.outcome? other :=
  outcome?_update fun _ => rfl

/-- A task has from the beginning the outcome it was spawned with. A taken id keeps the task it has,
and with it the outcome. -/
theorem outcome?_spawn {outcome : Option (Outcome ν ε)} {startFault : Option String} :
    (flight.spawn id key outcome startFault).outcome? other =
      if id = other ∧ flight.task? id = none then outcome else flight.outcome? other := by
  unfold outcome?
  rw [task?_spawn]
  split <;> rfl

/-- To resolve a task replaces the outcome it had. Where there is no task, nothing is noted for one
that may come later. -/
theorem outcome?_resolve {outcome : Outcome ν ε} :
    (flight.resolve id outcome).outcome? other =
      if id = other then (flight.task? id).map fun _ => outcome else flight.outcome? other := by
  unfold outcome? resolve
  rw [task?_update]
  split
  · cases flight.task? id <;> rfl
  · rfl

/-! ## Steps and standings -/

/-- In one poll the computation of a leader leaves it leading or over, and nobody else feels
anything: a lock that is poisoned on the way is no part of a standing. -/
theorem Driven.standing? {flight' : Flight ν ε} {answer : Poll ν ε}
    (driven : Driven flight id task flight' answer)
    (standing : flight.standing? id = some (task.key, .leading)) :
    ∃ new : Phase, (new = .leading ∨ new.isLive = false) ∧ ∀ other,
      flight'.standing? other =
        if id = other then some (task.key, new) else flight.standing? other := by
  cases driven with
  | computing =>
    refine ⟨.leading, .inl rfl, fun other => ?_⟩
    split
    · next same => rw [← same, standing]
    · rfl
  | publishes => exact ⟨.ended, .inr rfl, fun _ => standing?_conclude standing⟩
  | raises => exact ⟨.ended, .inr rfl, fun _ => standing?_conclude standing⟩
  | refused => exact ⟨.ended, .inr rfl, fun _ => standing?_conclude standing⟩
  | failsToCopy =>
    -- the lock is poisoned first; no standing is changed by that
    have poisoned : flight.poison.standing? id = some (task.key, .leading) := standing
    exact ⟨.ended, .inr rfl, fun _ => standing?_conclude poisoned⟩

/-- A turn takes the task whose turn it is one step on, and nobody else feels it. -/
theorem Turn.taskStep {polled : Polled ν ε} (turn : Turn flight id task polled)
    (standing : flight.standing? id = some (task.key, task.phase)) :
    TaskStep (flight.standing? id) polled.started (polled.flight.standing? id) ∧
      ∀ other, id ≠ other → polled.flight.standing? other = flight.standing? other := by
  have registered := standing?_register_self standing
  -- in every turn but a waiting one `id` gets a new standing, and `if_neg` is left for the others
  cases turn with
  | waits => exact ⟨.stays _, fun _ _ => rfl⟩
  | receives phase =>
    simp only [standing?_setPhase standing, if_true, standing]
    exact ⟨.ends (by rw [phase]; rfl) rfl, fun _ apart => if_neg apart⟩
  | refused seeks =>
    simp only [standing?_setPhase standing, if_true, standing]
    exact ⟨.ends seeks.live.1 rfl, fun _ apart => if_neg apart⟩
  | joins seeks =>
    simp only [standing?_join standing, if_true, standing]
    exact ⟨.joins _ seeks.live.1 seeks.live.2, fun _ apart => if_neg apart⟩
  | failsToStart seeks =>
    simp only [standing?_conclude registered, standing?_register standing, if_true, standing]
    refine ⟨.starts seeks.live.1 seeks.live.2 (.inr rfl), fun _ apart => ?_⟩
    rw [if_neg apart, if_neg apart]
  | leads seeks _ _ _ driven =>
    -- started, and driven at once: it still leads or is over already
    obtain ⟨new, led, after⟩ := driven.standing? registered
    simp only [after, standing?_register standing, if_true, standing]
    refine ⟨.starts seeks.live.1 seeks.live.2 led, fun _ apart => ?_⟩
    rw [if_neg apart, if_neg apart]
  | drives phase driven =>
    rw [phase] at standing
    obtain ⟨new, led, after⟩ := driven.standing? standing
    simp only [after, if_true, standing]
    refine ⟨?_, fun _ apart => if_neg apart⟩
    cases led with
    | inl leading => rw [leading]; exact .stays _
    | inr finished => exact .ends rfl finished

/-- A poll takes the polled task one step on and no other, also where there is nothing to poll. -/
theorem Coherent.poll_taskStep (h : flight.Coherent) (id : TaskId) :
    TaskStep (flight.standing? id) (flight.poll id).started ((flight.poll id).flight.standing? id) ∧
      ∀ other, id ≠ other →
        (flight.poll id).flight.standing? other = flight.standing? other := by
  obtain ⟨task, found, live⟩ | finished := live_or_gone flight id
  · have standing := standing?_attend_of_task? found
    have taskStep := (poll_turn h found live).taskStep standing
    simpa only [standing?_attend] using taskStep
  · rw [poll_gone finished]
    exact ⟨.stays _, fun _ _ => rfl⟩

/-- To drop a task ends it, if it is not over already, and starts nothing. Its followers are woken
when it led, but their standing is the same. -/
theorem abandon_taskStep (flight : Flight ν ε) (id : TaskId) :
    TaskStep (flight.standing? id) false ((flight.abandon id).1.standing? id) ∧
      ∀ other, id ≠ other → (flight.abandon id).1.standing? other = flight.standing? other := by
  obtain ⟨task, found, live⟩ | finished := live_or_gone flight id
  · have standing := standing?_of_task? found
    by_cases leads : task.phase = .leading
    · rw [abandon_leading found leads]
      simp only [standing?_conclude standing, if_true, standing]
      exact ⟨.ends live rfl, fun _ apart => if_neg apart⟩
    · rw [abandon_idle found live leads]
      simp only [standing?_setPhase standing, if_true, standing]
      exact ⟨.ends live rfl, fun _ apart => if_neg apart⟩
  · rw [abandon_gone finished]
    exact ⟨.stays _, fun _ _ => rfl⟩

/-- A poll can start one computation only, that of the polled task. -/
theorem mem_started_poll :
    other ∈ (flight.apply (.poll id)).started ↔ id = other ∧ (flight.poll id).started = true := by
  show other ∈ (if (flight.poll id).started then [id] else []) ↔ _
  split
  · next started => simp [started, eq_comm]
  · next idle => simp [idle]

/-- **Each step takes its subject one step on, and nobody else feels it.** -/
theorem Coherent.apply_taskStep (h : flight.Coherent) (op : FlightOp ν ε) (id : TaskId) :
    TaskStep (flight.standing? id) (decide (id ∈ (flight.apply op).started))
      ((flight.apply op).flight.standing? id) ∧
      (op.subject ≠ id →
        (flight.apply op).flight.standing? id = flight.standing? id) := by
  cases op with
  | spawn new key outcome startFault =>
    simp only [Flight.apply, List.not_mem_nil, decide_false, standing?_spawn, FlightOp.subject]
    constructor
    · split
      · next is => rw [← is.1, is.2]; exact .comes key
      · exact .stays _
    · exact fun apart => if_neg fun is => apart is.1
  | poll polled =>
    have taskStep := h.poll_taskStep polled
    -- a poll starts the computation of the task that is polled or none
    have mine : decide (id ∈ (flight.apply (.poll polled)).started) =
        (decide (polled = id) && (flight.poll polled).started) := by
      rw [Bool.eq_iff_iff, decide_eq_true_iff, mem_started_poll, Bool.and_eq_true,
        decide_eq_true_iff]
    rw [mine]
    by_cases same : polled = id
    · subst same
      rw [decide_eq_true rfl, Bool.true_and]
      exact ⟨taskStep.1, fun apart => absurd rfl apart⟩
    · have kept : (flight.apply (.poll polled)).flight.standing? id = flight.standing? id :=
        taskStep.2 id same
      rw [kept, decide_eq_false same, Bool.false_and]
      exact ⟨.stays _, fun _ => rfl⟩
  | resolve resolved outcome =>
    have kept : (flight.resolve resolved outcome).standing? id = flight.standing? id :=
      standing?_update fun _ => ⟨rfl, rfl⟩
    simp only [Flight.apply, List.not_mem_nil, decide_false]
    refine ⟨?_, fun _ => kept⟩
    rw [kept]
    exact .stays _
  | abandon dropped =>
    have taskStep := abandon_taskStep flight dropped
    simp only [Flight.apply, List.not_mem_nil, decide_false, FlightOp.subject]
    by_cases same : dropped = id
    · subst same
      exact ⟨taskStep.1, fun apart => absurd rfl apart⟩
    · rw [taskStep.2 id same]
      exact ⟨.stays _, fun _ => rfl⟩

/-! ## Moments of a history -/

variable {ops : List (FlightOp ν ε)} {op : FlightOp ν ε} {n : Nat}

/-- The flight before step `n` of a history. -/
def before (ops : List (FlightOp ν ε)) (n : Nat) : Flight ν ε :=
  ({} : Flight ν ε).after (ops.take n)

/-- Step `n` of a history. -/
def stepAt (ops : List (FlightOp ν ε)) (n : Nat) : Option (FlightStep ν ε) :=
  (({} : Flight ν ε).play ops)[n]?

/-- The tasks whose computations a history starts, in order. -/
def startedIn (ops : List (FlightOp ν ε)) : List TaskId :=
  (({} : Flight ν ε).play ops).flatMap (·.started)

/-- The maps agree at every moment, since the flight of a moment is that after a shorter history. -/
theorem coherent_before (ops : List (FlightOp ν ε)) (n : Nat) : (before ops n).Coherent :=
  coherent_after _

/-- One step more in a history is one step more in its play, done to the flight after the rest.
Histories are built at the front and read at the back, so this is an induction with the flight
generalized. -/
theorem play_append_singleton :
    flight.play (ops ++ [op]) = flight.play ops ++ [(flight.after ops).apply op] := by
  induction ops generalizing flight with
  | nil => rfl
  | cons head rest ih =>
    rw [List.cons_append, play, ih, play]
    rfl

/-- Step `n` of a play is what operation `n` does to the flight after those before it. -/
theorem getElem?_play :
    (flight.play ops)[n]? = ops[n]?.map (flight.after (ops.take n)).apply := by
  induction ops generalizing flight n with
  | nil => rfl
  | cons head rest ih =>
    cases n with
    | zero => rfl
    | succ n =>
      rw [play, List.getElem?_cons_succ, ih, List.getElem?_cons_succ]
      rfl

/-- The step of a moment is what its operation does to the flight of the moment. -/
theorem stepAt_eq (h : ops[n]? = some op) : stepAt ops n = some ((before ops n).apply op) := by
  rw [stepAt, getElem?_play, h, Option.map_some]
  rfl

/-- From one moment to the next the flight is changed by the operation in between. -/
theorem before_succ (h : ops[n]? = some op) :
    before ops (n + 1) = ((before ops n).apply op).flight := by
  rw [before, List.take_add_one, h, after_append]
  rfl

/-- Past the end of a history nothing happens any more. -/
theorem before_succ_of_none (ended : ops[n]? = none) : before ops (n + 1) = before ops n := by
  rw [before, before, List.take_add_one, ended, Option.toList_none, List.append_nil]

/-- What a history has started grows at the end, by what its last operation starts. -/
theorem startedIn_append_singleton :
    startedIn (ops ++ [op]) =
      startedIn ops ++ ((({} : Flight ν ε).after ops).apply op).started := by
  rw [startedIn, play_append_singleton, List.flatMap_append, List.flatMap_singleton]
  rfl

/-- What has been started up to a moment grows from there to the next one by what the operation in
between starts. -/
theorem startedIn_take_succ (h : ops[n]? = some op) :
    startedIn (ops.take (n + 1)) =
      startedIn (ops.take n) ++ ((before ops n).apply op).started := by
  rw [List.take_add_one, h]
  exact startedIn_append_singleton

/-- What every step keeps is kept from one moment to a later one. -/
theorem keeps_before {P : Flight ν ε → Prop} {m : Nat}
    (step : ∀ flight op, flight.Coherent → P flight → P (flight.apply op).flight) (le : n ≤ m)
    (start : P (before ops n)) : P (before ops m) := by
  induction m, le using Nat.le_induction with
  | base => exact start
  | succ m _ ih =>
    cases found : ops[m]? with
    | none =>
      rw [before_succ_of_none found]
      exact ih
    | some op =>
      rw [before_succ found]
      exact step _ op (coherent_before ops m) ih

/-- In step `n` of a history the computation of `id` is started. -/
def StartsAt (ops : List (FlightOp ν ε)) (n : Nat) (id : TaskId) : Prop :=
  ∃ step, stepAt ops n = some step ∧ id ∈ step.started

/-- Where the operation of a moment is known, a start at that moment is one that the operation does
to the flight of that moment. -/
theorem startsAt_iff (found : ops[n]? = some op) :
    StartsAt ops n id ↔ id ∈ ((before ops n).apply op).started := by
  unfold StartsAt
  rw [stepAt_eq found]
  constructor
  · rintro ⟨_, same, mem⟩
    exact Option.some.inj same ▸ mem
  · exact fun mem => ⟨_, rfl, mem⟩

/-- There are no starts past the end of a history. -/
theorem StartsAt.exists_op (starts : StartsAt ops n id) : ∃ op, ops[n]? = some op := by
  obtain ⟨step, there, -⟩ := starts
  cases found : ops[n]? with
  | none => rw [stepAt, getElem?_play, found] at there; cases there
  | some op => exact ⟨op, rfl⟩

/-- Who is started at some moment is started in the history. -/
theorem StartsAt.mem_startedIn (starts : StartsAt ops n id) : id ∈ startedIn ops := by
  obtain ⟨step, there, mem⟩ := starts
  exact List.mem_flatMap.mpr ⟨step, List.mem_of_getElem? there, mem⟩

/-- Who has been started up to a moment was started in one of the steps before it. Induction on the
moment, of which those past the end are like the last. -/
theorem mem_startedIn_take_iff :
    id ∈ startedIn (ops.take n) ↔ ∃ m < n, StartsAt ops m id := by
  induction n with
  | zero => simp [startedIn, play]
  | succ n ih =>
    cases found : ops[n]? with
    | none =>
      have idle : ¬ StartsAt ops n id := by
        intro starts
        obtain ⟨op, there⟩ := starts.exists_op
        cases found.symm.trans there
      rw [List.take_add_one, found, Option.toList_none, List.append_nil, ih]
      grind
    | some op =>
      rw [startedIn_take_succ found, List.mem_append, ih, ← startsAt_iff found]
      grind

/-! ## Who leads -/

/-- The task is at the head of a live call under `key`: the history has started its computation, and
it has neither returned nor failed nor been dropped. -/
def LiveLeader (ops : List (FlightOp ν ε)) (id : TaskId) (key : String) : Prop :=
  id ∈ startedIn ops ∧
    ∃ phase, (({} : Flight ν ε).after ops).standing? id = some (key, phase) ∧ phase.isLive

/-- One operation does not start a computation twice, as it starts one at most. -/
theorem started_nodup : (flight.apply op).started.Nodup := by
  cases op with
  | spawn => exact List.nodup_nil
  | resolve => exact List.nodup_nil
  | abandon => exact List.nodup_nil
  | poll id =>
    show (if (flight.poll id).started then [id] else []).Nodup
    split
    · exact List.nodup_singleton id
    · exact List.nodup_nil

/-- No computation is started twice, and whoever's is started is past its start. -/
theorem startedIn_pastStart (ops : List (FlightOp ν ε)) :
    (startedIn ops).Nodup ∧
      ∀ id ∈ startedIn ops, PastStart ((({} : Flight ν ε).after ops).standing? id) := by
  induction ops using List.reverseRecOn with
  | nil => exact ⟨List.nodup_nil, nofun⟩
  | append_singleton ops op ih =>
    obtain ⟨distinct, past⟩ := ih
    have taskStep := fun id => ((coherent_after ops).apply_taskStep op id).1
    rw [startedIn_append_singleton, after_append]
    constructor
    · -- a task that was started before is past its start, so this step does not start it
      refine List.nodup_append.mpr ⟨distinct, started_nodup, ?_⟩
      rintro id old _ new rfl
      have idle := ((taskStep id).pastStart (past id old)).1
      exact absurd new (decide_eq_false_iff_not.mp idle)
    · intro id mem
      show PastStart ((({} : Flight ν ε).after ops).apply op |>.flight.standing? id)
      rcases List.mem_append.mp mem with old | new
      · exact ((taskStep id).pastStart (past id old)).2
      · have starts := taskStep id
        rw [decide_eq_true new] at starts
        exact starts.pastStart_of_start

/-- Who leads has been started. Induction on the history from its end: either the last operation
made it lead, which is a start, or it led before. -/
theorem mem_startedIn_of_leading (ops : List (FlightOp ν ε))
    (leads : (({} : Flight ν ε).after ops).standing? id = some (key, .leading)) :
    id ∈ startedIn ops := by
  induction ops using List.reverseRecOn with
  | nil => rw [after_nil, standing?_empty] at leads; cases leads
  | append_singleton ops op ih =>
    rw [startedIn_append_singleton, List.mem_append]
    rw [after_append] at leads
    have taskStep := ((coherent_after ops).apply_taskStep op id).1
    obtain before | new := taskStep.leading leads
    · exact .inl (ih before)
    · exact .inr (of_decide_eq_true new)

/-- Whoever leads at some moment is started in the history. -/
theorem mem_startedIn_of_leading_before {key : String}
    (leads : (before ops n).standing? id = some (key, .leading)) : id ∈ startedIn ops := by
  have started := mem_startedIn_of_leading (ops.take n) leads
  obtain ⟨m, -, starts⟩ := mem_startedIn_take_iff.mp started
  exact starts.mem_startedIn

/-- A task is at the head of a live call exactly as long as it leads. -/
theorem liveLeader_iff :
    LiveLeader ops id key ↔
      (({} : Flight ν ε).after ops).standing? id = some (key, .leading) := by
  constructor
  · rintro ⟨started, phase, standing, live⟩
    -- past its start and not over: there is only leading left
    have past := (startedIn_pastStart ops).2 id started
    rw [standing] at past
    rw [standing, past.not_idle live]
  · intro leads
    exact ⟨mem_startedIn_of_leading ops leads, .leading, leads, rfl⟩

theorem liveLeader_take_iff :
    LiveLeader (ops.take n) id key ↔ (before ops n).standing? id = some (key, .leading) :=
  liveLeader_iff

end Flight

end PeerCache
