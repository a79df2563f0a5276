import PeerCache.Proofs.Flight.Views

/-!
# Tasks, calls and registry agree

`Coherent` is what ties the three maps of a flight to each other. It says nothing of who is awake
and nothing of the past, and it holds with a poisoned lock too, where only its last clause is void.

Each change to a flight keeps it, under the conditions the change is made under
(`Coherent.register`, `.join`, `.retire`, `.conclude`, `.poison`); a change that leaves every task
its key and phase keeps it anyway (`Coherent.congr`). The steps of a flight are put together from
these in `PeerCache.Proofs.Flight.Turn`.
-/

namespace PeerCache.Flight

variable {ν ε : Type} {flight : Flight ν ε} {id other leader : TaskId} {key : String}

/-! ## The standing of a task -/

/-- The key of a task and how far it has come: all that other tasks can come to feel of it. -/
def standing? (flight : Flight ν ε) (id : TaskId) : Option (String × Phase) :=
  (flight.task? id).map fun task => (task.key, task.phase)

/-- The standing forgets of a task what only concerns itself. -/
theorem standing?_of_task? {task : Task ν ε} (h : flight.task? id = some task) :
    flight.standing? id = some (task.key, task.phase) := by
  rw [standing?, h, Option.map_some]

/-- A standing is that of a task, whose outcome and wakefulness it leaves open. -/
theorem task?_of_standing? {phase : Phase} (h : flight.standing? id = some (key, phase)) :
    ∃ task, flight.task? id = some task ∧ task.key = key ∧ task.phase = phase := by
  obtain ⟨task, found, same⟩ := Option.map_eq_some_iff.mp h
  rw [Prod.mk.injEq] at same
  exact ⟨task, found, same⟩

/-- A change that keeps key and phase is not felt. -/
theorem standing?_update {change : Task ν ε → Task ν ε}
    (same : ∀ task, (change task).key = task.key ∧ (change task).phase = task.phase) :
    (flight.update id change).standing? other = flight.standing? other := by
  unfold standing?
  rw [task?_update]
  split
  · next eq =>
    subst eq
    rw [Option.map_map]
    congr 1
    funext task
    exact Prod.ext (same task).1 (same task).2
  · rfl

/-- A task known to be there moves to a new phase and keeps its key, and nobody else is touched. -/
theorem standing?_setPhase {old phase : Phase} (h : flight.standing? id = some (key, old)) :
    (flight.setPhase id phase).standing? other =
      if id = other then some (key, phase) else flight.standing? other := by
  obtain ⟨task, found, rfl, -⟩ := task?_of_standing? h
  unfold standing?
  rw [task?_setPhase, found]
  split <;> rfl

/-- What is felt of a registration: the task leads. -/
theorem standing?_register {old : Phase} (h : flight.standing? id = some (key, old)) :
    (flight.register id key).standing? other =
      if id = other then some (key, .leading) else flight.standing? other :=
  standing?_setPhase h

/-- What is felt of a join: the task follows. That the call lists it is not part of a standing. -/
theorem standing?_join {old : Phase} (h : flight.standing? id = some (key, old)) :
    (flight.join id leader).standing? other =
      if id = other then some (key, .following leader) else flight.standing? other :=
  standing?_setPhase h

/-- Of a leader that goes, the others feel no more than that it is over. Its followers are woken,
but none of them has moved. -/
theorem standing?_conclude {old phase : Phase} {signal : Signal ν ε}
    (h : flight.standing? id = some (key, old)) :
    (flight.conclude id key signal phase).standing? other =
      if id = other then some (key, phase) else flight.standing? other := by
  by_cases same : id = other
  · obtain ⟨task, found, rfl, -⟩ := task?_of_standing? h
    obtain ⟨woken, after⟩ : ∃ woken, (flight.conclude id task.key signal phase).task? id =
        some { task with phase, woken } := task?_conclude_self found
    rw [if_pos same, ← same, standing?_of_task? after]
  · rw [if_neg same]
    unfold standing?
    rw [task?_conclude_of_ne same, Option.map_map]
    congr 1
    funext task
    by_cases joined : other ∈ flight.followers id <;> simp [joined, Task.wake]

theorem standing?_setPhase_self {old phase : Phase} (h : flight.standing? id = some (key, old)) :
    (flight.setPhase id phase).standing? id = some (key, phase) :=
  (standing?_setPhase h).trans (if_pos rfl)

theorem standing?_register_self {old : Phase} (h : flight.standing? id = some (key, old)) :
    (flight.register id key).standing? id = some (key, .leading) :=
  (standing?_register h).trans (if_pos rfl)

theorem standing?_join_self {old : Phase} (h : flight.standing? id = some (key, old)) :
    (flight.join id leader).standing? id = some (key, .following leader) :=
  (standing?_join h).trans (if_pos rfl)

theorem standing?_conclude_self {old phase : Phase} {signal : Signal ν ε}
    (h : flight.standing? id = some (key, old)) :
    (flight.conclude id key signal phase).standing? id = some (key, phase) :=
  (standing?_conclude h).trans (if_pos rfl)

/-- A new task is felt only where the id was free. -/
theorem standing?_spawn {outcome : Option (Outcome ν ε)} {startFault : Option String} :
    (flight.spawn id key outcome startFault).standing? other =
      if id = other ∧ flight.standing? id = none then some (key, .fresh)
      else flight.standing? other := by
  unfold standing?
  rw [task?_spawn]
  cases flight.task? id with
  | some task => simp
  | none => by_cases same : id = other <;> simp [same]

@[simp] theorem standing?_poison : flight.poison.standing? other = flight.standing? other := rfl

@[simp] theorem standing?_empty : ({} : Flight ν ε).standing? id = none := by
  simp [standing?, task?]

/-! ## The agreement -/

/-- Tasks, calls and registry agree. -/
structure Coherent (flight : Flight ν ε) : Prop where
  /-- A task that leads is the one registered for its key, and its own call is open. -/
  leading : ∀ {id : TaskId} {key : String}, flight.standing? id = some (key, .leading) →
    flight.leader? key = some id ∧ ∃ followers, flight.call? id = some ⟨key, .pending, followers⟩
  /-- A task that follows has joined a call of its own key, which lists it while it is open. -/
  following : ∀ {id leader : TaskId} {key : String},
    flight.standing? id = some (key, .following leader) →
      ∃ call, flight.call? leader = some call ∧ call.key = key ∧
        (call.signal = .pending → id ∈ call.followers)
  /-- An open call has a leader at work. -/
  openCall : ∀ {id : TaskId} {call : Call ν ε}, flight.call? id = some call →
    call.signal = .pending → flight.standing? id = some (call.key, .leading)
  /-- A call that is not open had a leader, who is over. -/
  overCall : ∀ {id : TaskId} {call : Call ν ε}, flight.call? id = some call →
    call.signal ≠ .pending →
      ∃ phase, flight.standing? id = some (call.key, phase) ∧ phase.isLive = false
  /-- While the lock is good, the registry holds leaders at work and nothing else. -/
  registered : flight.poisoned = false → ∀ {key : String} {leader : TaskId},
    flight.leader? key = some leader → flight.standing? leader = some (key, .leading)

/-- A new flight has nothing that could disagree. -/
theorem coherent_empty : Coherent ({} : Flight ν ε) := by
  constructor <;> simp [call?, leader?]

namespace Coherent

/-- A call is there only for a task that leads or is over. -/
theorem call?_eq_none {phase : Phase} (h : flight.Coherent)
    (standing : flight.standing? id = some (key, phase)) (live : phase.isLive)
    (idle : phase ≠ .leading) : flight.call? id = none := by
  cases found : flight.call? id with
  | none => rfl
  | some call =>
    -- an open call has a leader at work, any other one a leader who is over: `id` is neither
    exfalso
    by_cases pending : call.signal = .pending
    · have leads := h.openCall found pending
      rw [standing, Option.some.injEq, Prod.mk.injEq] at leads
      exact idle leads.2
    · obtain ⟨last, finished, gone⟩ := h.overCall found pending
      rw [standing, Option.some.injEq, Prod.mk.injEq] at finished
      rw [← finished.2, live] at gone
      cases gone

/-- Nobody follows a task that has no call. -/
theorem not_following {phase : Phase} {wanted : String} (h : flight.Coherent)
    (standing : flight.standing? id = some (key, phase)) (live : phase.isLive)
    (idle : phase ≠ .leading) : flight.standing? other ≠ some (wanted, .following id) := by
  intro follows
  obtain ⟨call, found, -⟩ := h.following follows
  rw [h.call?_eq_none standing live idle] at found
  cases found

/-! ## What keeps the agreement -/

/-- The agreement depends on standings, calls and the registry only. A lock may become poisoned on
the way, because that makes no clause stronger. -/
theorem congr {flight' : Flight ν ε} (h : flight.Coherent)
    (tasks : ∀ id, flight'.standing? id = flight.standing? id)
    (calls : ∀ id, flight'.call? id = flight.call? id)
    (leaders : ∀ key, flight'.leader? key = flight.leader? key)
    (poisoned : flight'.poisoned = false → flight.poisoned = false) : flight'.Coherent := by
  constructor
  case leading =>
    intro id key leads
    rw [tasks] at leads
    rw [leaders, calls]
    exact h.leading leads
  case following =>
    intro id leader key follows
    rw [tasks] at follows
    rw [calls]
    exact h.following follows
  case openCall =>
    intro id call found pending
    rw [calls] at found
    rw [tasks]
    exact h.openCall found pending
  case overCall =>
    intro id call found finished
    rw [calls] at found
    rw [tasks]
    exact h.overCall found finished
  case registered =>
    intro good key leader found
    rw [leaders] at found
    rw [tasks]
    exact h.registered (poisoned good) found

/-- A change that cannot be felt keeps the agreement. -/
theorem update {change : Task ν ε → Task ν ε} (h : flight.Coherent)
    (same : ∀ task, (change task).key = task.key ∧ (change task).phase = task.phase) :
    (flight.update id change).Coherent :=
  h.congr (fun _ => standing?_update same) (fun _ => rfl) (fun _ => rfl) fun good => good

/-- To poison the lock only takes the last clause away. -/
theorem poison (h : flight.Coherent) : flight.poison.Coherent :=
  h.congr (fun _ => rfl) (fun _ => rfl) (fun _ => rfl) fun good => nomatch good

/-- A fresh task takes part in nothing yet, so there is nothing it could disagree with. If the id is
taken the flight stays as it is. -/
theorem spawn {outcome : Option (Outcome ν ε)} {startFault : Option String} (h : flight.Coherent) :
    (flight.spawn id key outcome startFault).Coherent := by
  -- whoever has a standing keeps it, and a new task has no part in a call yet
  have kept : ∀ {other : TaskId} {standing : String × Phase},
      flight.standing? other = some standing →
        (flight.spawn id key outcome startFault).standing? other = some standing := by
    intro other standing found
    rw [standing?_spawn]
    grind
  constructor
  case leading =>
    intro other wanted leads
    rw [leader?_spawn, call?_spawn]
    rw [standing?_spawn] at leads
    exact h.leading (by grind)
  case following =>
    intro other leader wanted follows
    rw [call?_spawn]
    rw [standing?_spawn] at follows
    exact h.following (by grind)
  case openCall =>
    intro other call found pending
    rw [call?_spawn] at found
    exact kept (h.openCall found pending)
  case overCall =>
    intro other call found finished
    rw [call?_spawn] at found
    obtain ⟨phase, standing, gone⟩ := h.overCall found finished
    exact ⟨phase, kept standing, gone⟩
  case registered =>
    intro good wanted leader found
    rw [poisoned_spawn] at good
    rw [leader?_spawn] at found
    exact kept (h.registered good found)

/-- A task without a call of its own goes. -/
theorem retire {old phase : Phase} (h : flight.Coherent)
    (standing : flight.standing? id = some (key, old)) (live : old.isLive) (idle : old ≠ .leading)
    (gone : phase.isLive = false) : (flight.setPhase id phase).Coherent := by
  -- so `id` is in nobody's way: no call names it as its leader, before or after
  have noCall := h.call?_eq_none standing live idle
  constructor
  case leading =>
    intro other wanted leads
    rw [leader?_setPhase, call?_setPhase]
    rw [standing?_setPhase standing] at leads
    exact h.leading (by grind [Phase.isLive])
  case following =>
    intro other leader wanted follows
    rw [call?_setPhase]
    rw [standing?_setPhase standing] at follows
    exact h.following (by grind [Phase.isLive])
  case openCall =>
    intro other call found pending
    rw [call?_setPhase] at found
    have leads := h.openCall found pending
    rw [standing?_setPhase standing]
    grind
  case overCall =>
    intro other call found finished
    rw [call?_setPhase] at found
    have left := h.overCall found finished
    rw [standing?_setPhase standing]
    grind
  case registered =>
    intro good wanted leader found
    have leads := h.registered good found
    rw [standing?_setPhase standing]
    grind

/-- A task without a call finds its key free and becomes the leader of a new call. -/
theorem register {old : Phase} (h : flight.Coherent)
    (standing : flight.standing? id = some (key, old)) (live : old.isLive) (idle : old ≠ .leading)
    (free : flight.leader? key = none) : (flight.register id key).Coherent := by
  have noCall := h.call?_eq_none standing live idle
  have noFollower : ∀ other wanted, flight.standing? other ≠ some (wanted, .following id) :=
    fun _ _ => h.not_following standing live idle
  constructor
  case leading =>
    intro other wanted leads
    rw [standing?_register standing] at leads
    rw [leader?_register, call?_register]
    by_cases same : id = other
    · rw [if_pos same, Option.some.injEq, Prod.mk.injEq] at leads
      rw [if_pos leads.1, if_pos same, same]
      exact ⟨rfl, [], by rw [leads.1]⟩
    · rw [if_neg same] at leads
      have before := h.leading leads
      -- the key was free, so whoever leads already leads under another one
      have apart : key ≠ wanted := by
        intro eq
        rw [← eq, free] at before
        cases before.1
      rw [if_neg apart, if_neg same]
      exact before
  case following =>
    intro other leader wanted follows
    -- the new call has no follower yet, so whoever follows has joined another one
    rw [standing?_register standing] at follows
    have before : flight.standing? other = some (wanted, .following leader) := by grind
    have apart : id ≠ leader := fun eq => noFollower other wanted (eq ▸ before)
    rw [call?_register, if_neg apart]
    exact h.following before
  case openCall =>
    intro other call found pending
    rw [call?_register] at found
    rw [standing?_register standing]
    by_cases same : id = other
    · rw [if_pos same, Option.some.injEq] at found
      rw [if_pos same, ← found]
    · rw [if_neg same] at found ⊢
      exact h.openCall found pending
  case overCall =>
    intro other call found finished
    rw [call?_register] at found
    rw [standing?_register standing]
    by_cases same : id = other
    · -- the new call is open
      rw [if_pos same, Option.some.injEq] at found
      rw [← found] at finished
      exact absurd rfl finished
    · rw [if_neg same] at found ⊢
      exact h.overCall found finished
  case registered =>
    intro good wanted leader found
    rw [leader?_register] at found
    rw [standing?_register standing]
    by_cases same : key = wanted
    · rw [if_pos same, Option.some.injEq] at found
      rw [if_pos found, same]
    · rw [if_neg same] at found
      have leads := h.registered good found
      have apart : id ≠ leader := by
        intro eq
        rw [← eq, standing, Option.some.injEq, Prod.mk.injEq] at leads
        exact idle leads.2
      rw [if_neg apart]
      exact leads

/-- A task without a call finds its key taken and follows the leader it finds there. -/
theorem join {old : Phase} (h : flight.Coherent)
    (standing : flight.standing? id = some (key, old)) (live : old.isLive) (idle : old ≠ .leading)
    (good : flight.poisoned = false) (taken : flight.leader? key = some leader) :
    (flight.join id leader).Coherent := by
  have noCall := h.call?_eq_none standing live idle
  -- the registry names a leader at work, so the call that is joined is there and open
  obtain ⟨followers, callThere⟩ := (h.leading (h.registered good taken)).2
  constructor
  case leading =>
    intro other wanted leads
    rw [standing?_join standing] at leads
    rw [leader?_join, call?_join]
    have leads' : flight.standing? other = some (wanted, .leading) := by grind
    have before := h.leading leads'
    grind
  case following =>
    intro other head wanted follows
    rw [standing?_join standing] at follows
    rw [call?_join]
    by_cases same : id = other
    · -- `id` itself is now among the followers of the call
      grind
    · rw [if_neg same] at follows
      have before := h.following follows
      grind
  case openCall =>
    intro other call found pending
    rw [call?_join] at found
    rw [standing?_join standing]
    have before := @h.openCall other
    grind
  case overCall =>
    intro other call found finished
    rw [call?_join] at found
    rw [standing?_join standing]
    have before := @h.overCall other
    grind
  case registered =>
    intro good wanted head found
    have leads := h.registered good found
    rw [standing?_join standing]
    grind

/-- A leader goes, having published or not. -/
theorem conclude {phase : Phase} {signal : Signal ν ε} (h : flight.Coherent)
    (standing : flight.standing? id = some (key, .leading)) (gone : phase.isLive = false)
    (final : signal ≠ .pending) : (flight.conclude id key signal phase).Coherent := by
  obtain ⟨mine, followers, callThere⟩ := h.leading standing
  constructor
  case leading =>
    intro other wanted leads
    rw [standing?_conclude standing] at leads
    rw [leader?_conclude, call?_conclude]
    by_cases same : id = other
    · grind [Phase.isLive]
    · -- another leader has another key, since this one was registered for `id`
      rw [if_neg same] at leads
      have before := h.leading leads
      grind
  case following =>
    intro other leader wanted follows
    rw [standing?_conclude standing] at follows
    rw [call?_conclude]
    by_cases same : id = other
    · grind [Phase.isLive]
    · rw [if_neg same] at follows
      have before := h.following follows
      grind
  case openCall =>
    intro other call found pending
    rw [call?_conclude] at found
    rw [standing?_conclude standing]
    have before := @h.openCall other
    grind
  case overCall =>
    intro other call found finished
    rw [call?_conclude] at found
    rw [standing?_conclude standing]
    by_cases same : id = other
    · -- the call that closes now: its leader goes with it
      exact ⟨phase, by grind, gone⟩
    · rw [if_neg same] at found ⊢
      exact h.overCall found finished
  case registered =>
    intro good wanted leader found
    rw [poisoned_conclude] at good
    rw [leader?_conclude] at found
    rw [standing?_conclude standing]
    have leads : flight.standing? leader = some (wanted, .leading) := h.registered good (by grind)
    -- the key of the leader that goes is no longer registered
    have apart : id ≠ leader := by grind
    rw [if_neg apart]
    exact leads

end Coherent

end PeerCache.Flight
