import PeerCache.Cluster.Peer
import PeerCache.Proofs.Flight.Course

/-!
# The flight of a peer

A peer uses its flight for one thing: every task loads its key from the store. `Flight.Loads` says
what this makes of the flight. No call is ever abandoned and no lock poisoned, a computation that
has an outcome has that of loading its key, and a published call shows what loading its key comes
to. So the ways a poll can go shrink to six (`LoadTurn`, `Loads.turn`), and none of them fails.
-/

namespace PeerCache

/-- A load as the outcome of a computation comes to what the load comes to: the store answers every
key, with a value or with an error. -/
theorem Store.result?_outcome (key : String) :
    (Store.outcome key).result? = some (Store.load key) := by
  unfold Store.outcome
  cases Store.load key <;> rfl

/-- A load succeeds where the store does not lack the key, and with the one value it has for it. -/
theorem Store.load_eq_ok_iff {key value : String} :
    Store.load key = .ok value ↔ Store.lacks key = false ∧ value = Store.expectedValue key := by
  unfold Store.load
  cases Store.lacks key <;> simp [eq_comm]

/-- Values and errors of the store can be copied, so no load poisons a lock. -/
theorem Store.isCopyable_outcome (key : String) : (Store.outcome key).isCopyable = true := by
  unfold Store.outcome
  cases Store.load key <;> rfl

namespace Flight

/-! ## How many tasks there are -/

section

variable {ν ε : Type} {flight : Flight ν ε} {id leader : TaskId} {key : String}

@[simp] theorem size_tasks_update {change : Task ν ε → Task ν ε} :
    (flight.update id change).tasks.size = flight.tasks.size :=
  Std.ExtTreeMap.size_modify

@[simp] theorem size_tasks_setPhase {phase : Phase} :
    (flight.setPhase id phase).tasks.size = flight.tasks.size :=
  size_tasks_update

@[simp] theorem size_tasks_attend : (flight.attend id).tasks.size = flight.tasks.size :=
  size_tasks_update

@[simp] theorem size_tasks_register : (flight.register id key).tasks.size = flight.tasks.size :=
  size_tasks_setPhase

@[simp] theorem size_tasks_join : (flight.join id leader).tasks.size = flight.tasks.size :=
  size_tasks_setPhase

@[simp] theorem size_tasks_wake {ids : List TaskId} :
    (flight.wake ids).tasks.size = flight.tasks.size := by
  induction ids generalizing flight with
  | nil => rfl
  | cons head rest ih => rw [wake_cons, ih, size_tasks_update]

/-- A leader that goes takes no task along: the followers are changed in their places. -/
@[simp] theorem size_tasks_conclude {signal : Signal ν ε} {phase : Phase} :
    (flight.conclude id key signal phase).tasks.size = flight.tasks.size := by
  have announced : ∀ flight : Flight ν ε,
      (flight.announce id signal).tasks.size = flight.tasks.size := by
    intro flight
    unfold announce
    cases flight.call? id with
    | none => rfl
    | some call => exact size_tasks_wake
  rw [conclude, size_tasks_setPhase, announced]
  split <;> rfl

/-- Under a new id a spawn adds one task, which is what makes the number of tasks the next free id.
-/
theorem size_tasks_spawn {outcome : Option (Outcome ν ε)} {startFault : Option String}
    (new : flight.task? id = none) :
    (flight.spawn id key outcome startFault).tasks.size = flight.tasks.size + 1 := by
  have absent : flight.tasks.contains id = false := by
    rw [Std.ExtTreeMap.contains_eq_isSome_getElem?]
    exact congrArg Option.isSome new
  simp only [spawn, new, Std.ExtTreeMap.size_insert, absent, Bool.false_eq_true, if_false]

end

/-! ## Loads -/

variable {flight : Flight String LoadError} {id other leader : TaskId} {key : String}

/-- Every task of the flight loads its key, and they are numbered as they come. -/
structure Loads (flight : Flight String LoadError) : Prop where
  coherent : flight.Coherent
  good : flight.poisoned = false
  /-- What a computation comes to is the load of its key. -/
  outcome : ∀ {id : TaskId} {key : String} {phase : Phase} {outcome : Outcome String LoadError},
    flight.standing? id = some (key, phase) → flight.outcome? id = some outcome →
      outcome = Store.outcome key
  /-- No call is abandoned, and none is published with anything else. -/
  signal : ∀ {leader : TaskId} {call : Call String LoadError}, flight.call? leader = some call →
    call.signal = .pending ∨ call.signal = .published (Store.load call.key)
  numbered : ∀ {id : TaskId} {standing : String × Phase}, flight.standing? id = some standing →
    id < flight.tasks.size
  /-- A task has joined a call that was there before it. -/
  earlier : ∀ {id leader : TaskId} {key : String},
    flight.standing? id = some (key, .following leader) → leader < id

/-- A new flight has no task that could do anything but load its key. -/
theorem loads_empty : Loads {} where
  coherent := coherent_empty
  good := rfl
  outcome standing := by simp at standing
  signal found := by simp [call?] at found
  numbered standing := by simp at standing
  earlier standing := by simp at standing

/-- The next number names no task yet. -/
theorem Loads.standing?_next (loads : flight.Loads) :
    flight.standing? flight.tasks.size = none := by
  cases standing : flight.standing? flight.tasks.size with
  | none => rfl
  | some _ => exact absurd (loads.numbered standing) (Nat.lt_irrefl _)

/-- A task that follows finds the call of its key, with nothing but the load of the key to show. -/
theorem Loads.signal?_of_following (loads : flight.Loads)
    (follows : flight.standing? id = some (key, .following leader)) :
    (flight.signal? leader = some .pending ∧ flight.standing? leader = some (key, .leading)) ∨
      flight.signal? leader = some (.published (Store.load key)) := by
  obtain ⟨call, found, rfl, -⟩ := loads.coherent.following follows
  rw [signal?_of_call? found]
  rcases loads.signal found with pending | published
  · exact .inl ⟨by rw [pending], loads.coherent.openCall found pending⟩
  · exact .inr (by rw [published])

/-! ## The ways to go -/

/-- How a poll of a task that loads `key` goes: the phase it is in, the phase it comes to, and what
is left behind. -/
inductive LoadTurn (flight : Flight String LoadError) (id : TaskId) (key : String) :
    Phase → Phase → Polled String LoadError → Prop where
  | leads (free : flight.leader? key = none) :
      LoadTurn flight id key .fresh .leading
        { flight := flight.register id key, answer := .pending, started := true }
  | joins {leader : TaskId} (taken : flight.leader? key = some leader) :
      LoadTurn flight id key .fresh (.following leader)
        { flight := flight.join id leader, answer := .pending, events := [.callJoined key] }
  | waits {leader : TaskId} (pending : flight.signal? leader = some .pending) :
      LoadTurn flight id key (.following leader) (.following leader) { flight, answer := .pending }
  | receives {leader : TaskId}
      (published : flight.signal? leader = some (.published (Store.load key))) :
      LoadTurn flight id key (.following leader) .ended
        { flight := flight.setPhase id .ended, answer := .returned (Store.load key) }
  | computes (open_ : flight.outcome? id = none) :
      LoadTurn flight id key .leading .leading { flight, answer := .pending }
  | publishes (came : flight.outcome? id = some (Store.outcome key)) :
      LoadTurn flight id key .leading .ended
        { flight := flight.conclude id key (.published (Store.load key)) .ended
          answer := .returned (Store.load key) }

/-- That a task is being polled changes none of the things `Loads` speaks of. -/
theorem Loads.attend (loads : flight.Loads) : (flight.attend id).Loads where
  coherent := loads.coherent.attend
  good := loads.good
  outcome standing found := by
    rw [standing?_attend] at standing
    rw [outcome?_attend] at found
    exact loads.outcome standing found
  signal := loads.signal
  numbered standing := by
    rw [standing?_attend] at standing
    rw [size_tasks_attend]
    exact loads.numbered standing
  earlier follows := by
    rw [standing?_attend] at follows
    exact loads.earlier follows

/-- **A poll of a task that loads is one of these**, if a task that was never polled is one that
came with nothing but its key. -/
theorem Loads.turn {task : Task String LoadError} (loads : flight.Loads)
    (found : flight.task? id = some task) (live : task.phase.isLive)
    (plain : task.phase = .fresh → task.outcome = none ∧ task.startFault = none) :
    ∃ phase, LoadTurn (flight.attend id) id task.key task.phase phase (flight.poll id) := by
  have standing : (flight.attend id).standing? id = some (task.key, task.phase) :=
    standing?_attend_of_task? found
  have outcome : (flight.attend id).outcome? id = task.outcome :=
    outcome?_attend.trans (outcome?_of_task? found)
  have turn := poll_turn loads.coherent found live
  have loads' : (flight.attend id).Loads := loads.attend
  generalize flight.attend id = seen at *
  generalize flight.poll id = polled at turn ⊢
  -- a released follower would have seen its call closed
  have fresh : ∀ {news}, Seeks seen task news → task.phase = .fresh ∧ news = [] := by
    rintro news (phase | ⟨phase, closed⟩)
    · exact ⟨phase, rfl⟩
    · rcases loads'.signal?_of_following (phase ▸ standing) with ⟨pending, -⟩ | published
      · cases closed.symm.trans pending
      · cases closed.symm.trans published
  have result : ∀ {o result}, task.outcome = some o → o.result? = some result →
      o = Store.outcome task.key ∧ result = Store.load task.key := by
    intro o result came is
    obtain rfl := loads'.outcome standing (outcome.trans came)
    rw [Store.result?_outcome, Option.some.injEq] at is
    exact ⟨rfl, is.symm⟩
  cases turn with
  | waits phase pending => rw [phase]; exact ⟨_, .waits pending⟩
  | @receives leader _ phase published =>
    rw [phase] at standing ⊢
    rcases loads'.signal?_of_following standing with ⟨pending, -⟩ | published'
    · cases published.symm.trans pending
    · obtain rfl := Signal.published.inj (Option.some.inj (published.symm.trans published'))
      exact ⟨_, .receives published⟩
  | refused _ bad => cases loads'.good.symm.trans bad
  | joins seeks _ taken =>
    obtain ⟨phase, rfl⟩ := fresh seeks
    rw [phase]
    exact ⟨_, .joins taken⟩
  | failsToStart seeks _ _ fault =>
    cases fault.symm.trans (plain (fresh seeks).1).2
  | leads seeks _ free _ driven =>
    obtain ⟨phase, rfl⟩ := fresh seeks
    have open_ := (plain phase).1
    rw [phase]
    cases driven with
    | computing => exact ⟨_, .leads free⟩
    | publishes came => cases open_.symm.trans came
    | raises came => cases open_.symm.trans came
    | refused came => cases open_.symm.trans came
    | failsToCopy came => cases open_.symm.trans came
  | drives phase driven =>
    rw [phase]
    cases driven with
    | computing open_ => exact ⟨_, .computes (outcome.trans open_)⟩
    | publishes came is =>
      obtain ⟨rfl, rfl⟩ := result came is
      exact ⟨_, .publishes (outcome.trans came)⟩
    | raises came =>
      have is := Store.result?_outcome task.key
      rw [← loads'.outcome standing (outcome.trans came)] at is
      cases is
    | refused _ _ bad => cases loads'.good.symm.trans bad
    | failsToCopy came uncopyable =>
      rw [loads'.outcome standing (outcome.trans came), Store.isCopyable_outcome] at uncopyable
      cases uncopyable

/-! ## What a poll leaves behind -/

variable {old new : Phase} {polled : Polled String LoadError}

/-- A poll moves the polled task to its new phase, and nobody else feels it. -/
theorem LoadTurn.standing? (turn : LoadTurn flight id key old new polled)
    (standing : flight.standing? id = some (key, old)) :
    polled.flight.standing? other =
      if id = other then some (key, new) else flight.standing? other := by
  -- the task keeps its phase, or gets the new one by a change that says so
  have stays : flight.standing? other =
      if id = other then some (key, old) else flight.standing? other := by
    split
    · next same => rw [← same, standing]
    · rfl
  cases turn with
  | leads => exact standing?_register standing
  | joins => exact standing?_join standing
  | waits => exact stays
  | receives => exact standing?_setPhase standing
  | computes => exact stays
  | publishes => exact standing?_conclude standing

/-- A poll fixes no outcome. -/
theorem LoadTurn.outcome? (turn : LoadTurn flight id key old new polled) :
    polled.flight.outcome? other = flight.outcome? other := by
  cases turn <;> simp

theorem LoadTurn.size (turn : LoadTurn flight id key old new polled) :
    polled.flight.tasks.size = flight.tasks.size := by
  cases turn <;> simp

/-- None of the six ways poisons the lock. -/
theorem LoadTurn.poisoned (turn : LoadTurn flight id key old new polled) :
    polled.flight.poisoned = flight.poisoned := by
  cases turn <;> simp

/-- A published call stays as it is. -/
theorem LoadTurn.published {result : Except LoadError String}
    (turn : LoadTurn flight id key old new polled) (loads : flight.Loads)
    (standing : flight.standing? id = some (key, old))
    (published : flight.signal? leader = some (.published result)) :
    polled.flight.signal? leader = some (.published result) := by
  cases turn with
  | leads =>
    -- a task that was never polled has no call yet
    have apart : id ≠ leader := by
      rintro rfl
      rw [signal?, loads.coherent.call?_eq_none standing rfl (by decide)] at published
      cases published
    rw [signal?_register, if_neg apart, published]
  | joins => rw [signal?_join, published]
  | publishes =>
    -- and one that leads has published nothing yet
    have apart : id ≠ leader := by
      rintro rfl
      obtain ⟨-, followers, found⟩ := loads.coherent.leading standing
      cases (signal?_of_call? found).symm.trans published
    rw [signal?_conclude, if_neg apart, published]
  | waits => exact published
  | receives => exact published
  | computes => exact published

/-- After a poll, too, each call is open or shows what loading its key comes to. A call gets a
signal only in the poll that publishes it. -/
theorem LoadTurn.signal {call : Call String LoadError}
    (turn : LoadTurn flight id key old new polled) (loads : flight.Loads)
    (standing : flight.standing? id = some (key, old))
    (found : polled.flight.call? leader = some call) :
    call.signal = .pending ∨ call.signal = .published (Store.load call.key) := by
  cases turn with
  | leads =>
    rw [call?_register] at found
    split at found
    · obtain rfl := Option.some.inj found
      exact .inl rfl
    · exact loads.signal found
  | joins =>
    rw [call?_join] at found
    split at found
    · obtain ⟨former, there, rfl⟩ := Option.map_eq_some_iff.mp found
      have shown := loads.signal there
      exact shown
    · exact loads.signal found
  | publishes =>
    rw [call?_conclude] at found
    split at found
    · -- the call that is published now is the one of the task's own key
      obtain ⟨-, followers, there⟩ := loads.coherent.leading standing
      rw [there, Option.map_some, Option.some.injEq] at found
      obtain rfl := found
      exact .inr rfl
    · exact loads.signal found
  | waits => exact loads.signal found
  | receives => exact loads.signal found
  | computes => exact loads.signal found

/-- A task that is polled for the first time begins to lead or to follow. -/
theorem LoadTurn.begins (turn : LoadTurn flight id key .fresh new polled) :
    polled.answer = .pending ∧ new.isLive ∧ new ≠ .fresh := by
  cases turn with
  | leads => exact ⟨rfl, rfl, nofun⟩
  | joins => exact ⟨rfl, rfl, nofun⟩

/-- One that was polled before stays where it is, or it returns. -/
theorem LoadTurn.goesOn (turn : LoadTurn flight id key old new polled)
    (polledBefore : old ≠ .fresh) :
    (polled.answer = .pending ∧ new = old) ∨
      (polled.answer = .returned (Store.load key) ∧ new = .ended) := by
  cases turn with
  | leads => exact absurd rfl polledBefore
  | joins => exact absurd rfl polledBefore
  | waits => exact .inl ⟨rfl, rfl⟩
  | receives => exact .inr ⟨rfl, rfl⟩
  | computes => exact .inl ⟨rfl, rfl⟩
  | publishes => exact .inr ⟨rfl, rfl⟩

/-- A call that is joined, now or before, was there before the task. -/
theorem LoadTurn.earlier (turn : LoadTurn flight id key old (.following leader) polled)
    (loads : flight.Loads) (standing : flight.standing? id = some (key, old))
    (newest : old = .fresh → flight.tasks.size = id + 1) : leader < id := by
  cases turn with
  | waits => exact loads.earlier standing
  | joins taken =>
    have leads := loads.coherent.registered loads.good taken
    have apart : leader ≠ id := by
      rintro rfl
      cases leads.symm.trans standing
    have numbered := loads.numbered leads
    rw [newest rfl] at numbered
    exact Nat.lt_of_le_of_ne (Nat.le_of_lt_succ numbered) apart

/-- **A poll leaves a flight of loads**, if a task never polled before is the last one that came. -/
theorem LoadTurn.loads (turn : LoadTurn flight id key old new polled) (loads : flight.Loads)
    (standing : flight.standing? id = some (key, old)) (coherent : polled.flight.Coherent)
    (newest : old = .fresh → flight.tasks.size = id + 1) : polled.flight.Loads := by
  -- every task that was there is still there, under its key
  have before : ∀ {other wanted phase}, polled.flight.standing? other = some (wanted, phase) →
      id = other ∧ key = wanted ∧ new = phase ∨ flight.standing? other = some (wanted, phase) := by
    intro other wanted phase after
    rw [turn.standing? standing] at after
    split at after
    · next same => exact .inl ⟨same, Prod.mk.inj (Option.some.inj after)⟩
    · exact .inr after
  refine ⟨coherent, turn.poisoned.trans loads.good, ?_, turn.signal loads standing, ?_, ?_⟩
  · intro other wanted phase outcome after came
    rw [turn.outcome?] at came
    rcases before after with ⟨rfl, rfl, -⟩ | there
    · exact loads.outcome standing came
    · exact loads.outcome there came
  · intro other standing' after
    rw [turn.size]
    rcases before after with ⟨rfl, -⟩ | there
    · exact loads.numbered standing
    · exact loads.numbered there
  · intro other leader wanted follows
    rcases before follows with ⟨rfl, -, rfl⟩ | there
    · exact turn.earlier loads standing newest
    · exact loads.earlier there

/-! ## A load that begins -/

/-- A task of this key is under way: it leads a call or follows one. -/
def Awaits (flight : Flight String LoadError) (id : TaskId) (key : String) : Prop :=
  ∃ phase, flight.standing? id = some (key, phase) ∧ phase.isLive ∧ phase ≠ .fresh

/-- A poll of a task that loads, seen from outside. -/
theorem Loads.poll {task : Task String LoadError} (loads : flight.Loads)
    (found : flight.task? id = some task) (live : task.phase.isLive)
    (plain : task.phase = .fresh → task.outcome = none ∧ task.startFault = none ∧
      flight.tasks.size = id + 1) :
    ∃ new, LoadTurn (flight.attend id) id task.key task.phase new (flight.poll id) ∧
      (flight.poll id).flight.Loads ∧
      ∀ other, (flight.poll id).flight.standing? other =
        if id = other then some (task.key, new) else flight.standing? other := by
  obtain ⟨new, turn⟩ := loads.turn found live fun fresh =>
    ⟨(plain fresh).1, (plain fresh).2.1⟩
  have standing := standing?_attend_of_task? found
  refine ⟨new, turn, ?_, fun other => ?_⟩
  · refine turn.loads loads.attend standing loads.coherent.poll fun fresh => ?_
    rw [size_tasks_attend]
    exact (plain fresh).2.2
  · rw [turn.standing? standing, standing?_attend]

/-- A task that comes under the next number, with nothing but its key, is one that loads it. -/
theorem Loads.spawn (loads : flight.Loads) :
    (flight.spawn flight.tasks.size key none none).Loads := by
  have next := loads.standing?_next
  have new : flight.task? flight.tasks.size = none := Option.map_eq_none_iff.mp next
  -- the task that comes has neither an outcome nor a call
  have before : ∀ {other wanted phase},
      (flight.spawn flight.tasks.size key none none).standing? other = some (wanted, phase) →
        (flight.tasks.size = other ∧ phase = .fresh) ∨
          flight.standing? other = some (wanted, phase) := by
    intro other wanted phase after
    rw [standing?_spawn] at after
    split at after
    · next same => exact .inl ⟨same.1, (Prod.mk.inj (Option.some.inj after)).2.symm⟩
    · exact .inr after
  refine ⟨loads.coherent.spawn, poisoned_spawn.trans loads.good, ?_, ?_, ?_, ?_⟩
  · intro other wanted phase outcome after came
    rw [outcome?_spawn] at came
    rcases before after with ⟨rfl, -⟩ | there
    · rw [if_pos ⟨rfl, new⟩] at came
      cases came
    · split at came
      · cases came
      · exact loads.outcome there came
  · intro leader call found
    rw [call?_spawn] at found
    exact loads.signal found
  · intro other standing after
    rw [size_tasks_spawn new]
    rcases before after with ⟨rfl, -⟩ | there
    · exact Nat.lt_succ_self _
    · exact Nat.lt_succ_of_lt (loads.numbered there)
  · intro other leader wanted follows
    rcases before follows with ⟨-, fresh⟩ | there
    · cases fresh
    · exact loads.earlier there

/-- How the first poll of a load goes. -/
theorem Loads.turn_of_begin (loads : flight.Loads) (key : String) :
    let spawned := flight.spawn flight.tasks.size key none none
    ∃ phase, LoadTurn (spawned.attend flight.tasks.size) flight.tasks.size key .fresh phase
        (spawned.poll flight.tasks.size) ∧
      (spawned.poll flight.tasks.size).flight.Loads ∧
      ∀ other, (spawned.poll flight.tasks.size).flight.standing? other =
        if flight.tasks.size = other then some (key, phase) else flight.standing? other := by
  intro spawned
  have new : flight.task? flight.tasks.size = none :=
    Option.map_eq_none_iff.mp loads.standing?_next
  have found : spawned.task? flight.tasks.size =
      some { key, outcome := none, startFault := none } :=
    task?_spawn.trans (if_pos ⟨rfl, new⟩)
  have loads' : spawned.Loads := loads.spawn
  obtain ⟨phase, turn, loads'', standing⟩ := loads'.poll found rfl fun _ =>
    ⟨rfl, rfl, size_tasks_spawn new⟩
  refine ⟨phase, turn, loads'', fun other => ?_⟩
  rw [standing]
  split
  · rfl
  · next apart => rw [standing?_spawn, if_neg fun is => apart is.1]

/-- **A load that begins is under way** as the task that comes next, and nobody else feels it. -/
theorem Loads.begin (loads : flight.Loads) (key : String) :
    let begun := (flight.spawn flight.tasks.size key none none).poll flight.tasks.size
    begun.answer = .pending ∧ begun.flight.Loads ∧ begun.flight.Awaits flight.tasks.size key ∧
      ∀ other, flight.tasks.size ≠ other →
        begun.flight.standing? other = flight.standing? other := by
  obtain ⟨phase, turn, loads', standing⟩ := loads.turn_of_begin key
  obtain ⟨pending, underWay⟩ := turn.begins
  have mine := (standing flight.tasks.size).trans (if_pos rfl)
  exact ⟨pending, loads', ⟨phase, mine, underWay⟩, fun other apart =>
    (standing other).trans (if_neg apart)⟩

/-! ## A load that goes on -/

/-- **A load under way waits or returns what loading its key comes to**, and no other task feels
it. -/
theorem Loads.continue (loads : flight.Loads) (awaits : flight.Awaits id key) :
    let polled := flight.poll id
    polled.flight.Loads ∧
      (polled.answer = .pending ∧
          (∀ other, polled.flight.standing? other = flight.standing? other) ∨
        polled.answer = .returned (Store.load key) ∧ ∀ other, polled.flight.standing? other =
          if id = other then some (key, .ended) else flight.standing? other) := by
  obtain ⟨phase, standing, live, polledBefore⟩ := awaits
  obtain ⟨task, found, rfl, rfl⟩ := task?_of_standing? standing
  obtain ⟨new, turn, loads', after⟩ := loads.poll found live fun fresh => absurd fresh polledBefore
  refine ⟨loads', ?_⟩
  rcases turn.goesOn polledBefore with ⟨pending, rfl⟩ | ⟨returned, rfl⟩
  · refine .inl ⟨pending, fun other => ?_⟩
    rw [after]
    split
    · next same => rw [← same, standing]
    · rfl
  · exact .inr ⟨returned, after⟩

/-! ## Time passes -/

/-- To give a task the load of its key for an outcome is all that can happen to outcomes in a flight
of loads. -/
theorem Loads.resolve (loads : flight.Loads)
    (standing : flight.standing? id = some (key, old)) :
    (flight.resolve id (Store.outcome key)).Loads := by
  have same : ∀ {other}, (flight.resolve id (Store.outcome key)).standing? other =
      flight.standing? other := standing?_update fun _ => ⟨rfl, rfl⟩
  refine ⟨loads.coherent.resolve, loads.good, ?_, loads.signal, ?_, ?_⟩
  · intro other wanted phase outcome there came
    rw [same] at there
    rw [outcome?_resolve] at came
    split at came
    · next eq =>
      subst eq
      obtain ⟨rfl, -⟩ := Prod.mk.inj (Option.some.inj (standing.symm.trans there))
      obtain ⟨_, -, rfl⟩ := Option.map_eq_some_iff.mp came
      rfl
    · exact loads.outcome there came
  · intro other standing there
    rw [same] at there
    exact Nat.lt_of_lt_of_eq (loads.numbered there) size_tasks_update.symm
  · intro other leader wanted follows
    rw [same] at follows
    exact loads.earlier follows

/-- Every load under way gets done. -/
def elapse (flight : Flight String LoadError) : Flight String LoadError :=
  flight.registry.foldl (fun flight key leader => flight.resolve leader (Store.outcome key)) flight

/-- While leaders are given their outcomes, nothing else changes. -/
theorem Loads.foldl_resolve (loads : flight.Loads) (entries : List (String × TaskId))
    (leads : ∀ entry ∈ entries, flight.standing? entry.2 = some (entry.1, .leading)) :
    let later := entries.foldl
      (fun flight entry => flight.resolve entry.2 (Store.outcome entry.1)) flight
    later.Loads ∧ (∀ other, later.standing? other = flight.standing? other) ∧
      (∀ other, later.signal? other = flight.signal? other) ∧
      ∀ id, (flight.outcome? id ≠ none ∨ ∃ entry ∈ entries, entry.2 = id) →
        later.outcome? id ≠ none := by
  induction entries generalizing flight with
  | nil => exact ⟨loads, fun _ => rfl, fun _ => rfl, by simp⟩
  | cons entry entries ih =>
    obtain ⟨key, leader⟩ := entry
    rw [List.forall_mem_cons] at leads
    have same : ∀ other, (flight.resolve leader (Store.outcome key)).standing? other =
        flight.standing? other := fun other => standing?_update fun _ => ⟨rfl, rfl⟩
    obtain ⟨loads', standings, signals, outcomes⟩ := ih (loads.resolve leads.1) fun entry mem =>
      (same entry.2).trans (leads.2 entry mem)
    refine ⟨loads', fun other => (standings other).trans (same other), signals, fun id came => ?_⟩
    refine outcomes id ?_
    rw [outcome?_resolve]
    rcases came with before | ⟨_, mem, rfl⟩
    · left
      split
      · next eq =>
        obtain ⟨task, found, -⟩ := task?_of_standing? leads.1
        rw [found]
        nofun
      · exact before
    · rcases List.mem_cons.mp mem with rfl | later
      · left
        obtain ⟨task, found, -⟩ := task?_of_standing? leads.1
        rw [if_pos rfl, found]
        nofun
      · exact .inr ⟨_, later, rfl⟩

/-- As time passes each leader gets its outcome, and nobody feels it before being polled. That it
reaches every leader is due to the good lock: then the registry lists them all. -/
theorem Loads.elapse (loads : flight.Loads) :
    flight.elapse.Loads ∧ (∀ other, flight.elapse.standing? other = flight.standing? other) ∧
      (∀ other, flight.elapse.signal? other = flight.signal? other) ∧
      ∀ {id key}, flight.standing? id = some (key, .leading) →
        flight.elapse.outcome? id ≠ none := by
  have leads : ∀ entry ∈ flight.registry.toList,
      flight.standing? entry.2 = some (entry.1, .leading) := by
    intro entry mem
    exact loads.coherent.registered loads.good
      (Std.ExtTreeMap.mem_toList_iff_getElem?_eq_some.mp mem)
  obtain ⟨loads', standings, signals, outcomes⟩ := loads.foldl_resolve _ leads
  rw [Flight.elapse, Std.ExtTreeMap.foldl_eq_foldl_toList]
  refine ⟨loads', standings, signals, fun {id key} leading =>
    outcomes id (.inr ⟨(key, id), ?_, rfl⟩)⟩
  exact Std.ExtTreeMap.mem_toList_iff_getElem?_eq_some.mpr (loads.coherent.leading leading).1

end Flight

end PeerCache
