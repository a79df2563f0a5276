import PeerCache.Fault
import Std.Data.ExtTreeMap

/-!
Calls in flight. Tasks ask for the result of a computation under a key; while one computation for
a key is under way, further tasks with that key wait for it instead of running their own.

A task that finds no call for its key registers one and *leads* it: it runs its computation. A task
that finds one *follows* its leader. A call is over when its leader publishes a result, and it is
abandoned when its leader ends without one. Registered calls are found in the registry, which one
lock guards; calls that are over stay readable to their followers only.

This module holds the state and what is done to it from outside: `Flight.spawn`, `Flight.resolve`,
`Flight.abandon`. How a task moves when it is polled is in `PeerCache.Flight.Poll`.
-/

namespace PeerCache

/-- Names a task for good. -/
abbrev TaskId := Nat

/-- How the computation of a task comes out. -/
inductive Outcome (ν ε : Type) where
  | ok (value : ν)
  | err (error : ε)
  /-- The computation fails with a text instead of a result. -/
  | raises (text : String)
  /-- A success that cannot be copied: the attempt to copy it fails. -/
  | uncopyable (value : ν)
  /-- An error that cannot be copied either. -/
  | uncopyableErr (error : ε)
  deriving DecidableEq, Repr

/-- What the followers of a call can see of it. -/
inductive Signal (ν ε : Type) where
  | pending
  | published (result : Except ε ν)
  /-- The leader has gone without publishing. -/
  | closed
  deriving Repr

/-- A call under a key. -/
structure Call (ν ε : Type) where
  key : String
  signal : Signal ν ε := .pending
  /-- The tasks that have joined it. -/
  followers : List TaskId := []
  deriving Repr

/-- How far a task has come. -/
inductive Phase where
  /-- Never polled. -/
  | fresh
  | following (leader : TaskId)
  | leading
  /-- It has returned or failed. -/
  | ended
  | dropped
  deriving DecidableEq, Repr

/-- Whether a task in this phase can still be polled to some effect. -/
def Phase.isLive : Phase → Bool
  | fresh | following _ | leading => true
  | ended | dropped => false

/-- A task: one request for the result under a key. -/
structure Task (ν ε : Type) where
  key : String
  /-- How its computation comes out, once that is known. -/
  outcome : Option (Outcome ν ε) := none
  /-- The text with which starting the computation fails, if it does. -/
  startFault : Option String := none
  phase : Phase := .fresh
  /-- Whether it was woken since its last poll began, or never polled. -/
  woken : Bool := true
  deriving Repr

/-- A task worth polling: it is not over and something has happened to it. -/
def Task.isAwake {ν ε : Type} (task : Task ν ε) : Bool :=
  task.woken && task.phase.isLive

def Task.wake {ν ε : Type} (task : Task ν ε) : Task ν ε :=
  { task with woken := true }

/-- All tasks, all calls ever led, and the registry of those in flight. -/
structure Flight (ν ε : Type) where
  tasks : Std.ExtTreeMap TaskId (Task ν ε) := ∅
  /-- The calls by their leaders: a task leads at most once. -/
  calls : Std.ExtTreeMap TaskId (Call ν ε) := ∅
  /-- The leader of the call in flight for each key. -/
  registry : Std.ExtTreeMap String TaskId := ∅
  /-- Whether the registry's lock is poisoned. -/
  poisoned : Bool := false
  deriving Repr

namespace Flight

variable {ν ε : Type}

/-! ### Looking -/

def task? (flight : Flight ν ε) (id : TaskId) : Option (Task ν ε) :=
  flight.tasks[id]?

/-- The leader registered for a key. -/
def leader? (flight : Flight ν ε) (key : String) : Option TaskId :=
  flight.registry[key]?

/-- The call that a task leads or has led. -/
def call? (flight : Flight ν ε) (leader : TaskId) : Option (Call ν ε) :=
  flight.calls[leader]?

/-- What followers see of the call that a task leads or has led. -/
def signal? (flight : Flight ν ε) (leader : TaskId) : Option (Signal ν ε) :=
  (flight.call? leader).map (·.signal)

/-- How many calls the registry holds; a poisoned lock does not hide it. -/
def registered (flight : Flight ν ε) : Nat :=
  flight.registry.size

/-- How many calls are in flight. -/
def inFlight (flight : Flight ν ε) : Except Fault Nat :=
  if flight.poisoned then .error (.poisoned .callMap) else .ok flight.registered

/-- The size of the registry in one line. -/
def describe (flight : Flight ν ε) : String :=
  "Group \x7b in_flight: " ++ toString flight.registered ++ ", .. \x7d"

/-- Whether there is a task of this id that is worth polling. -/
def isAwake (flight : Flight ν ε) (id : TaskId) : Bool :=
  (flight.task? id).any Task.isAwake

/-- The tasks worth polling, by ascending id. -/
def awake (flight : Flight ν ε) : List TaskId :=
  (flight.tasks.toList.filter fun entry => entry.2.isAwake).map (·.1)

/-- The list has just the tasks that are awake. -/
theorem mem_awake {flight : Flight ν ε} {id : TaskId} :
    id ∈ flight.awake ↔ flight.isAwake id := by
  simp [awake, isAwake, task?, Option.any_eq_true]

/-! ### Changing -/

/-- Changes one task. -/
def update (flight : Flight ν ε) (id : TaskId) (change : Task ν ε → Task ν ε) : Flight ν ε :=
  { flight with tasks := flight.tasks.modify id change }

/-- A change is seen of the task that is changed and of no other. -/
theorem task?_update {flight : Flight ν ε} {id other : TaskId} {change : Task ν ε → Task ν ε} :
    (flight.update id change).task? other =
      if id = other then (flight.task? id).map change else flight.task? other := by
  simp [update, task?, Std.ExtTreeMap.getElem?_modify]

def setPhase (flight : Flight ν ε) (id : TaskId) (phase : Phase) : Flight ν ε :=
  flight.update id fun task => { task with phase }

/-- Wakes some tasks. -/
def wake (flight : Flight ν ε) (ids : List TaskId) : Flight ν ε :=
  ids.foldl (fun flight id => flight.update id Task.wake) flight

/-- Waking some tasks is seen of those tasks, each of them once. -/
theorem task?_wake {flight : Flight ν ε} {ids : List TaskId} {id : TaskId} :
    (flight.wake ids).task? id =
      (flight.task? id).map fun task => if id ∈ ids then task.wake else task := by
  induction ids generalizing flight with
  | nil => simp [wake]
  | cons head rest ih =>
    rw [wake, List.foldl_cons, ← wake, ih, task?_update]
    by_cases same : head = id
    · subst same
      rw [if_pos rfl, Option.map_map]
      congr 1
      funext task
      by_cases again : head ∈ rest <;> simp [again, Task.wake]
    · simp [same, Ne.symm same]

/-- Shows a signal to the followers of a call and wakes them. -/
def announce (flight : Flight ν ε) (leader : TaskId) (signal : Signal ν ε) : Flight ν ε :=
  match flight.call? leader with
  | none => flight
  | some call =>
    { flight.wake call.followers with
      calls := flight.calls.insert leader { call with signal } }

/-- Registers a call under a key with a task as its leader. -/
def register (flight : Flight ν ε) (id : TaskId) (key : String) : Flight ν ε :=
  { flight.setPhase id .leading with
    calls := flight.calls.insert id { key }
    registry := flight.registry.insert key id }

/-- Makes a task a follower of the call that `leader` leads. -/
def join (flight : Flight ν ε) (id leader : TaskId) : Flight ν ε :=
  { flight.setPhase id (.following leader) with
    calls := flight.calls.modify leader fun call =>
      { call with followers := id :: call.followers } }

/-- Takes a key out of the registry. -/
def unregister (flight : Flight ν ε) (key : String) : Flight ν ε :=
  { flight with registry := flight.registry.erase key }

/-- Ends the call of a leader that goes without publishing: its key leaves the registry, unless the
lock is poisoned, and its followers are released. -/
def release (flight : Flight ν ε) (id : TaskId) (key : String) : Flight ν ε :=
  (if flight.poisoned then flight else flight.unregister key).announce id .closed

/-! ### From outside -/

/-- Adds a task that nobody has polled. -/
def spawn (flight : Flight ν ε) (id : TaskId) (key : String)
    (outcome : Option (Outcome ν ε)) (startFault : Option String) : Flight ν ε :=
  match flight.task? id with
  | some _ => flight
  | none => { flight with tasks := flight.tasks.insert id { key, outcome, startFault } }

/-- Fixes how a task's computation comes out. Only a task that leads waits for that; for another
it is kept until the task leads. -/
def resolve (flight : Flight ν ε) (id : TaskId) (outcome : Outcome ν ε) : Flight ν ε :=
  flight.update id fun task =>
    { task with
      outcome := some outcome
      woken := task.woken || task.phase = .leading }

/-- Drops a task before it is over, and tells whether there was one to drop. -/
def abandon (flight : Flight ν ε) (id : TaskId) : Flight ν ε × Bool :=
  match flight.task? id with
  | none => (flight, false)
  | some task =>
    match task.phase with
    | .ended | .dropped => (flight, false)
    | .fresh | .following _ => (flight.setPhase id .dropped, true)
    | .leading => ((flight.release id task.key).setPhase id .dropped, true)

end Flight

end PeerCache
