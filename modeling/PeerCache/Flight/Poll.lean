import PeerCache.Flight.Basic
import PeerCache.Log.Event

/-!
Polling the tasks of a flight: `Flight.poll` moves one task as far as it can go, and `Flight.run`
polls all awake tasks until none is left.

A task that does not lead goes round a loop: look into the registry under the lock, lead if the key
is free, else follow the call found there until it shows something; if what it shows is that the
leader has gone, start over. Each round is counted down from a bound, and a task that uses it up is
`Poll.spinning`. A failure while the lock is held poisons it, and the only thing that can fail
there is copying a result.
-/

namespace PeerCache

/-- What polling a task comes to. -/
inductive Poll (ν ε : Type) where
  | pending
  | returned (result : Except ε ν)
  | failed (fault : Fault)
  /-- There is no such task, or it is over. -/
  | gone
  /-- The task joins calls that are over, for ever. -/
  | spinning

/-- What a poll leaves behind. -/
structure Polled (ν ε : Type) where
  flight : Flight ν ε
  answer : Poll ν ε
  /-- Whether the task's own computation was started. -/
  started : Bool := false
  events : List Log.Event := []

/-- Puts an event in front of those of a poll. -/
def Polled.after {ν ε : Type} (event : Log.Event) (polled : Polled ν ε) : Polled ν ε :=
  { polled with events := event :: polled.events }

namespace Flight

variable {ν ε : Type}

/-- Publishes the result of a leader's call and forgets the call, under one lock. -/
def complete (flight : Flight ν ε) (id : TaskId) (key : String) (result : Except ε ν) :
    Polled ν ε :=
  if flight.poisoned then
    { flight := (flight.announce id .closed).setPhase id .ended
      answer := .failed (.poisoned .callMap) }
  else
    { flight := ((flight.unregister key).announce id (.published result)).setPhase id .ended
      answer := .returned result }

/-- Fails to copy a leader's result while the lock is held. The lock stays poisoned behind it, so
the call is released but not unregistered. -/
def failToPublish (flight : Flight ν ε) (id : TaskId) : Polled ν ε :=
  let released := (flight.announce id .closed).setPhase id .ended
  if flight.poisoned then
    { flight := released, answer := .failed (.poisoned .callMap) }
  else
    { flight := { released with poisoned := true }, answer := .failed .copyFailed }

/-- Goes on with the computation of a task that leads. -/
def drive (flight : Flight ν ε) (id : TaskId) (task : Task ν ε) : Polled ν ε :=
  match task.outcome with
  | none => { flight, answer := .pending }
  | some (.raises text) =>
    { flight := (flight.release id task.key).setPhase id .ended, answer := .failed (.raised text) }
  | some (.ok value) => flight.complete id task.key (.ok value)
  | some (.err error) => flight.complete id task.key (.error error)
  | some (.uncopyable _) | some (.uncopyableErr _) => flight.failToPublish id

/-- Makes a task the leader of a new call and starts its computation. -/
def lead (flight : Flight ν ε) (id : TaskId) (task : Task ν ε) : Polled ν ε :=
  let registered := flight.register id task.key
  match task.startFault with
  | some text =>
    { flight := (registered.release id task.key).setPhase id .ended
      answer := .failed (.raised text)
      started := true }
  | none => { registered.drive id task with started := true }

/-- Waits for what the call of `leader` shows; if that is nothing any more, tries again. -/
def await (flight : Flight ν ε) (id : TaskId) (key : String) (leader : TaskId)
    (again : Flight ν ε → Polled ν ε) : Polled ν ε :=
  match flight.signal? leader with
  | some .pending => { flight, answer := .pending }
  | some (.published result) => { flight := flight.setPhase id .ended, answer := .returned result }
  | some .closed | none => (again flight).after (.callAbandoned key)

/-- One round of a task that has no call yet: leads one or joins the one that is registered. -/
def round (flight : Flight ν ε) (id : TaskId) (task : Task ν ε)
    (again : Flight ν ε → Polled ν ε) : Polled ν ε :=
  if flight.poisoned then
    { flight := flight.setPhase id .ended, answer := .failed (.poisoned .callMap) }
  else
    match flight.leader? task.key with
    | none => flight.lead id task
    | some leader =>
      ((flight.join id leader).await id task.key leader again).after (.callJoined task.key)

/-- Rounds of a task that has no call yet, at most `bound` of them after the first. -/
def enter (id : TaskId) (task : Task ν ε) : Nat → Flight ν ε → Polled ν ε
  | 0, flight => flight.round id task fun flight => { flight, answer := .spinning }
  | bound + 1, flight => flight.round id task (enter id task bound)

/-- More rounds than there are calls that a task could join. -/
def roundBound (flight : Flight ν ε) : Nat :=
  flight.calls.size + 2

/-- Polls a task that is not over. -/
def advance (flight : Flight ν ε) (id : TaskId) (task : Task ν ε) : Polled ν ε :=
  match task.phase with
  | .fresh => enter id task flight.roundBound flight
  | .following leader => flight.await id task.key leader (enter id task flight.roundBound)
  | .leading => flight.drive id task
  | .ended | .dropped => { flight, answer := .gone }

/-- Polls a task once. It counts as woken again only by what happens from now on. -/
def poll (flight : Flight ν ε) (id : TaskId) : Polled ν ε :=
  match flight.task? id with
  | none => { flight, answer := .gone }
  | some task =>
    if task.phase.isLive then
      (flight.update id fun task => { task with woken := false }).advance id task
    else { flight, answer := .gone }

/-! ### Polling until nothing is awake -/

/-- What a series of polls leaves behind: the answers and the started computations in order. -/
structure Ran (ν ε : Type) where
  flight : Flight ν ε
  answers : List (TaskId × Poll ν ε) := []
  started : List TaskId := []
  events : List Log.Event := []

/-- Polls a task if it is awake. -/
def Ran.visit (ran : Ran ν ε) (id : TaskId) : Ran ν ε :=
  if ran.flight.isAwake id then
    let polled := ran.flight.poll id
    { flight := polled.flight
      answers := ran.answers ++ [(id, polled.answer)]
      started := if polled.started then ran.started ++ [id] else ran.started
      events := ran.events ++ polled.events }
  else ran

/-- Visits all tasks by ascending id. -/
def Ran.pass (ran : Ran ν ε) : Ran ν ε :=
  ran.flight.tasks.keys.foldl visit ran

/-- Passes until no task is awake, at most `bound` of them. -/
def Ran.passes : Nat → Ran ν ε → Ran ν ε
  | 0, ran => ran
  | bound + 1, ran => if ran.flight.awake.isEmpty then ran else passes bound ran.pass

/-- Polls awake tasks pass by pass until none is left. Every pass but the last one ends a task, so
there are at most as many passes as tasks and one more. -/
def run (flight : Flight ν ε) : Ran ν ε :=
  Ran.passes (flight.tasks.size + 1) { flight }

end Flight

end PeerCache
