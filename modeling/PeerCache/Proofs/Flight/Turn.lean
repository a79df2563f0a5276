import PeerCache.Proofs.Flight.Coherent

/-!
# What one poll can do

`Turn` lists the ways a poll of a live task can go, each with what it was that let it go that way
and with all that it leaves behind; `Driven` does the same for the computation of a task that
leads. `poll_turn` says that the list is complete, on every flight whose maps agree.

The rounds of a task without a call are gone from it: a call found in the registry of a good lock is
open, so that the first round settles the matter and the bound on the rounds never shows
(`enter_eq`). From `Turn` follows that each step keeps the agreement, and so does each history
(`coherent_after`).
-/

namespace PeerCache

variable {ν ε : Type}

/-- The result that a computation comes to, if it comes to one. -/
def Outcome.result? : Outcome ν ε → Option (Except ε ν)
  | .ok value | .uncopyable value => some (.ok value)
  | .err error | .uncopyableErr error => some (.error error)
  | .raises _ => none

/-- The computation of a task came to a result. -/
def Task.CameTo (task : Task ν ε) (result : Except ε ν) : Prop :=
  ∃ outcome, task.outcome = some outcome ∧ outcome.result? = some result

/-- Whether a result of this kind can be copied for the followers. -/
def Outcome.isCopyable : Outcome ν ε → Bool
  | .uncopyable _ | .uncopyableErr _ => false
  | .ok _ | .err _ | .raises _ => true

namespace Flight

variable {flight : Flight ν ε} {id other leader : TaskId} {task : Task ν ε}

/-! ## The ways to go -/

/-- How the computation of a task that leads goes on in one poll: the flight left behind and the
answer. -/
inductive Driven (flight : Flight ν ε) (id : TaskId) (task : Task ν ε) :
    Flight ν ε → Poll ν ε → Prop where
  | computing (open_ : task.outcome = none) : Driven flight id task flight .pending
  | publishes {outcome : Outcome ν ε} {result : Except ε ν} (came : task.outcome = some outcome)
      (is : outcome.result? = some result) (copyable : outcome.isCopyable = true)
      (good : flight.poisoned = false) :
      Driven flight id task (flight.conclude id task.key (.published result) .ended)
        (.returned result)
  | raises {text : String} (came : task.outcome = some (.raises text)) :
      Driven flight id task (flight.conclude id task.key .closed .ended) (.failed (.raised text))
  | refused {outcome : Outcome ν ε} {result : Except ε ν} (came : task.outcome = some outcome)
      (is : outcome.result? = some result) (bad : flight.poisoned = true) :
      Driven flight id task (flight.conclude id task.key .closed .ended)
        (.failed (.poisoned .callMap))
  | failsToCopy {outcome : Outcome ν ε} (came : task.outcome = some outcome)
      (uncopyable : outcome.isCopyable = false) (good : flight.poisoned = false) :
      Driven flight id task (flight.poison.conclude id task.key .closed .ended)
        (.failed .copyFailed)

/-- A task looks for a call: it never had one, or the leader it followed has gone without
publishing, of which `news` tells. -/
inductive Seeks (flight : Flight ν ε) (task : Task ν ε) : List Log.Event → Prop where
  | fresh (phase : task.phase = .fresh) : Seeks flight task []
  | released {leader : TaskId} (phase : task.phase = .following leader)
      (closed : flight.signal? leader = some .closed) :
      Seeks flight task [.callAbandoned task.key]

/-- How a poll of a live task can go. -/
inductive Turn (flight : Flight ν ε) (id : TaskId) (task : Task ν ε) : Polled ν ε → Prop where
  | waits {leader : TaskId} (phase : task.phase = .following leader)
      (pending : flight.signal? leader = some .pending) :
      Turn flight id task { flight, answer := .pending }
  | receives {leader : TaskId} {result : Except ε ν} (phase : task.phase = .following leader)
      (published : flight.signal? leader = some (.published result)) :
      Turn flight id task { flight := flight.setPhase id .ended, answer := .returned result }
  | refused {news : List Log.Event} (seeks : Seeks flight task news)
      (bad : flight.poisoned = true) :
      Turn flight id task
        { flight := flight.setPhase id .ended, answer := .failed (.poisoned .callMap)
          events := news }
  | joins {news : List Log.Event} {leader : TaskId} (seeks : Seeks flight task news)
      (good : flight.poisoned = false) (taken : flight.leader? task.key = some leader) :
      Turn flight id task
        { flight := flight.join id leader, answer := .pending
          events := news ++ [.callJoined task.key] }
  | failsToStart {news : List Log.Event} {text : String} (seeks : Seeks flight task news)
      (good : flight.poisoned = false) (free : flight.leader? task.key = none)
      (fault : task.startFault = some text) :
      Turn flight id task
        { flight := (flight.register id task.key).conclude id task.key .closed .ended
          answer := .failed (.raised text), started := true, events := news }
  | leads {news : List Log.Event} {flight' : Flight ν ε} {answer : Poll ν ε}
      (seeks : Seeks flight task news) (good : flight.poisoned = false)
      (free : flight.leader? task.key = none) (noFault : task.startFault = none)
      (driven : Driven (flight.register id task.key) id task flight' answer) :
      Turn flight id task { flight := flight', answer, started := true, events := news }
  | drives {flight' : Flight ν ε} {answer : Poll ν ε} (phase : task.phase = .leading)
      (driven : Driven flight id task flight' answer) :
      Turn flight id task { flight := flight', answer }

/-! ## The list is complete -/

/-- Each outcome of the computation is one of the ways in `Driven`. The two ways to end with a
result, copyable or not, are told apart first; on a lock that is poisoned already they come to the
same. -/
theorem drive_driven (flight : Flight ν ε) (id : TaskId) (task : Task ν ε) :
    ∃ flight' answer, flight.drive id task = { flight := flight', answer } ∧
      Driven flight id task flight' answer := by
  have completed : ∀ {outcome : Outcome ν ε} {result : Except ε ν},
      task.outcome = some outcome → outcome.result? = some result → outcome.isCopyable = true →
        ∃ flight' answer, flight.complete id task.key result = { flight := flight', answer } ∧
          Driven flight id task flight' answer := by
    intro outcome result came is copyable
    rw [complete_eq]
    cases lock : flight.poisoned with
    | true => exact ⟨_, _, rfl, .refused came is lock⟩
    | false => exact ⟨_, _, rfl, .publishes came is copyable lock⟩
  have uncopied : ∀ {outcome : Outcome ν ε} {result : Except ε ν},
      task.outcome = some outcome → outcome.result? = some result → outcome.isCopyable = false →
        ∃ flight' answer,
          (flight.failToPublish id : Polled ν ε) = { flight := flight', answer } ∧
            Driven flight id task flight' answer := by
    intro outcome result came is uncopyable
    rw [failToPublish_eq task.key]
    cases lock : flight.poisoned with
    | true =>
      -- a lock that is poisoned already cannot be poisoned again, so this is a plain refusal
      have same : flight.poison = flight := by rw [poison, ← lock]
      rw [same]
      exact ⟨_, _, rfl, .refused came is lock⟩
    | false => exact ⟨_, _, rfl, .failsToCopy came uncopyable lock⟩
  unfold drive
  cases came : task.outcome with
  | none => exact ⟨_, _, rfl, .computing came⟩
  | some outcome =>
    cases outcome with
    | ok value => exact completed came rfl rfl
    | err error => exact completed came rfl rfl
    | raises text => exact ⟨_, _, rfl, .raises came⟩
    | uncopyable value => exact uncopied came rfl rfl
    | uncopyableErr error => exact uncopied came rfl rfl

/-- Behind a registration of a good lock is an open call, so whoever joins it has to wait. -/
theorem Coherent.signal?_of_registered {key : String} (h : flight.Coherent)
    (good : flight.poisoned = false) (taken : flight.leader? key = some leader) :
    flight.signal? leader = some .pending := by
  obtain ⟨followers, found⟩ := (h.leading (h.registered good taken)).2
  exact signal?_of_call? found

/-- What one round of a task without a call comes to. -/
def enlist (flight : Flight ν ε) (id : TaskId) (task : Task ν ε) : Polled ν ε :=
  if flight.poisoned then
    { flight := flight.setPhase id .ended, answer := .failed (.poisoned .callMap) }
  else
    match flight.leader? task.key with
    | none => flight.lead id task
    | some leader =>
      { flight := flight.join id leader, answer := .pending, events := [.callJoined task.key] }

/-- The first round is the last, whatever would come after it. -/
theorem round_eq (h : flight.Coherent) (again : Flight ν ε → Polled ν ε) :
    flight.round id task again = flight.enlist id task := by
  unfold round enlist
  cases good : flight.poisoned with
  | true => rfl
  | false =>
    simp only [Bool.false_eq_true, if_false]
    cases taken : flight.leader? task.key with
    | none => rfl
    | some leader =>
      -- a call found in the registry is open, so the follower waits and does not come back
      have pending : (flight.join id leader).signal? leader = some .pending :=
        signal?_join.trans (h.signal?_of_registered good taken)
      simp only [await, pending, Polled.after]

/-- Whatever the bound on the rounds, a task that enters settles in the first one. So the bound
cannot be felt, and no task ever spins. -/
theorem enter_eq (h : flight.Coherent) (bound : Nat) :
    enter id task bound flight = flight.enlist id task := by
  cases bound <;> exact round_eq h _

/-- The round of a task that looks for a call is a turn, with the news of why it looks in front of
its own events. -/
theorem enlist_turn {news : List Log.Event} (seeks : Seeks flight task news) :
    Turn flight id task
      { flight.enlist id task with events := news ++ (flight.enlist id task).events } := by
  unfold enlist
  cases lock : flight.poisoned with
  | true =>
    have turn : Turn flight id task _ := .refused seeks lock
    simpa using turn
  | false =>
    simp only [Bool.false_eq_true, if_false]
    cases taken : flight.leader? task.key with
    | some leader => exact .joins seeks lock taken
    | none =>
      simp only [lead]
      cases fault : task.startFault with
      | some text =>
        simp only [release_setPhase]
        have turn : Turn flight id task _ := .failsToStart seeks lock taken fault
        simpa using turn
      | none =>
        obtain ⟨flight', answer, eq, driven⟩ := drive_driven (flight.register id task.key) id task
        simp only [eq]
        simpa using Turn.leads seeks lock taken fault driven

/-- Each phase a live task can be in has its ways to go, and they are all listed. -/
theorem advance_turn (h : flight.Coherent)
    (standing : flight.standing? id = some (task.key, task.phase)) (live : task.phase.isLive) :
    Turn flight id task (flight.advance id task) := by
  unfold advance
  cases phase : task.phase with
  | ended => rw [phase] at live; cases live
  | dropped => rw [phase] at live; cases live
  | leading =>
    obtain ⟨flight', answer, eq, driven⟩ := drive_driven flight id task
    simp only [eq]
    exact .drives phase driven
  | fresh =>
    -- the loop of `enter` stops in its first round
    simp only [enter_eq h]
    have turn : Turn flight id task _ := enlist_turn (.fresh phase)
    simpa using turn
  | following leader =>
    -- only here can the flight have gone on without the task since its last poll
    rw [phase] at standing
    obtain ⟨call, found, -⟩ := h.following standing
    have seen := signal?_of_call? found
    simp only [await, seen]
    cases signal : call.signal with
    | pending => exact .waits phase (signal ▸ seen)
    | published result => exact .receives phase (signal ▸ seen)
    | closed =>
      simp only [enter_eq h, Polled.after]
      have turn : Turn flight id task _ := enlist_turn (.released phase (signal ▸ seen))
      simpa using turn

/-- The flight as a poll of `id` finds it: what woke the task before no longer counts. -/
def attend (flight : Flight ν ε) (id : TaskId) : Flight ν ε :=
  flight.update id fun task => { task with woken := false }

/-- That a task is being polled cannot be felt by others. -/
@[simp] theorem standing?_attend : (flight.attend id).standing? other = flight.standing? other :=
  standing?_update fun _ => ⟨rfl, rfl⟩

theorem standing?_attend_of_task? (found : flight.task? id = some task) :
    (flight.attend id).standing? id = some (task.key, task.phase) :=
  standing?_attend.trans (standing?_of_task? found)

@[simp] theorem call?_attend : (flight.attend id).call? other = flight.call? other := rfl

@[simp] theorem signal?_attend : (flight.attend id).signal? other = flight.signal? other := rfl

@[simp] theorem leader?_attend {key : String} :
    (flight.attend id).leader? key = flight.leader? key := rfl

@[simp] theorem poisoned_attend : (flight.attend id).poisoned = flight.poisoned := rfl

/-- To mark a task as polled keeps the agreement. -/
theorem Coherent.attend (h : flight.Coherent) : (flight.attend id).Coherent :=
  h.update fun _ => ⟨rfl, rfl⟩

/-- **Every poll of a live task is a turn.** -/
theorem poll_turn (h : flight.Coherent) (found : flight.task? id = some task)
    (live : task.phase.isLive) : Turn (flight.attend id) id task (flight.poll id) := by
  have standing : (flight.attend id).standing? id = some (task.key, task.phase) :=
    standing?_attend_of_task? found
  have turn : Turn (flight.attend id) id task _ := advance_turn h.attend standing live
  unfold poll
  rw [found]
  simp only [live, if_true]
  exact turn

/-- A poll of a task that is over, or of none, does nothing. -/
theorem poll_gone (finished : ∀ task, flight.task? id = some task → task.phase.isLive = false) :
    flight.poll id = { flight, answer := .gone } := by
  unfold poll
  cases found : flight.task? id with
  | none => rfl
  | some task => simp [finished task found]

/-- There is a live task of this id, or there is nothing to poll or to drop. -/
theorem live_or_gone (flight : Flight ν ε) (id : TaskId) :
    (∃ task, flight.task? id = some task ∧ task.phase.isLive) ∨
      ∀ task, flight.task? id = some task → task.phase.isLive = false := by
  cases found : flight.task? id with
  | none => exact .inr nofun
  | some task =>
    cases live : task.phase.isLive with
    | true => exact .inl ⟨task, rfl, live⟩
    | false =>
      refine .inr fun other same => ?_
      rw [← Option.some.inj same]
      exact live

/-! ## Every step keeps the agreement -/

/-- Who looks for a call is live and does not lead, which is what registering, joining and retiring
ask of a task. -/
theorem Seeks.live {news : List Log.Event} (seeks : Seeks flight task news) :
    task.phase.isLive ∧ task.phase ≠ .leading := by
  cases seeks with
  | fresh phase => rw [phase]; exact ⟨rfl, nofun⟩
  | released phase _ => rw [phase]; exact ⟨rfl, nofun⟩

/-- A follower that looks for a call again has seen its own one closed. -/
theorem Seeks.closed {news : List Log.Event} (seeks : Seeks flight task news)
    (followed : task.phase = .following leader) : flight.signal? leader = some .closed := by
  cases seeks with
  | fresh phase => cases followed.symm.trans phase
  | released phase closed =>
    obtain rfl := Phase.following.inj (followed.symm.trans phase)
    exact closed

/-- However the computation of a leader goes on, the maps agree afterwards: it goes on as before, or
the leader concludes its call. Where a copy fails the lock is poisoned before. -/
theorem Driven.coherent {flight' : Flight ν ε} {answer : Poll ν ε}
    (driven : Driven flight id task flight' answer) (h : flight.Coherent)
    (standing : flight.standing? id = some (task.key, .leading)) : flight'.Coherent := by
  cases driven with
  | computing => exact h
  | publishes => exact h.conclude standing rfl nofun
  | raises => exact h.conclude standing rfl nofun
  | refused => exact h.conclude standing rfl nofun
  | failsToCopy => exact h.poison.conclude standing rfl nofun

/-- Each way a poll can go keeps the agreement, by the lemma for the change it makes. A leader that
ends in the poll that made it one takes two changes, to register and to conclude. -/
theorem Turn.coherent {polled : Polled ν ε} (turn : Turn flight id task polled)
    (h : flight.Coherent) (standing : flight.standing? id = some (task.key, task.phase)) :
    polled.flight.Coherent := by
  -- the task leads from the moment it is registered, before its computation is started
  have registered := standing?_register_self standing
  cases turn with
  | waits => exact h
  | receives phase => exact h.retire standing (by rw [phase]; rfl) (by rw [phase]; nofun) rfl
  | refused seeks => exact h.retire standing seeks.live.1 seeks.live.2 rfl
  | joins seeks good taken => exact h.join standing seeks.live.1 seeks.live.2 good taken
  | failsToStart seeks good free =>
    exact (h.register standing seeks.live.1 seeks.live.2 free).conclude registered rfl
      nofun
  | leads seeks good free _ driven =>
    exact driven.coherent (h.register standing seeks.live.1 seeks.live.2 free)
      registered
  | drives phase driven => exact driven.coherent h (phase ▸ standing)

/-- A poll keeps the agreement, be it of a live task, of one that is over or of none. -/
theorem Coherent.poll (h : flight.Coherent) : (flight.poll id).flight.Coherent := by
  obtain ⟨task, found, live⟩ | finished := live_or_gone flight id
  · exact (poll_turn h found live).coherent h.attend
      (standing?_attend_of_task? found)
  · rw [poll_gone finished]
    exact h

theorem Coherent.resolve {outcome : Outcome ν ε} (h : flight.Coherent) :
    (flight.resolve id outcome).Coherent :=
  h.update fun _ => ⟨rfl, rfl⟩

/-- There is nothing to drop of a task that is over or not there. -/
theorem abandon_gone (finished : ∀ task, flight.task? id = some task → task.phase.isLive = false) :
    flight.abandon id = (flight, false) := by
  unfold abandon
  cases found : flight.task? id with
  | none => rfl
  | some task =>
    have gone := finished task found
    cases phase : task.phase <;> simp_all [Phase.isLive]

/-- A task without a call of its own is dropped silently: nobody waits for it. The call it follows,
if any, goes on listing it. -/
theorem abandon_idle (found : flight.task? id = some task) (live : task.phase.isLive)
    (idle : task.phase ≠ .leading) : flight.abandon id = (flight.setPhase id .dropped, true) := by
  unfold abandon
  rw [found]
  cases phase : task.phase <;> simp_all [Phase.isLive]

/-- A leader that is dropped closes its call, which releases its followers. -/
theorem abandon_leading (found : flight.task? id = some task) (leads : task.phase = .leading) :
    flight.abandon id = (flight.conclude id task.key .closed .dropped, true) := by
  unfold abandon
  rw [found]
  simp only [leads, release_setPhase]

/-- After a task was dropped, or could not be, there is no live task of its id. -/
theorem abandon_over {task' : Task ν ε} (found' : (flight.abandon id).1.task? id = some task') :
    task'.phase.isLive = false := by
  -- whatever is done to let the task go, it ends as one that was dropped
  have dropped : ∀ {after : Flight ν ε} {key : String},
      after.standing? id = some (key, .dropped) → after.task? id = some task' →
        task'.phase.isLive = false := by
    intro after key standing there
    rw [standing?_of_task? there, Option.some.injEq, Prod.mk.injEq] at standing
    rw [standing.2]
    rfl
  obtain ⟨task, found, live⟩ | finished := live_or_gone flight id
  · have standing := standing?_of_task? found
    by_cases leads : task.phase = .leading
    · rw [abandon_leading found leads] at found'
      exact dropped (standing?_conclude_self standing) found'
    · rw [abandon_idle found live leads] at found'
      exact dropped (standing?_setPhase_self standing) found'
  · rw [abandon_gone finished] at found'
    exact finished task' found'

/-- To drop a task keeps the agreement: a leader concludes its call, any other task retires. -/
theorem Coherent.abandon (h : flight.Coherent) : (flight.abandon id).1.Coherent := by
  obtain ⟨task, found, live⟩ | finished := live_or_gone flight id
  · have standing := standing?_of_task? found
    by_cases leads : task.phase = .leading
    · rw [abandon_leading found leads]
      exact h.conclude (leads ▸ standing) rfl nofun
    · rw [abandon_idle found live leads]
      exact h.retire standing live leads rfl
  · rw [abandon_gone finished]
    exact h

/-- **Every step keeps the agreement.** -/
theorem Coherent.apply (h : flight.Coherent) (op : FlightOp ν ε) :
    (flight.apply op).flight.Coherent := by
  cases op with
  | spawn id key outcome startFault => exact h.spawn
  | poll id => exact h.poll
  | resolve id outcome => exact h.resolve
  | abandon id => exact h.abandon

/-- **Tasks, calls and registry agree after every history.** -/
theorem coherent_after (ops : List (FlightOp ν ε)) : (({} : Flight ν ε).after ops).Coherent := by
  suffices ∀ flight : Flight ν ε, flight.Coherent → (flight.after ops).Coherent from
    this {} coherent_empty
  induction ops with
  | nil => exact fun _ h => h
  | cons op ops ih => exact fun flight h => ih _ (h.apply op)

end Flight

end PeerCache
