import PeerCache.Proofs.Flight.Course

/-!
# How often a task tries again within one poll

A task without a call goes through a loop: it looks into the registry, leads or joins, and starts
over if the call it has joined shows that its leader has gone. `Flight.poll` counts the passes down
from a bound. Here the bound is taken away: `Flight.pollWithin` is a poll that may make some number
of passes and is handed over to whoever is named (`beyond`) if it wants another one. That a number
of passes is enough then means that it does not matter who is named.

A call found in the registry of a good lock is open, so whoever joins one does not come back. Hence
two passes are enough in every flight that can be reached, the second one for a follower whose
leader has gone, and `retries_once` says what that pass comes to.
-/

namespace PeerCache.Flight

variable {ν ε : Type} {flight : Flight ν ε} {id other leader : TaskId} {key : String}
  {task : Task ν ε}

/-! ## Polls with so many passes -/

/-- Goes through the loop of a task without a call at most `passes` times, then on with `beyond`. -/
def loop (beyond : Flight ν ε → Polled ν ε) (id : TaskId) (task : Task ν ε) :
    Nat → Flight ν ε → Polled ν ε
  | 0 => beyond
  | passes + 1 => fun flight => flight.round id task (loop beyond id task passes)

/-- Polls a task that is not over and goes through its loop at most `passes` times; whatever would
come after them is left to `beyond`. A follower is in the midst of a pass when it is polled. -/
def advanceWithin (flight : Flight ν ε) (passes : Nat) (beyond : Flight ν ε → Polled ν ε)
    (id : TaskId) (task : Task ν ε) : Polled ν ε :=
  match task.phase with
  | .fresh => loop beyond id task passes flight
  | .following leader =>
    match passes with
    | 0 => beyond flight
    | passes + 1 => flight.await id task.key leader (loop beyond id task passes)
  | .leading => flight.drive id task
  | .ended | .dropped => { flight, answer := .gone }

/-- Polls a task within so many passes through its loop. -/
def pollWithin (flight : Flight ν ε) (passes : Nat) (beyond : Flight ν ε → Polled ν ε)
    (id : TaskId) : Polled ν ε :=
  match flight.task? id with
  | none => { flight, answer := .gone }
  | some task =>
    if task.phase.isLive then (flight.attend id).advanceWithin passes beyond id task
    else { flight, answer := .gone }

/-- So many passes are enough for a poll: nothing comes after them, whatever that would be. -/
def EndsWithin (flight : Flight ν ε) (passes : Nat) (id : TaskId) : Prop :=
  ∀ beyond : Flight ν ε → Polled ν ε, flight.pollWithin passes beyond id = flight.poll id

/-- The task follows a call whose leader has gone. -/
def IsReleased (flight : Flight ν ε) (task : Task ν ε) : Prop :=
  ∃ leader, task.phase = .following leader ∧ flight.signal? leader = some .closed

/-- One pass is all that a task without a call needs. -/
theorem loop_succ (h : flight.Coherent) (beyond : Flight ν ε → Polled ν ε) (passes : Nat) :
    loop beyond id task (passes + 1) flight = flight.enlist id task :=
  round_eq h _

/-- It matters to a follower only what comes next in the flight as it is. -/
theorem await_congr {again again' : Flight ν ε → Polled ν ε} (same : again flight = again' flight) :
    flight.await id key leader again = flight.await id key leader again' := by
  unfold await
  rw [same]

/-- A follower whose leader has not gone does not try again. -/
theorem await_of_ne_closed {again again' : Flight ν ε → Polled ν ε} {signal : Signal ν ε}
    (shown : flight.signal? leader = some signal) (open_ : signal ≠ .closed) :
    flight.await id key leader again = flight.await id key leader again' := by
  unfold await
  rw [shown]
  cases signal with
  | pending => rfl
  | published result => rfl
  | closed => exact absurd rfl open_

/-- Two passes do what all of them do. A fresh task needs one; a follower is in the midst of its
first, and may need a second one. -/
theorem Coherent.advanceWithin_two (h : flight.Coherent) (beyond : Flight ν ε → Polled ν ε) :
    flight.advanceWithin 2 beyond id task = flight.advance id task := by
  unfold advanceWithin advance
  cases task.phase with
  | fresh => exact (loop_succ h beyond 1).trans (enter_eq h _).symm
  | following leader => exact await_congr ((loop_succ h beyond 0).trans (enter_eq h _).symm)
  | leading | ended | dropped => rfl

/-- A task that has not been released needs only one pass: a follower whose call is open or has
published does not come back from waiting. -/
theorem Coherent.advanceWithin_one (h : flight.Coherent) (beyond : Flight ν ε → Polled ν ε)
    (standing : flight.standing? id = some (task.key, task.phase))
    (kept : ¬ flight.IsReleased task) :
    flight.advanceWithin 1 beyond id task = flight.advance id task := by
  rw [← h.advanceWithin_two beyond]
  unfold advanceWithin
  cases phase : task.phase with
  | fresh => exact (loop_succ h beyond 0).trans (loop_succ h beyond 1).symm
  | following leader =>
    rw [phase] at standing
    obtain ⟨call, there, -⟩ := h.following standing
    have shown := signal?_of_call? there
    exact await_of_ne_closed shown fun closed => kept ⟨leader, phase, closed ▸ shown⟩
  | leading | ended | dropped => rfl

/-- A poll ends within so many passes if that is so for a task that is not over. -/
theorem endsWithin_of_advanceWithin {passes : Nat}
    (ends : ∀ beyond task, flight.task? id = some task →
      (flight.attend id).advanceWithin passes beyond id task =
        (flight.attend id).advance id task) : flight.EndsWithin passes id := by
  intro beyond
  unfold pollWithin poll
  cases found : flight.task? id with
  | none => rfl
  | some task =>
    have same := ends beyond task found
    exact if_congr Iff.rfl same rfl

/-- **Two passes are enough for every poll.** -/
theorem Coherent.endsWithin_two (h : flight.Coherent) (id : TaskId) : flight.EndsWithin 2 id :=
  endsWithin_of_advanceWithin fun beyond _ _ => h.attend.advanceWithin_two beyond

/-- One pass is enough unless the task has been released. -/
theorem Coherent.endsWithin_one (h : flight.Coherent) (id : TaskId)
    (kept : ∀ task, flight.task? id = some task → ¬ flight.IsReleased task) :
    flight.EndsWithin 1 id :=
  endsWithin_of_advanceWithin fun beyond task found =>
    h.attend.advanceWithin_one beyond (standing?_attend_of_task? found) (kept task found)

/-! ## What a poll comes to -/

/-- What becomes of a released follower when it is polled. -/
inductive Retries (flight : Flight ν ε) (id : TaskId) (task : Task ν ε) : Prop where
  /-- Its key is free, and it leads a call of its own. -/
  | leads (good : flight.poisoned = false) (free : flight.leader? task.key = none)
      (started : (flight.poll id).started = true)
      (own : ∃ call, (flight.poll id).flight.call? id = some call ∧ call.key = task.key)
      (events : (flight.poll id).events = [.callAbandoned task.key])
  /-- Somebody leads under its key, whose open call it joins; nothing else happens. -/
  | joins (leader : TaskId) (good : flight.poisoned = false)
      (taken : flight.leader? task.key = some leader)
      (leads : flight.standing? leader = some (task.key, .leading))
      (pending : flight.signal? leader = some .pending)
      (polled : flight.poll id =
        { flight := (flight.attend id).join id leader, answer := .pending
          events := [.callAbandoned task.key, .callJoined task.key] })
  /-- The lock is poisoned, of which the task dies. -/
  | fails (bad : flight.poisoned = true)
      (polled : flight.poll id =
        { flight := (flight.attend id).setPhase id .ended, answer := .failed (.poisoned .callMap)
          events := [.callAbandoned task.key] })

/-- A call that is concluded is still there, under the same key. -/
theorem exists_call_conclude {call : Call ν ε} {signal : Signal ν ε} {phase : Phase}
    (there : flight.call? id = some call) :
    ∃ call', (flight.conclude id key signal phase).call? id = some call' ∧
      call'.key = call.key := by
  rw [call?_conclude, if_pos rfl, there]
  exact ⟨_, rfl, rfl⟩

/-- A computation that is started or goes on leaves the leader the call that it has. -/
theorem Driven.exists_call {flight' : Flight ν ε} {answer : Poll ν ε} {call : Call ν ε}
    (driven : Driven flight id task flight' answer) (there : flight.call? id = some call) :
    ∃ call', flight'.call? id = some call' ∧ call'.key = call.key := by
  cases driven with
  | computing => exact ⟨call, there, rfl⟩
  | publishes | raises | refused => exact exists_call_conclude there
  | failsToCopy => exact exists_call_conclude (call?_poison.trans there)

/-- A released follower leads, joins or fails, according to the lock and to the registration of its
key. The other turns are those of tasks which lead or whose call is not closed. -/
theorem Coherent.retries (h : flight.Coherent) (found : flight.task? id = some task)
    (released : flight.IsReleased task) : flight.Retries id task := by
  obtain ⟨leader, phase, closed⟩ := released
  have live : task.phase.isLive = true := by rw [phase]; rfl
  have turn := poll_turn h found live
  -- a released follower has the news of it, and nothing else to do than to look for a call
  have news_eq : ∀ {news : List Log.Event}, Seeks (flight.attend id) task news →
      news = [.callAbandoned task.key] := by
    intro news seeks
    cases seeks with
    | fresh fresh => cases phase.symm.trans fresh
    | released => rfl
  generalize is : flight.poll id = polled at turn
  have registered : ((flight.attend id).register id task.key).call? id =
      some ⟨task.key, .pending, []⟩ := call?_register.trans (if_pos rfl)
  cases turn with
  | waits follows pending =>
    obtain rfl := Phase.following.inj (phase.symm.trans follows)
    cases closed.symm.trans pending
  | receives follows published =>
    obtain rfl := Phase.following.inj (phase.symm.trans follows)
    cases closed.symm.trans published
  | drives leads => cases phase.symm.trans leads
  | refused seeks bad =>
    obtain rfl := news_eq seeks
    exact .fails bad is
  | joins seeks good taken =>
    obtain rfl := news_eq seeks
    exact .joins _ good taken (h.registered good taken) (h.signal?_of_registered good taken) is
  | failsToStart seeks good free fault =>
    obtain rfl := news_eq seeks
    refine .leads good free (by rw [is]) ?_ (by rw [is])
    rw [is]
    exact exists_call_conclude registered
  | leads seeks good free noFault driven =>
    obtain rfl := news_eq seeks
    refine .leads good free (by rw [is]) ?_ (by rw [is])
    rw [is]
    exact driven.exists_call registered

theorem Seeks.sublist {news : List Log.Event} (seeks : Seeks flight task news) :
    news.Sublist [.callAbandoned task.key] := by
  cases seeks with
  | fresh => exact List.nil_sublist _
  | released => exact List.Sublist.refl _

/-- A poll tells at most that a call was abandoned, and then that one was joined. -/
theorem Turn.events_sublist {polled : Polled ν ε} (turn : Turn flight id task polled) :
    polled.events.Sublist [.callAbandoned task.key, .callJoined task.key] := by
  have first : ∀ {news : List Log.Event}, Seeks flight task news →
      news.Sublist [.callAbandoned task.key, .callJoined task.key] :=
    fun seeks => seeks.sublist.trans (List.sublist_append_left _ [_])
  cases turn with
  | waits | receives | drives => exact List.nil_sublist _
  | refused seeks => exact first seeks
  | joins seeks => exact seeks.sublist.append (List.Sublist.refl [_])
  | failsToStart seeks => exact first seeks
  | leads seeks => exact first seeks

/-- A computation never spins, since it goes through no loop. -/
theorem Driven.answer_ne_spinning {flight' : Flight ν ε} {answer : Poll ν ε}
    (driven : Driven flight id task flight' answer) : answer ≠ .spinning := by
  cases driven <;> nofun

/-- No turn spins. As the turns are all that polls of live tasks can be, the bound on the rounds is
never used up. -/
theorem Turn.answer_ne_spinning {polled : Polled ν ε} (turn : Turn flight id task polled) :
    polled.answer ≠ .spinning := by
  cases turn with
  | waits | receives | refused | joins | failsToStart => nofun
  | leads _ _ _ _ driven => exact driven.answer_ne_spinning
  | drives _ driven => exact driven.answer_ne_spinning

/-- **A task tries again at most once in a poll.** After every history, whether or not it has
poisoned the lock, and however many leaders have gone since a task was last polled:

* what a good registry has for a key is the open call of a leader at work;
* the poll ends within two passes through the loop of the task, and within one unless the task
  follows a call whose leader has gone; it never spins;
* such a follower leads a call of its own, joins one open call and waits, or dies of the poisoned
  lock;
* the poll tells at most that a call was abandoned, and after it that one was joined, each once. -/
theorem retries_once (ops : List (FlightOp ν ε)) (id : TaskId) :
    let flight := ({} : Flight ν ε).after ops
    (flight.poisoned = false → ∀ key leader, flight.leader? key = some leader →
      LiveLeader ops leader key ∧ flight.signal? leader = some .pending) ∧
    flight.EndsWithin 2 id ∧
    ((∀ task, flight.task? id = some task → ¬ flight.IsReleased task) → flight.EndsWithin 1 id) ∧
    (flight.poll id).answer ≠ .spinning ∧
    (∀ task, flight.task? id = some task → flight.IsReleased task → flight.Retries id task) ∧
    (flight.task? id = none → (flight.poll id).events = []) ∧
    ∀ task, flight.task? id = some task →
      (flight.poll id).events.Sublist [.callAbandoned task.key, .callJoined task.key] := by
  intro flight
  have coherent : flight.Coherent := coherent_after ops
  refine ⟨fun good key leader taken => ?_, coherent.endsWithin_two id, coherent.endsWithin_one id,
    ?_, fun task found => coherent.retries found, fun none => ?_, fun task found => ?_⟩
  · exact ⟨liveLeader_iff.mpr (coherent.registered good taken),
      coherent.signal?_of_registered good taken⟩
  · obtain ⟨task, found, live⟩ | finished := live_or_gone flight id
    · exact (poll_turn coherent found live).answer_ne_spinning
    · rw [poll_gone finished]
      nofun
  · rw [poll_gone (by rw [none]; exact nofun)]
  · obtain ⟨task', found', live⟩ | finished := live_or_gone flight id
    · obtain rfl : task = task' := Option.some.inj (found.symm.trans found')
      exact (poll_turn coherent found live).events_sublist
    · rw [poll_gone finished]
      exact List.nil_sublist _

/-- Two leaders go while task 1 is not polled. It follows the third one then, which it finds in its
second pass; to poll the third one takes no second pass, and to poll nobody tells nothing. -/
theorem retries_once_past_two_leaders :
    let ops : List (FlightOp Nat Nat) :=
      [.spawn 0 "a" none none, .poll 0, .spawn 1 "a" none none, .poll 1, .abandon 0,
        .spawn 2 "a" none none, .poll 2, .abandon 2, .spawn 3 "a" none none, .poll 3]
    let flight := ({} : Flight Nat Nat).after ops
    flight.EndsWithin 2 1 ∧ LiveLeader ops 3 "a" ∧
      flight.poll 1 = { flight := (flight.attend 1).join 1 3, answer := .pending
                        events := [.callAbandoned "a", .callJoined "a"] } ∧
      flight.EndsWithin 1 3 ∧ (flight.poll 4).events = [] := by
  intro ops flight
  obtain ⟨opened, two, -, -, retries, -, -⟩ := retries_once ops 1
  refine ⟨two, (opened rfl "a" 3 rfl).1, ?_, (retries_once ops 3).2.2.1 ?_,
    (retries_once ops 4).2.2.2.2.2.1 rfl⟩
  · cases retries _ rfl ⟨0, rfl, rfl⟩ with
    | leads _ free => cases free
    | joins leader _ taken _ _ polled =>
      obtain rfl : 3 = leader := Option.some.inj taken
      exact polled
    | fails bad => cases bad
  · rintro task found ⟨leader, follows, -⟩
    have leads : flight.task? 3 = some { key := "a", phase := .leading, woken := false } := rfl
    rw [← Option.some.inj (leads.symm.trans found)] at follows
    cases follows

end PeerCache.Flight
