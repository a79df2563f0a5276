import PeerCache.Proofs.Flight.Independence
import PeerCache.Proofs.Flight.Without

/-!
# Followers are passive

A history is cut down to the steps that are not done to one task (`onOthers`). If the history never
starts the computation of that task, then the flight after what is left of it is at every moment the
flight after the whole with the task taken out (`without_before`). So nobody can tell whether the
task has been there: it may join calls and wait, be polled again and again, be dropped, and meet
failures and a poisoned lock.
-/

namespace PeerCache.Flight

variable {ν ε : Type} {id other : TaskId} {ops : List (FlightOp ν ε)} {op : FlightOp ν ε} {n : Nat}

/-- The steps of a history that are not done to a task. -/
def onOthers (ops : List (FlightOp ν ε)) (id : TaskId) : List (FlightOp ν ε) :=
  ops.filter fun op => op.subject ≠ id

/-- How many of the first `n` steps of a history are not done to a task. -/
def countOnOthers (ops : List (FlightOp ν ε)) (id : TaskId) (n : Nat) : Nat :=
  (ops.take n).countP fun op => op.subject ≠ id

/-- A step that stays comes behind as many others as there are before it that stay too. -/
theorem getElem?_onOthers (found : ops[n]? = some op) (apart : op.subject ≠ id) :
    (onOthers ops id)[countOnOthers ops id n]? = some op :=
  getElem?_filter_countP found (decide_eq_true apart)

section Unstarted

variable (unstarted : id ∉ startedIn ops)

include unstarted

/-- **With the task taken out, the flight after a history is the flight after the other steps.** -/
theorem without_before (n : Nat) :
    (before ops n).without id = before (onOthers ops id) (countOnOthers ops id n) := by
  induction n with
  | zero => exact without_empty
  | succ n ih =>
    cases found : ops[n]? with
    | none =>
      rw [before_succ_of_none found, ih, countOnOthers, countOnOthers,
        countP_take_succ_of_none found]
    | some op =>
      rw [before_succ found]
      by_cases mine : op.subject = id
      · have count : countOnOthers ops id (n + 1) = countOnOthers ops id n :=
          countP_take_succ_of_neg found (by simpa using mine)
        rw [count, ← ih]
        have idle : ∀ key, (before ops n).standing? id ≠ some (key, .leading) :=
          fun key leads => unstarted (mem_startedIn_of_leading_before leads)
        refine (coherent_before ops n).without_apply_self mine idle fun mem => unstarted ?_
        exact ((startsAt_iff found).mpr mem).mem_startedIn
      · have count : countOnOthers ops id (n + 1) = countOnOthers ops id n + 1 :=
          countP_take_succ_of_pos found (by simpa using mine)
        rw [count, before_succ (getElem?_onOthers found mine), ← ih, ← without_apply mine]
        rfl

/-- A step of another task is the same step among those that are left. -/
theorem stepAt_onOthers (found : ops[n]? = some op) (apart : op.subject ≠ id) :
    ∃ step, stepAt ops n = some step ∧
      stepAt (onOthers ops id) (countOnOthers ops id n) = some (step.without id) := by
  refine ⟨_, stepAt_eq found, ?_⟩
  rw [stepAt_eq (getElem?_onOthers found apart), ← without_before unstarted, without_apply apart]

/-- The other tasks are what they are, at every moment. -/
theorem task?_before_onOthers (apart : other ≠ id) :
    (before (onOthers ops id) (countOnOthers ops id n)).task? other =
      (before ops n).task? other := by
  rw [← without_before unstarted, task?_without_of_ne apart.symm]

/-- The others are started by the steps that started them, none of which is a step of the task. -/
theorem startsAt_onOthers (apart : other ≠ id) :
    StartsAt ops n other ↔
      (∃ op, ops[n]? = some op ∧ op.subject ≠ id) ∧
        StartsAt (onOthers ops id) (countOnOthers ops id n) other := by
  refine startsAt_cutDown apart fun op found own => ?_
  obtain ⟨step, there, alone⟩ := stepAt_onOthers unstarted found own
  exact ⟨step, _, there, alone, rfl⟩

end Unstarted

/-- **Followers are passive.** In a history that never starts the computation of a task, whatever
fails in it, all steps of the task can be left out:

* each of the other steps is still there, is answered alike, and starts and reports the same;
* at every moment each other task is the same, and awake or not alike;
* at every moment as many calls are in flight, and the flight is described in the same text;
* the computations of all others are started by the same steps, and by no others. -/
theorem followers_passive (ops : List (FlightOp ν ε)) (id : TaskId)
    (unstarted : id ∉ startedIn ops) :
    (∀ n op, ops[n]? = some op → op.subject ≠ id →
      (onOthers ops id)[countOnOthers ops id n]? = some op ∧
      ∃ step alone, stepAt ops n = some step ∧
        stepAt (onOthers ops id) (countOnOthers ops id n) = some alone ∧
        alone.answer = step.answer ∧ alone.started = step.started ∧ alone.events = step.events) ∧
    (∀ n other, other ≠ id →
      (before (onOthers ops id) (countOnOthers ops id n)).task? other = (before ops n).task? other ∧
      (before (onOthers ops id) (countOnOthers ops id n)).isAwake other =
        (before ops n).isAwake other) ∧
    (∀ n, (before (onOthers ops id) (countOnOthers ops id n)).inFlight = (before ops n).inFlight ∧
      (before (onOthers ops id) (countOnOthers ops id n)).describe = (before ops n).describe) ∧
    (∀ n other, other ≠ id →
      (StartsAt ops n other ↔ (∃ op, ops[n]? = some op ∧ op.subject ≠ id) ∧
        StartsAt (onOthers ops id) (countOnOthers ops id n) other)) := by
  refine ⟨fun n op found apart => ?_, fun n other apart => ?_, fun n => ?_,
    fun n other apart => startsAt_onOthers unstarted apart⟩
  · obtain ⟨step, there, alone⟩ := stepAt_onOthers unstarted found apart
    exact ⟨getElem?_onOthers found apart, step, _, there, alone, rfl, rfl, rfl⟩
  · have same := task?_before_onOthers unstarted (n := n) apart
    exact ⟨same, congrArg (Option.any Task.isAwake) same⟩
  · rw [← without_before unstarted]
    exact ⟨inFlight_without, describe_without⟩

/-- Task 1 joins the call of task 0, is polled once more and is dropped while it waits; then the
call ends in a failure that poisons the lock. Task 2, which follows too, is woken by that step with
task 1 and without, where it is the sixth that is left. -/
theorem followers_passive_dropped :
    let ops : List (FlightOp Nat Nat) :=
      [.spawn 0 "a" none none, .poll 0, .spawn 1 "a" none none, .poll 1, .spawn 2 "a" none none,
        .poll 2, .poll 1, .abandon 1, .resolve 0 (.uncopyable 5), .poll 0, .poll 2]
    1 ∉ startedIn ops ∧ countOnOthers ops 1 10 = 6 ∧ (before ops 10).poisoned = true ∧
      (before ops 10).isAwake 2 = true ∧ (before (onOthers ops 1) 6).isAwake 2 = true := by
  intro ops
  have unstarted : 1 ∉ startedIn ops := by
    show 1 ∉ [0]
    decide
  obtain ⟨-, tasks, -, -⟩ := followers_passive ops 1 unstarted
  have awake : (before ops 10).isAwake 2 = true := rfl
  exact ⟨unstarted, rfl, rfl, awake, (tasks 10 2 (by decide)).2.trans awake⟩

end PeerCache.Flight
