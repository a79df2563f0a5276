import PeerCache.Proofs.Flight.Publishing

/-!
# Agreement

Whoever returns a result has it from one call that it led or joined while it was live, and the
leader of that call came to it. All that a history has to be remembered for is on show in its calls:
a result on show was published at one step (`exists_publishesAt`), a follower joined at one
(`exists_joinsAt`), and it stays with its call until it is over or the call is closed
(`JoinsAt.fate`). What is on show is final, so a call has one result for all who return through it.
-/

namespace PeerCache.Flight

variable {ν ε : Type} {ops : List (FlightOp ν ε)} {op : FlightOp ν ε} {id leader : TaskId}
  {key : String} {task : Task ν ε} {n m : Nat} {result : Except ε ν}

/-! ## What happens at a step -/

/-- At step `n` the task returns a result. -/
def ReturnsAt (ops : List (FlightOp ν ε)) (n : Nat) (id : TaskId) (result : Except ε ν) : Prop :=
  ops[n]? = some (.poll id) ∧
    ∃ step, stepAt ops n = some step ∧ step.answer = .polled (.returned result)

/-- At step `n` a poll of the task fails. -/
def FailsAt (ops : List (FlightOp ν ε)) (n : Nat) (id : TaskId) (fault : Fault) : Prop :=
  ops[n]? = some (.poll id) ∧
    ∃ step, stepAt ops n = some step ∧ step.answer = .polled (.failed fault)

/-- At step `n`, a poll of its own, the task joins the live call that `leader` leads under the key
of both. -/
def JoinsAt (ops : List (FlightOp ν ε)) (n : Nat) (id leader : TaskId) : Prop :=
  ops[n]? = some (.poll id) ∧ ∃ key, LiveLeader (ops.take n) leader key ∧
    (∃ step, stepAt ops n = some step ∧ .callJoined key ∈ step.events) ∧
    (before ops (n + 1)).standing? id = some (key, .following leader)

/-- At step `n` the task comes to the call of `leader`: it is that leader and its computation is
started, or it joins. -/
def TakesUpAt (ops : List (FlightOp ν ε)) (n : Nat) (id leader : TaskId) : Prop :=
  (leader = id ∧ StartsAt ops n id) ∨ JoinsAt ops n id leader

/-- At step `n` the task, whose computation has been started, has come to `result` and returns it:
as the leader of its call it publishes. -/
def PublishesAt (ops : List (FlightOp ν ε)) (n : Nat) (leader : TaskId) (result : Except ε ν) :
    Prop :=
  ReturnsAt ops n leader result ∧ (∃ m ≤ n, StartsAt ops m leader) ∧
    ∃ task, (before ops n).task? leader = some task ∧ task.CameTo result

theorem ReturnsAt.apply (returns : ReturnsAt ops n id result) :
    ((before ops n).apply (.poll id)).answer = .polled (.returned result) := by
  obtain ⟨found, step, there, answer⟩ := returns
  rw [stepAt_eq found, Option.some.injEq] at there
  rw [there]
  exact answer

theorem FailsAt.poll {fault : Fault} (fails : FailsAt ops n id fault) :
    ((before ops n).poll id).answer = .failed fault := by
  obtain ⟨found, step, there, answer⟩ := fails
  rw [stepAt_eq found, Option.some.injEq] at there
  subst there
  exact FlightAnswer.polled.inj answer

/-- To take up a call, by a start or a join, takes a poll of the task itself. -/
theorem TakesUpAt.polled (takesUp : TakesUpAt ops n id leader) : ops[n]? = some (.poll id) := by
  rcases takesUp with ⟨rfl, starts⟩ | joins
  · obtain ⟨op, found⟩ := starts.exists_op
    have mem := (startsAt_iff found).mp starts
    cases op with
    | poll polled =>
      obtain ⟨rfl, -⟩ := mem_started_poll.mp mem
      exact found
    | spawn => cases mem
    | resolve => cases mem
    | abandon => cases mem
  · exact joins.1

/-! ## What goes on from step to step -/

/-- A signal other than `pending` is on show at every later moment. -/
theorem signal?_before_mono {signal : Signal ν ε} (final : signal ≠ .pending) (le : n ≤ m)
    (shown : (before ops n).signal? leader = some signal) :
    (before ops m).signal? leader = some signal :=
  keeps_before (P := fun flight => flight.signal? leader = some signal)
    (fun _ op h there => h.sealed_apply op leader signal final there) le shown

/-- Who is past its start stays so. -/
theorem pastStart_before_mono (le : n ≤ m) (past : PastStart ((before ops n).standing? id)) :
    PastStart ((before ops m).standing? id) :=
  keeps_before (P := fun flight => PastStart (flight.standing? id))
    (fun _ op h there => ((h.apply_taskStep op id).1.pastStart there).2) le past

/-- Who is over stays so. -/
theorem isOver_before_mono (le : n ≤ m) (finished : IsOver ((before ops n).standing? id)) :
    IsOver ((before ops m).standing? id) :=
  keeps_before (P := fun flight => IsOver (flight.standing? id))
    (fun _ op h there => by rw [((h.apply_taskStep op id).1.over there).2]; exact there) le finished

/-- The step of a moment takes every task one step on, or leaves it where it was. -/
theorem taskStep_at (found : ops[n]? = some op) (id : TaskId) :
    TaskStep ((before ops n).standing? id) (decide (id ∈ ((before ops n).apply op).started))
      ((before ops (n + 1)).standing? id) := by
  rw [before_succ found]
  exact ((coherent_before ops n).apply_taskStep op id).1

/-- A step that starts a computation is a start for its task. -/
theorem StartsAt.taskStep (starts : StartsAt ops n id) :
    TaskStep ((before ops n).standing? id) true ((before ops (n + 1)).standing? id) := by
  obtain ⟨op, found⟩ := starts.exists_op
  have taskStep := taskStep_at found id
  rw [decide_eq_true ((startsAt_iff found).mp starts)] at taskStep
  exact taskStep

/-- From its start on a task is past it. -/
theorem StartsAt.pastStart (starts : StartsAt ops m id) (lt : m < n) :
    PastStart ((before ops n).standing? id) :=
  pastStart_before_mono lt starts.taskStep.pastStart_of_start

/-- Who follows has not been started: a start would have made it lead, and leaders come to follow
nobody. -/
theorem not_pastStart_of_following
    (follows : (before ops n).standing? id = some (key, .following leader)) :
    ¬ PastStart ((before ops n).standing? id) := by
  intro past
  rw [follows] at past
  cases past.not_idle rfl

/-- A task that is over takes up no call. -/
theorem TakesUpAt.not_over (takesUp : TakesUpAt ops n id leader) :
    ¬ IsOver ((before ops n).standing? id) := by
  intro finished
  rcases takesUp with ⟨rfl, starts⟩ | ⟨found, key, -, -, follows⟩
  · cases (starts.taskStep.over finished).1
  · -- joining would leave it as it was, that is over, and not following
    have taskStep := taskStep_at found id
    rw [(taskStep.over finished).2.symm, follows] at finished
    obtain ⟨_, _, same, gone⟩ := finished
    rw [Option.some.injEq, Prod.mk.injEq] at same
    rw [← same.2] at gone
    cases gone

/-- Whoever returns is over after it. -/
theorem ReturnsAt.isOver (returns : ReturnsAt ops n id result) :
    IsOver ((before ops (n + 1)).standing? id) := by
  rw [before_succ returns.1]
  exact (coherent_before ops n).isOver_of_returned returns.apply

/-- Nobody returns twice, nor after it failed or was dropped. -/
theorem ReturnsAt.not_over (returns : ReturnsAt ops n id result) :
    ¬ IsOver ((before ops n).standing? id) := by
  -- over, it is neither a follower nor a leader, nor can it be started
  intro finished
  have taskStep := taskStep_at returns.1 id
  obtain ⟨key, phase, standing, gone⟩ := finished
  rcases (coherent_before ops n).returned_apply returns.apply with
    ⟨_, _, follows, -⟩ | ⟨started | ⟨_, leads⟩, -⟩
  · rw [standing, Option.some.injEq, Prod.mk.injEq] at follows
    rw [follows.2] at gone
    cases gone
  · rw [decide_eq_true started] at taskStep
    cases (taskStep.over ⟨key, phase, standing, gone⟩).1
  · rw [standing, Option.some.injEq, Prod.mk.injEq] at leads
    rw [leads.2] at gone
    cases gone

/-- A follower stays with the call it joined until it is over or the call is closed. -/
theorem JoinsAt.fate (joins : JoinsAt ops m id leader) (lt : m < n) :
    (∃ key, (before ops n).standing? id = some (key, .following leader)) ∨
      IsOver ((before ops n).standing? id) ∨ (before ops n).signal? leader = some .closed := by
  obtain ⟨_, key, -, -, follows⟩ := joins
  refine keeps_before (P := fun flight =>
    (∃ key, flight.standing? id = some (key, .following leader)) ∨
      IsOver (flight.standing? id) ∨ flight.signal? leader = some .closed)
    (fun flight op h there => ?_) lt (.inl ⟨key, follows⟩)
  -- each of the last two alternatives is final, and the first one leads to the others only
  rcases there with ⟨key, followed⟩ | finished | closed
  · rcases h.left_apply op followed with stays | finished | closed
    · exact .inl ⟨key, stays⟩
    · exact .inr (.inl finished)
    · exact .inr (.inr (h.sealed_apply op leader .closed nofun closed))
  · rw [((h.apply_taskStep op id).1.over finished).2]
    exact .inr (.inl finished)
  · exact .inr (.inr (h.sealed_apply op leader .closed nofun closed))

/-! ## Where a state comes from -/

/-- A result on show was published at some step. -/
theorem exists_publishesAt (shown : (before ops n).signal? leader = some (.published result)) :
    ∃ p < n, PublishesAt ops p leader result := by
  induction n with
  | zero => simp [before, signal?, call?] at shown
  | succ n ih =>
    cases found : ops[n]? with
    | none =>
      rw [before_succ_of_none found] at shown
      obtain ⟨p, lt, publishes⟩ := ih shown
      exact ⟨p, by omega, publishes⟩
    | some op =>
      have coherent := coherent_before ops n
      rw [before_succ found] at shown
      rcases coherent.published_apply shown with old | ⟨rfl, answer, came, began⟩
      · obtain ⟨p, lt, publishes⟩ := ih old
        exact ⟨p, by omega, publishes⟩
      · -- this step publishes; its leader was started by it or by an earlier one
        refine ⟨n, by omega, ⟨found, _, stepAt_eq found, answer⟩, ?_, came⟩
        rcases began with started | ⟨key, leads⟩
        · exact ⟨n, Nat.le_refl n, (startsAt_iff found).mpr started⟩
        · have started := mem_startedIn_of_leading (ops.take n) leads
          obtain ⟨m, lt, starts⟩ := mem_startedIn_take_iff.mp started
          exact ⟨m, by omega, starts⟩

/-- Whoever follows a call joined it at some step. -/
theorem exists_joinsAt (follows : (before ops n).standing? id = some (key, .following leader)) :
    ∃ m < n, JoinsAt ops m id leader := by
  induction n with
  | zero => simp [before, standing?, task?] at follows
  | succ n ih =>
    cases found : ops[n]? with
    | none =>
      rw [before_succ_of_none found] at follows
      obtain ⟨m, lt, joins⟩ := ih follows
      exact ⟨m, by omega, joins⟩
    | some op =>
      have after := follows
      rw [before_succ found] at after
      rcases (coherent_before ops n).joined_apply after with old | ⟨rfl, leads, joined⟩
      · obtain ⟨m, lt, joins⟩ := ih old
        exact ⟨m, by omega, joins⟩
      · exact ⟨n, by omega, found, key, liveLeader_iff.mpr leads,
          ⟨_, stepAt_eq found, joined⟩, follows⟩

/-! ## One call, one result -/

/-- What a leader returns is on show from then on. -/
theorem PublishesAt.shown (publishes : PublishesAt ops n leader result) (lt : n < m) :
    (before ops m).signal? leader = some (.published result) := by
  obtain ⟨returns, ⟨start, le, starts⟩, -⟩ := publishes
  refine signal?_before_mono nofun lt ?_
  rw [before_succ returns.1]
  rcases (coherent_before ops n).returned_apply returns.apply with
    ⟨head, key, follows, -, idle⟩ | ⟨-, -, shown, -⟩
  · -- a follower returns only if it never started anything
    exfalso
    obtain same | lt := Nat.eq_or_lt_of_le le
    · exact idle ((startsAt_iff returns.1).mp (same ▸ starts))
    · exact not_pastStart_of_following follows (starts.pastStart lt)
  · exact shown

/-- A task publishes one result at most. Both would be on show at a moment after the two steps, and
a call shows one signal. -/
theorem PublishesAt.result_unique {p q : Nat} {other : Except ε ν}
    (one : PublishesAt ops p leader result) (two : PublishesAt ops q leader other) :
    result = other := by
  have first := one.shown (show p < p + q + 1 by omega)
  have second := two.shown (show q < p + q + 1 by omega)
  rw [first, Option.some.injEq] at second
  exact Signal.published.inj second

/-- A call that publishes is never seen closed, before or after: a closed one would have stayed so.
-/
theorem PublishesAt.not_closed {p : Nat} (publishes : PublishesAt ops p leader result) :
    (before ops n).signal? leader ≠ some .closed := by
  intro closed
  have shown := publishes.shown (show p < p + n + 1 by omega)
  have final : (Signal.closed : Signal ν ε) ≠ .pending := nofun
  have still := signal?_before_mono final (show n ≤ p + n + 1 by omega) closed
  rw [shown, Option.some.injEq] at still
  cases still

/-- The call of a live leader is open. -/
theorem LiveLeader.signal? (leads : LiveLeader (ops.take n) leader key) :
    (before ops n).signal? leader = some .pending := by
  obtain ⟨followers, found⟩ := ((coherent_before ops n).leading (liveLeader_iff.mp leads)).2
  exact signal?_of_call? found

/-- What a follower sees of its call tells what has become of it. -/
theorem call_followed (follows : (before ops n).standing? id = some (key, .following leader)) :
    ((before ops n).signal? leader = some .pending ∧ LiveLeader (ops.take n) leader key) ∨
    (∃ result, (before ops n).signal? leader = some (.published result)) ∨
    ((before ops n).signal? leader = some .closed ∧ ¬ LiveLeader (ops.take n) leader key ∧
      ∀ p result, ¬ PublishesAt ops p leader result) := by
  have coherent := coherent_before ops n
  obtain ⟨call, found, same, -⟩ := coherent.following follows
  have seen := signal?_of_call? found
  cases signal : call.signal with
  | pending =>
    have leads := coherent.openCall found signal
    exact .inl ⟨signal ▸ seen, liveLeader_iff.mpr (same ▸ leads)⟩
  | published result => exact .inr (.inl ⟨result, signal ▸ seen⟩)
  | closed =>
    rw [signal] at seen
    refine .inr (.inr ⟨seen, fun leads => ?_, fun p result publishes => publishes.not_closed seen⟩)
    cases seen.symm.trans leads.signal?

/-- Nothing is published before the step at which somebody joins. -/
theorem JoinsAt.le_publishes {p : Nat} (joins : JoinsAt ops m id leader)
    (publishes : PublishesAt ops p leader result) : m ≤ p := by
  obtain ⟨-, key, leads, -, -⟩ := joins
  by_contra lt
  -- otherwise the result is on show in the call that is joined, which is open
  have shown := publishes.shown (Nat.lt_of_not_le lt)
  cases shown.symm.trans leads.signal?

/-- Whoever returns took up the call it returns through before, or at this very step. -/
theorem TakesUpAt.le_returns (takesUp : TakesUpAt ops m id leader)
    (returns : ReturnsAt ops n id result) : m ≤ n := by
  by_contra lt
  exact takesUp.not_over (isOver_before_mono (Nat.lt_of_not_le lt) returns.isOver)

/-- Who joins does not return at the same step, since the call that is joined is open. -/
theorem JoinsAt.lt_returns (joins : JoinsAt ops m id leader)
    (returns : ReturnsAt ops n id result) : m < n := by
  have le := TakesUpAt.le_returns (.inr joins) returns
  refine Nat.lt_of_le_of_ne le ?_
  rintro rfl
  obtain ⟨-, key, -, -, follows⟩ := joins
  obtain ⟨_, _, same, gone⟩ := returns.isOver
  rw [follows, Option.some.injEq, Prod.mk.injEq] at same
  rw [← same.2] at gone
  cases gone

/-- A task that joined a call which published follows it until it returns. -/
theorem JoinsAt.follows_until {p : Nat} {shared : Except ε ν} (joins : JoinsAt ops m id leader)
    (publishes : PublishesAt ops p leader shared) (returns : ReturnsAt ops n id result) :
    ∃ key, (before ops n).standing? id = some (key, .following leader) := by
  rcases joins.fate (joins.lt_returns returns) with follows | finished | closed
  · exact follows
  · exact absurd finished returns.not_over
  · exact absurd closed publishes.not_closed

/-- Whoever returns as a follower never starts anything, not even later. -/
theorem ReturnsAt.never_starts (returns : ReturnsAt ops n id result)
    (follows : (before ops n).standing? id = some (key, .following leader))
    (idle : id ∉ ((before ops n).apply (.poll id)).started) : ¬ StartsAt ops m id := by
  intro starts
  have le := TakesUpAt.le_returns (.inl ⟨rfl, starts⟩) returns
  obtain rfl | lt := Nat.eq_or_lt_of_le le
  · exact idle ((startsAt_iff returns.1).mp starts)
  · exact not_pastStart_of_following follows (starts.pastStart lt)

/-- The call that a task returns through. -/
theorem ReturnsAt.through (returns : ReturnsAt ops n id result) :
    ∃ leader, (∃ m ≤ n, TakesUpAt ops m id leader) ∧
      (∃ p ≤ n, PublishesAt ops p leader result) ∧
      (∀ other m p shared, TakesUpAt ops m id other → PublishesAt ops p other shared →
        other = leader) ∧
      (leader ≠ id → ∀ m, ¬ StartsAt ops m id) := by
  rcases (coherent_before ops n).returned_apply returns.apply with
    ⟨leader, key, follows, shown, idle⟩ | ⟨began, came, -, closed⟩
  · -- it returns as a follower
    have never : ∀ m, ¬ StartsAt ops m id := fun m => returns.never_starts follows idle
    obtain ⟨m, lt, joins⟩ := exists_joinsAt follows
    obtain ⟨p, before_, publishes⟩ := exists_publishesAt shown
    refine ⟨leader, ⟨m, by omega, .inr joins⟩, ⟨p, by omega, publishes⟩, ?_, fun _ => never⟩
    -- of whatever call it joined that publishes, it is still a follower now
    intro other m' p' shared takesUp publishes'
    rcases takesUp with ⟨rfl, starts⟩ | joins'
    · exact absurd starts (never m')
    · obtain ⟨key', follows'⟩ := joins'.follows_until publishes' returns
      rw [follows, Option.some.injEq, Prod.mk.injEq] at follows'
      exact (Phase.following.inj follows'.2).symm
  · -- it returns as the leader of its own call
    obtain ⟨m, le, starts⟩ : ∃ m ≤ n, StartsAt ops m id := by
      rcases began with started | ⟨key, leads⟩
      · exact ⟨n, Nat.le_refl n, (startsAt_iff returns.1).mpr started⟩
      · obtain ⟨m, lt, starts⟩ :=
          mem_startedIn_take_iff.mp (mem_startedIn_of_leading (ops.take n) leads)
        exact ⟨m, Nat.le_of_lt lt, starts⟩
    refine ⟨id, ⟨m, le, .inl ⟨rfl, starts⟩⟩,
      ⟨n, Nat.le_refl n, returns, ⟨m, le, starts⟩, came⟩, ?_, fun apart => absurd rfl apart⟩
    -- any call that it followed until now was closed, or else it would not have started anything
    intro other m' p' shared takesUp publishes'
    rcases takesUp with ⟨rfl, -⟩ | joins'
    · rfl
    · obtain ⟨key, follows⟩ := joins'.follows_until publishes' returns
      exact absurd (closed other key follows) publishes'.not_closed

/-- **Agreement.** Whenever a task returns a result in a history, there is one call that it led or
joined, while the call was live, and whose leader came to just that result and published it.

* It is the only call the task ever led or joined that published anything.
* Whoever led or joined it and returns, whenever that is, returns the same.
* If the task is not the leader of it, its own computation was never started.
* It was not published before the first poll of the task. -/
theorem agreement (ops : List (FlightOp ν ε)) {n : Nat} {id : TaskId} {result : Except ε ν}
    (returns : ReturnsAt ops n id result) :
    ∃ leader, (∃ m ≤ n, TakesUpAt ops m id leader) ∧
      (∃ p ≤ n, PublishesAt ops p leader result) ∧
      (∀ other m p shared, TakesUpAt ops m id other → PublishesAt ops p other shared →
        other = leader) ∧
      (∀ id' m n' result', TakesUpAt ops m id' leader → ReturnsAt ops n' id' result' →
        result' = result) ∧
      (leader ≠ id → ∀ m, ¬ StartsAt ops m id) ∧
      (∀ p shared, PublishesAt ops p leader shared → ∃ m ≤ p, ops[m]? = some (.poll id)) := by
  obtain ⟨leader, ⟨m, le, takesUp⟩, ⟨p, le', publishes⟩, only, never⟩ := returns.through
  refine ⟨leader, ⟨m, le, takesUp⟩, ⟨p, le', publishes⟩, only, ?_, never, ?_⟩
  · intro id' m' n' result' takesUp' returns'
    -- the call is the one that the other task returns through as well
    obtain ⟨leader', -, ⟨p', -, publishes'⟩, only', -⟩ := returns'.through
    obtain rfl := only' leader m' p result takesUp' publishes
    exact publishes'.result_unique publishes
  · intro p' shared publishes'
    rcases takesUp with ⟨rfl, -⟩ | joins
    · obtain ⟨start, le, starts⟩ := publishes'.2.1
      exact ⟨start, le, TakesUpAt.polled (.inl ⟨rfl, starts⟩)⟩
    · exact ⟨m, joins.le_publishes publishes', joins.1⟩

/-- A follower polled only after a newer call for its key has come to another result still returns
that of the call it joined. -/
theorem agreement_late_poll :
    let ops : List (FlightOp Nat Nat) :=
      [.spawn 0 "a" none none, .spawn 1 "a" none none, .spawn 2 "a" (some (.ok 9)) none,
        .poll 0, .poll 1, .resolve 0 (.ok 7), .poll 0, .poll 2, .poll 1]
    ReturnsAt ops 8 1 (.ok 7) ∧ ∃ leader, (∃ m ≤ 8, TakesUpAt ops m 1 leader) ∧
      (∃ p ≤ 8, PublishesAt ops p leader (.ok 7)) ∧ (leader ≠ 1 → ∀ m, ¬ StartsAt ops m 1) := by
  intro ops
  have returns : ReturnsAt ops 8 1 (.ok 7) := ⟨rfl, _, rfl, rfl⟩
  obtain ⟨leader, takesUp, publishes, -, -, never, -⟩ := agreement ops returns
  exact ⟨returns, leader, takesUp, publishes, never⟩

end PeerCache.Flight
