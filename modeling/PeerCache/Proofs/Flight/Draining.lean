import Mathlib.Data.Finset.Card
import Mathlib.Data.Nat.Choose.Basic
import PeerCache.Proofs.Flight.Poisoned
import PeerCache.Proofs.Flight.Waiting

/-!
# Polling drains

Whoever polls awake tasks only, in whatever order, comes to an end: `pollsLeft` bounds the polls to
come, from every state of a flight and with the lock poisoned too.

A poll of an awake task goes one of two ways (`Turn.ends_or_rests`). It ends the task, and then it
may wake all others; or it leaves the task asleep and everybody else as they were. So the polls
that end nothing are paid for by the tasks that are awake, and one that ends a task is paid for by
the pairs of live tasks: with `n` of them left there were `n` more pairs before
(`Coherent.pollsLeft_poll_lt`).

What is left when nobody is awake any more is what `attended_after` says tasks can wait for.
-/

namespace PeerCache.Flight

variable {ν ε : Type} {flight flight' : Flight ν ε} {id other : TaskId} {ids : List TaskId}
  {task : Task ν ε}

/-! ## Who is live, and who is awake -/

/-- There is a task of this id that is not over. -/
def isLive (flight : Flight ν ε) (id : TaskId) : Bool :=
  (flight.task? id).any fun task => task.phase.isLive

/-- The tasks that are not over. -/
def liveIds (flight : Flight ν ε) : Finset TaskId :=
  flight.tasks.keys.toFinset.filter fun id => flight.isLive id

/-- Whether a task is live is a matter of its phase, once it is there. -/
theorem isLive_of_task? (found : flight.task? id = some task) :
    flight.isLive id = task.phase.isLive := by
  rw [isLive, found, Option.any_some]

/-- Who is live can be told from the standings, so it is felt by others when a task ends. -/
theorem isLive_iff_standing? :
    flight.isLive id ↔ ∃ key phase, flight.standing? id = some (key, phase) ∧ phase.isLive := by
  rw [isLive, standing?]
  cases flight.task? id <;> simp

/-- A standing tells whether its task is live. -/
theorem isLive_of_standing? {key : String} {phase : Phase}
    (standing : flight.standing? id = some (key, phase)) : flight.isLive id = phase.isLive := by
  obtain ⟨task, found, -, rfl⟩ := task?_of_standing? standing
  exact isLive_of_task? found

/-- Awake is who was woken and is not over; one without the other is no reason to poll. -/
theorem isAwake_iff :
    flight.isAwake id ↔ ∃ task, flight.task? id = some task ∧ task.woken ∧ task.phase.isLive := by
  simp [isAwake, Task.isAwake, Option.any_eq_true]

/-- Nobody who is over is ever polled for being woken. -/
theorem isLive_of_isAwake (awake : flight.isAwake id) : flight.isLive id := by
  obtain ⟨task, found, -, live⟩ := isAwake_iff.mp awake
  rw [isLive_of_task? found, live]

/-- Live tasks are among those a pass visits. -/
theorem mem_keys_of_isLive (live : flight.isLive id) : id ∈ flight.tasks.keys := by
  obtain ⟨key, phase, standing, -⟩ := isLive_iff_standing?.mp live
  obtain ⟨task, found, -⟩ := task?_of_standing? standing
  rw [Std.ExtTreeMap.mem_keys, ← Std.ExtTreeMap.isSome_getElem?_iff_mem]
  exact Option.isSome_of_eq_some found

/-- Being live implies being there, so the set of live tasks is not cut short by the keys it was
filtered from. -/
@[simp] theorem mem_liveIds : id ∈ flight.liveIds ↔ flight.isLive id := by
  rw [liveIds, Finset.mem_filter, List.mem_toFinset, and_iff_right_iff_imp]
  exact mem_keys_of_isLive

/-- No more polls of awake tasks than these can follow. -/
def pollsLeft (flight : Flight ν ε) : Nat :=
  flight.liveIds.card.choose 2 + flight.awake.toFinset.card

/-! ## One poll -/

/-- The task whose turn it was is over, or it is as awake as the poll has found it and nobody else
has noticed. -/
def EndsOrRests (flight : Flight ν ε) (id : TaskId) (key : String) (flight' : Flight ν ε) : Prop :=
  flight'.standing? id = some (key, .ended) ∨
    (flight'.isLive id ∧ (flight'.task? id).map (·.woken) = (flight.task? id).map (·.woken) ∧
      ∀ other, id ≠ other → flight'.task? other = flight.task? other)

/-- A turn that changes nothing is one of rest. -/
theorem EndsOrRests.refl (standing : flight.standing? id = some (task.key, task.phase))
    (live : task.phase.isLive) : flight.EndsOrRests id task.key flight :=
  .inr ⟨(isLive_of_standing? standing).trans live, rfl, fun _ _ => rfl⟩

/-- A live task goes on to another phase and stays live. -/
theorem EndsOrRests.setPhase {phase : Phase}
    (standing : flight.standing? id = some (task.key, task.phase)) (live : phase.isLive)
    (tasks : ∀ other, flight'.task? other = (flight.setPhase id phase).task? other) :
    flight.EndsOrRests id task.key flight' := by
  obtain ⟨task', found, -⟩ := task?_of_standing? standing
  have mine : flight'.task? id = some { task' with phase } := by
    rw [tasks, task?_setPhase, if_pos rfl, found, Option.map_some]
  refine .inr ⟨?_, ?_, fun other apart => ?_⟩
  · rw [isLive_of_task? mine]
    exact live
  · rw [mine, found, Option.map_some, Option.map_some]
  · rw [tasks, task?_setPhase, if_neg apart]

/-- In one poll a leader either ends or has not got anywhere: without an outcome there is nothing to
do, and with one it goes. -/
theorem Driven.ended_or_same {answer : Poll ν ε} (driven : Driven flight id task flight' answer)
    (standing : flight.standing? id = some (task.key, .leading)) :
    flight'.standing? id = some (task.key, .ended) ∨ flight' = flight := by
  cases driven with
  | computing => exact .inr rfl
  | publishes => exact .inl (standing?_conclude_self standing)
  | raises => exact .inl (standing?_conclude_self standing)
  | refused => exact .inl (standing?_conclude_self standing)
  | failsToCopy =>
    have poisoned : flight.poison.standing? id = some (task.key, .leading) := standing
    exact .inl (standing?_conclude_self poisoned)

/-- **A turn ends the task, or it wakes nobody.** -/
theorem Turn.ends_or_rests {polled : Polled ν ε} (turn : Turn flight id task polled)
    (standing : flight.standing? id = some (task.key, task.phase)) (live : task.phase.isLive) :
    flight.EndsOrRests id task.key polled.flight := by
  have registered := standing?_register_self standing
  cases turn with
  | waits => exact .refl standing live
  | receives => exact .inl (standing?_setPhase_self standing)
  | refused => exact .inl (standing?_setPhase_self standing)
  | joins => exact .setPhase standing rfl fun _ => rfl
  | failsToStart => exact .inl (standing?_conclude_self registered)
  | leads _ _ _ _ driven =>
    rcases driven.ended_or_same registered with ended | rfl
    · exact .inl ended
    · exact .setPhase standing rfl fun _ => rfl
  | drives phase driven =>
    rcases driven.ended_or_same (phase ▸ standing) with ended | rfl
    · exact .inl ended
    · exact .refl standing live

/-- A poll leaves nobody live who was not. -/
theorem Coherent.isLive_of_poll (h : flight.Coherent)
    (live : (flight.poll id).flight.isLive other) : flight.isLive other := by
  by_cases apart : id = other
  · subst apart
    obtain ⟨task, found, before⟩ | finished := live_or_gone flight id
    · rw [isLive_of_task? found, before]
    · rwa [poll_gone finished] at live
  · rw [isLive_iff_standing?] at live ⊢
    rwa [(h.poll_taskStep id).2 other apart] at live

/-- The live tasks only get fewer when tasks are polled. -/
theorem Coherent.liveIds_poll_subset (h : flight.Coherent) (id : TaskId) :
    (flight.poll id).flight.liveIds ⊆ flight.liveIds := by
  intro other live
  rw [mem_liveIds] at live ⊢
  exact h.isLive_of_poll live

/-- A poll of an awake task ends it, or takes it off those that are awake and wakes nobody. -/
theorem Coherent.poll_ends_or_rests (h : flight.Coherent) (awake : flight.isAwake id) :
    (∃ key, (flight.poll id).flight.standing? id = some (key, .ended)) ∨
      ((flight.poll id).flight.isLive id ∧
        ∀ other, (flight.poll id).flight.isAwake other → id ≠ other ∧ flight.isAwake other) := by
  obtain ⟨task, found, -, live⟩ := isAwake_iff.mp awake
  have attended : (flight.attend id).task? id = some { task with woken := false } := by
    rw [Flight.attend, task?_update, if_pos rfl, found, Option.map_some]
  have turn := poll_turn h found live
  rcases turn.ends_or_rests (standing?_attend_of_task? found) live with
    ended | ⟨stays, woken, others⟩
  · exact .inl ⟨_, ended⟩
  · refine .inr ⟨stays, fun other awake' => ?_⟩
    rw [attended] at woken
    obtain ⟨task', found', wokenNow, liveNow⟩ := isAwake_iff.mp awake'
    have apart : id ≠ other := by
      rintro rfl
      rw [found', Option.map_some, Option.map_some, Option.some.injEq, wokenNow] at woken
      cases woken
    rw [others other apart, Flight.attend, task?_update, if_neg apart] at found'
    exact ⟨apart, isAwake_iff.mpr ⟨task', found', wokenNow, liveNow⟩⟩

/-- A poll that ends its task leaves one live task less: the others are live only if they were. -/
theorem Coherent.card_liveIds_poll_lt {key : String} (h : flight.Coherent) (live : flight.isLive id)
    (ended : (flight.poll id).flight.standing? id = some (key, .ended)) :
    (flight.poll id).flight.liveIds.card < flight.liveIds.card := by
  have gone : id ∉ (flight.poll id).flight.liveIds := by
    rw [mem_liveIds, isLive_of_standing? ended]
    exact Bool.false_ne_true
  have less := (Finset.ssubset_iff_of_subset (h.liveIds_poll_subset id)).mpr
    ⟨id, mem_liveIds.mpr live, gone⟩
  exact Finset.card_lt_card less

theorem mem_awake_toFinset : id ∈ flight.awake.toFinset ↔ flight.isAwake id := by
  rw [List.mem_toFinset, mem_awake]

/-- A poll that ends its task is paid for by the pairs of live tasks, any other one by the tasks
that are awake. -/
theorem Coherent.pollsLeft_poll_lt (h : flight.Coherent) (awake : flight.isAwake id) :
    (flight.poll id).flight.pollsLeft < flight.pollsLeft := by
  have wasAwake : id ∈ flight.awake.toFinset := mem_awake_toFinset.mpr awake
  unfold pollsLeft
  rcases h.poll_ends_or_rests awake with ⟨key, ended⟩ | ⟨-, rests⟩
  · -- whoever is awake now is one of the live tasks that are left
    have oneLess := h.card_liveIds_poll_lt (isLive_of_isAwake awake) ended
    have atMost : (flight.poll id).flight.awake.toFinset.card ≤
        (flight.poll id).flight.liveIds.card := by
      refine Finset.card_le_card fun other awake' => ?_
      exact mem_liveIds.mpr (isLive_of_isAwake (mem_awake_toFinset.mp awake'))
    have here : 0 < flight.awake.toFinset.card := Finset.card_pos.mpr ⟨id, wasAwake⟩
    have pairs : (flight.poll id).flight.liveIds.card.choose 2 +
        (flight.poll id).flight.liveIds.card ≤ flight.liveIds.card.choose 2 := by
      calc (flight.poll id).flight.liveIds.card.choose 2 + (flight.poll id).flight.liveIds.card
          = ((flight.poll id).flight.liveIds.card + 1).choose 2 := by
            rw [Nat.choose_succ_succ' _ 1, Nat.choose_one_right, Nat.add_comm]
        _ ≤ flight.liveIds.card.choose 2 := Nat.choose_le_choose 2 oneLess
    omega
  · have asleep : (flight.poll id).flight.awake.toFinset ⊂ flight.awake.toFinset := by
      refine (Finset.ssubset_iff_of_subset fun other awake' => ?_).mpr ⟨id, wasAwake, fun mem => ?_⟩
      · exact mem_awake_toFinset.mpr (rests other (mem_awake_toFinset.mp awake')).2
      · exact (rests id (mem_awake_toFinset.mp mem)).1 rfl
    have oneLess := Finset.card_lt_card asleep
    have pairs : (flight.poll id).flight.liveIds.card.choose 2 ≤ flight.liveIds.card.choose 2 :=
      Nat.choose_le_choose 2 (Finset.card_le_card (h.liveIds_poll_subset id))
    omega

/-! ## Any number of polls -/

/-- Each of these tasks is awake when it is its turn to be polled. -/
def PollsAwake (flight : Flight ν ε) : List TaskId → Prop
  | [] => True
  | id :: ids => flight.isAwake id ∧ (flight.poll id).flight.PollsAwake ids

/-- **Each poll of an awake task brings the end nearer.** -/
theorem Coherent.length_add_pollsLeft_le (h : flight.Coherent) (polls : flight.PollsAwake ids) :
    ids.length + (flight.after (ids.map .poll)).pollsLeft ≤ flight.pollsLeft := by
  induction ids generalizing flight with
  | nil => simp
  | cons id ids ih =>
    obtain ⟨awake, rest⟩ := polls
    have first := h.pollsLeft_poll_lt awake
    have behind := ih h.poll rest
    rw [List.length_cons]
    show ids.length + 1 + ((flight.poll id).flight.after (ids.map .poll)).pollsLeft ≤ _
    omega

/-- What a poll of an awake task keeps is kept by any number of them. -/
theorem PollsAwake.keeps {P : Flight ν ε → Prop} (polls : flight.PollsAwake ids)
    (h : flight.Coherent)
    (step : ∀ flight id, flight.Coherent → flight.isAwake id → P flight → P (flight.poll id).flight)
    (start : P flight) : P (flight.after (ids.map .poll)) := by
  induction ids generalizing flight with
  | nil => exact start
  | cons id ids ih =>
    obtain ⟨awake, rest⟩ := polls
    exact ih rest h.poll (step flight id h awake start)

/-- Who is live after polls of awake tasks was so before. -/
theorem PollsAwake.isLive (polls : flight.PollsAwake ids) (h : flight.Coherent)
    (live : (flight.after (ids.map .poll)).isLive id) : flight.isLive id :=
  polls.keeps (P := fun later => later.isLive id → flight.isLive id) h
    (fun _ _ coherent _ before live => before (coherent.isLive_of_poll live))
    (fun live => live) live

/-- Whichever way a computation goes on, no outcome is written to a task. -/
theorem Driven.outcome? {answer : Poll ν ε} (driven : Driven flight id task flight' answer) :
    flight'.outcome? other = flight.outcome? other := by
  cases driven with
  | computing => rfl
  | publishes => exact outcome?_conclude
  | raises => exact outcome?_conclude
  | refused => exact outcome?_conclude
  | failsToCopy => exact outcome?_conclude

/-- A turn writes to no outcome, neither to that of the task nor to another's. -/
theorem Turn.outcome? {polled : Polled ν ε} (turn : Turn flight id task polled) :
    polled.flight.outcome? other = flight.outcome? other := by
  cases turn with
  | waits => rfl
  | receives => exact outcome?_setPhase
  | refused => exact outcome?_setPhase
  | joins => exact outcome?_join
  | failsToStart => exact outcome?_conclude.trans outcome?_register
  | leads _ _ _ _ driven => exact driven.outcome?.trans outcome?_register
  | drives _ driven => exact driven.outcome?

/-- A poll fixes no outcome and changes none. -/
theorem Coherent.outcome?_poll (h : flight.Coherent) :
    (flight.poll id).flight.outcome? other = flight.outcome? other := by
  obtain ⟨task, found, live⟩ | finished := live_or_gone flight id
  · exact (poll_turn h found live).outcome?.trans outcome?_attend
  · rw [poll_gone finished]

/-- Polls leave every outcome as it is, so a flight that is settled stays so while it is polled. -/
theorem PollsAwake.outcome? (polls : flight.PollsAwake ids) (h : flight.Coherent) :
    (flight.after (ids.map .poll)).outcome? id = flight.outcome? id :=
  polls.keeps (P := fun later => later.outcome? id = flight.outcome? id) h
    (fun _ _ coherent _ before => coherent.outcome?_poll.trans before) rfl

/-- There is a task of this id, and it has not been dropped. -/
def IsKept (flight : Flight ν ε) (id : TaskId) : Prop :=
  ∃ key phase, flight.standing? id = some (key, phase) ∧ phase ≠ .dropped

/-- Who is live has not been dropped. -/
theorem isKept_of_isLive (live : flight.isLive id) : flight.IsKept id := by
  obtain ⟨key, phase, standing, live⟩ := isLive_iff_standing?.mp live
  refine ⟨key, phase, standing, ?_⟩
  rintro rfl
  cases live

/-- Polls drop nobody: a task that is over after them has come to its end. -/
theorem PollsAwake.isKept (polls : flight.PollsAwake ids) (h : flight.Coherent)
    (kept : flight.IsKept id) : (flight.after (ids.map .poll)).IsKept id := by
  refine polls.keeps (P := fun later => later.IsKept id) h ?_ kept
  intro flight polled coherent awake kept
  by_cases apart : polled = id
  · subst apart
    rcases coherent.poll_ends_or_rests awake with ⟨key, ended⟩ | ⟨stays, -⟩
    · exact ⟨key, .ended, ended, nofun⟩
    · exact isKept_of_isLive stays
  · unfold IsKept
    rwa [(coherent.poll_taskStep polled).2 id apart]

/-! ## The polls of a run -/

/-- A visit is a poll of a task that is awake, and nothing at all to another one. -/
theorem visit_flight (ran : Ran ν ε) (id : TaskId) :
    (ran.visit id).flight =
      if ran.flight.isAwake id then (ran.flight.poll id).flight else ran.flight := by
  unfold Ran.visit
  split <;> rfl

/-- Visits either end a task or wake nobody, and then those that are visited are asleep. -/
theorem Coherent.visits {ran : Ran ν ε} (h : ran.flight.Coherent) (ids : List TaskId) :
    (ids.foldl Ran.visit ran).flight.Coherent ∧
      (ids.foldl Ran.visit ran).flight.liveIds ⊆ ran.flight.liveIds ∧
      ((ids.foldl Ran.visit ran).flight.liveIds.card < ran.flight.liveIds.card ∨
        ∀ id, (ids.foldl Ran.visit ran).flight.isAwake id → id ∉ ids ∧ ran.flight.isAwake id) := by
  induction ids generalizing ran with
  | nil => exact ⟨h, subset_rfl, .inr fun id awake => ⟨List.not_mem_nil, awake⟩⟩
  | cons head rest ih =>
    rw [List.foldl_cons]
    by_cases awake : ran.flight.isAwake head
    · have same : (ran.visit head).flight = (ran.flight.poll head).flight := by
        rw [visit_flight, if_pos awake]
      have ⟨coherent, fewer, ends⟩ := ih (same ▸ h.poll)
      rw [same] at fewer ends
      refine ⟨coherent, fewer.trans (h.liveIds_poll_subset head), ?_⟩
      rcases h.poll_ends_or_rests awake with ⟨key, ended⟩ | ⟨-, rests⟩
      · have oneLess := h.card_liveIds_poll_lt (isLive_of_isAwake awake) ended
        exact .inl ((Finset.card_le_card fewer).trans_lt oneLess)
      · refine ends.imp (fun less => ?_) fun restsLater id awake' => ?_
        · exact less.trans_le (Finset.card_le_card (h.liveIds_poll_subset head))
        · obtain ⟨unvisited, between⟩ := restsLater id awake'
          obtain ⟨apart, before⟩ := rests id between
          refine ⟨?_, before⟩
          rw [List.mem_cons, not_or]
          exact ⟨apart.symm, unvisited⟩
    · have same : (ran.visit head).flight = ran.flight := by
        rw [visit_flight, if_neg awake]
      have ⟨coherent, fewer, ends⟩ := ih (same ▸ h)
      rw [same] at fewer ends
      refine ⟨coherent, fewer, ends.imp_right fun rests id awake' => ?_⟩
      obtain ⟨unvisited, before⟩ := rests id awake'
      refine ⟨?_, before⟩
      rw [List.mem_cons, not_or]
      exact ⟨fun eq => awake (eq ▸ before), unvisited⟩

/-- A pass ends a task, or nobody is awake after it. -/
theorem Coherent.pass {ran : Ran ν ε} (h : ran.flight.Coherent) :
    ran.pass.flight.Coherent ∧
      (ran.pass.flight.liveIds.card < ran.flight.liveIds.card ∨ ran.pass.flight.awake = []) := by
  obtain ⟨coherent, -, ends⟩ := h.visits ran.flight.tasks.keys
  refine ⟨coherent, ends.imp_right fun rests => ?_⟩
  rw [List.eq_nil_iff_forall_not_mem]
  intro id awake
  obtain ⟨unvisited, before⟩ := rests id (mem_awake.mp awake)
  exact unvisited (mem_keys_of_isLive (isLive_of_isAwake before))

/-- With more passes than live tasks nobody is awake in the end. A pass that ends no task leaves
nobody awake, so each of the others is paid for by a live task. -/
theorem Coherent.passes_awake {bound : Nat} {ran : Ran ν ε} (h : ran.flight.Coherent)
    (enough : ran.flight.liveIds.card < bound) : (Ran.passes bound ran).flight.awake = [] := by
  induction bound generalizing ran with
  | zero => exact absurd enough (Nat.not_lt_zero _)
  | succ bound ih =>
    rw [Ran.passes]
    split
    · next drained => exact List.isEmpty_iff.mp drained
    · obtain ⟨coherent, less | drained⟩ := h.pass
      · exact ih coherent (by omega)
      · -- the next pass finds nobody awake, if there is one
        cases bound with
        | zero => exact drained
        | succ bound => rwa [Ran.passes, if_pos (List.isEmpty_iff.mpr drained)]

/-- **A run leaves nobody awake**: the passes it is granted are enough. -/
theorem Coherent.awake_run (h : flight.Coherent) : flight.run.flight.awake = [] := by
  have live : flight.liveIds.card ≤ flight.tasks.size := by
    calc flight.liveIds.card ≤ flight.tasks.keys.toFinset.card := Finset.card_filter_le _ _
      _ ≤ flight.tasks.keys.length := List.toFinset_card_le _
      _ = flight.tasks.size := Std.ExtTreeMap.length_keys
  have start : ({ flight } : Ran ν ε).flight.Coherent := h
  exact start.passes_awake (Nat.lt_succ_of_le live)

/-! ## When nobody is awake -/

/-- The task leads and has no outcome, or follows such a leader of its own key. -/
def WaitsForOutcome (flight : Flight ν ε) (task : Task ν ε) : Prop :=
  (task.phase = .leading ∧ task.outcome = none) ∨
    ∃ leader head, task.phase = .following leader ∧ flight.task? leader = some head ∧
      head.key = task.key ∧ head.phase = .leading ∧ head.outcome = none

/-- Where nobody is awake, the leader of an open call is not either. -/
theorem Attended.waitsForOutcome (attended : flight.Attended) (h : flight.Coherent)
    (drained : flight.awake = []) (found : flight.task? id = some task)
    (live : task.phase.isLive) : flight.WaitsForOutcome task := by
  have asleep : ∀ {id : TaskId} {task : Task ν ε}, flight.task? id = some task →
      task.phase.isLive → task.woken = false := by
    intro id task found live
    by_contra woken
    have awake := isAwake_iff.mpr ⟨task, found, Bool.not_eq_false _ ▸ woken, live⟩
    rw [← mem_awake, drained] at awake
    cases awake
  rcases attended found live (asleep found live) with leads | ⟨leader, follows, pending⟩
  · exact .inl leads
  · have standing := standing?_of_task? found
    rw [follows] at standing
    obtain ⟨call, there, same, -⟩ := h.following standing
    rw [signal?_of_call? there, Option.some.injEq] at pending
    obtain ⟨head, headFound, key, phase⟩ := task?_of_standing? (h.openCall there pending)
    have headLive : head.phase.isLive := by rw [phase]; rfl
    refine .inr ⟨leader, head, follows, headFound, key.trans same, phase, ?_⟩
    rcases attended headFound headLive (asleep headFound headLive) with ⟨-, none_⟩ | ⟨_, other, -⟩
    · exact none_
    · cases phase.symm.trans other

/-- There is no live task whose outcome is still to come. -/
def Settled (flight : Flight ν ε) : Prop :=
  ∀ id, flight.isLive id → flight.outcome? id ≠ none

/-- Where nobody is awake and all outcomes are known, nobody is live. Who waits for an outcome waits
for one that has come. -/
theorem Attended.not_isLive (attended : flight.Attended) (h : flight.Coherent)
    (drained : flight.awake = []) (settled : flight.Settled) (id : TaskId) :
    flight.isLive id = false := by
  by_contra live
  rw [Bool.not_eq_false] at live
  obtain ⟨task, found, is⟩ := Option.any_eq_true _ _ |>.mp live
  rcases attended.waitsForOutcome h drained found is with
    ⟨-, none_⟩ | ⟨leader, head, -, there, -, phase, none_⟩
  · exact settled id live ((outcome?_of_task? found).trans none_)
  · have headLive : flight.isLive leader := by rw [isLive_of_task? there, phase]; rfl
    exact settled leader headLive ((outcome?_of_task? there).trans none_)

/-- With nobody at work, no call is in flight. -/
theorem Coherent.inFlight_eq_zero (h : flight.Coherent) (good : flight.poisoned = false)
    (idle : ∀ id, flight.isLive id = false) : flight.inFlight = .ok 0 := by
  have empty : flight.registry = ∅ := by
    refine Std.ExtTreeMap.ext_getElem? fun key => ?_
    rw [Std.ExtTreeMap.getElem?_empty]
    show flight.leader? key = none
    by_contra held
    obtain ⟨leader, held⟩ := Option.ne_none_iff_exists'.mp held
    have live := isLive_of_standing? (h.registered good held)
    rw [idle] at live
    cases live
  rw [inFlight_of_good good, Flight.registered, empty]
  rfl

/-- **Polling drains.** After every history, whether or not it has poisoned the lock:

* polls of awake tasks, in any order, are at most as many as there are pairs of live tasks and tasks
  that are awake, so they cannot go on for ever;
* if nobody is awake, each live task leads and has no outcome, or follows such a leader of its own
  key;
* if every live task has an outcome, then polls of awake tasks that leave nobody awake have ended
  all of them and dropped none, and no call is in flight unless the lock is poisoned. -/
theorem polling_drains (ops : List (FlightOp ν ε)) :
    let start := ({} : Flight ν ε).after ops
    (∀ ids, start.PollsAwake ids →
      ids.length ≤ start.liveIds.card.choose 2 + start.awake.toFinset.card) ∧
    (∀ polled : Nat → TaskId, ∃ n, ¬ start.PollsAwake ((List.range n).map polled)) ∧
    (start.awake = [] → ∀ id task, start.task? id = some task → task.phase.isLive = true →
      start.WaitsForOutcome task) ∧
    (start.Settled → ∀ ids, start.PollsAwake ids → (start.after (ids.map .poll)).awake = [] →
      (∀ id, start.isLive id = true →
        ∃ key, (start.after (ids.map .poll)).standing? id = some (key, .ended)) ∧
      (∀ id, (start.after (ids.map .poll)).isLive id = false) ∧
      ((start.after (ids.map .poll)).poisoned = false →
        (start.after (ids.map .poll)).inFlight = .ok 0)) := by
  intro start
  have coherent : start.Coherent := coherent_after ops
  have bounded : ∀ ids, start.PollsAwake ids → ids.length ≤ start.pollsLeft := by
    intro ids polls
    have paid := coherent.length_add_pollsLeft_le polls
    omega
  refine ⟨bounded, fun polled => ?_, fun drained id task found live => ?_,
    fun settled ids polls drained => ?_⟩
  · refine ⟨start.pollsLeft + 1, fun polls => ?_⟩
    have most := bounded _ polls
    rw [List.length_map, List.length_range] at most
    omega
  · exact Attended.waitsForOutcome (attended_after ops) coherent drained found live
  · have reached : ({} : Flight ν ε).after (ops ++ ids.map .poll) = start.after (ids.map .poll) :=
      after_append _ _ _
    have coherent' : (start.after (ids.map .poll)).Coherent := reached ▸ coherent_after _
    have attended' : (start.after (ids.map .poll)).Attended := reached ▸ attended_after _
    have settled' : (start.after (ids.map .poll)).Settled := fun id live => by
      rw [polls.outcome? coherent]
      exact settled id (polls.isLive coherent live)
    have idle := Attended.not_isLive attended' coherent' drained settled'
    refine ⟨fun id live => ?_, idle, fun good => coherent'.inFlight_eq_zero good idle⟩
    obtain ⟨key, phase, standing, kept⟩ := polls.isKept coherent (isKept_of_isLive live)
    have gone : phase.isLive = false := (isLive_of_standing? standing).symm.trans (idle id)
    cases phase with
    | ended => exact ⟨key, standing⟩
    | dropped => exact absurd rfl kept
    | fresh => cases gone
    | following => cases gone
    | leading => cases gone

/-- Task 0 leads and fails in the end, and so does task 1, which comes to lead in its place. Three
polls of awake tasks end all tasks there are, and leave nothing in flight. -/
theorem polling_drains_chain :
    let ops : List (FlightOp Nat Nat) :=
      [.spawn 0 "a" none none, .poll 0, .spawn 1 "a" (some (.raises "one")) none, .poll 1,
        .spawn 2 "a" (some (.ok 7)) none, .poll 2, .resolve 0 (.raises "zero")]
    let start := ({} : Flight Nat Nat).after ops
    start.PollsAwake [0, 1, 2] ∧ start.liveIds.card.choose 2 + start.awake.toFinset.card = 4 ∧
      start.Settled ∧ (start.after ([0, 1, 2].map .poll)).awake = [] ∧
      (start.after ([0, 1, 2].map .poll)).inFlight = .ok 0 := by
  intro ops start
  have polls : start.PollsAwake [0, 1, 2] := ⟨rfl, rfl, rfl, trivial⟩
  have settled : start.Settled := by
    intro id live
    have mem : id ∈ [0, 1, 2] := mem_keys_of_isLive live
    simp only [List.mem_cons, List.not_mem_nil, or_false] at mem
    rcases mem with rfl | rfl | rfl <;> exact nofun
  have drained : (start.after ([0, 1, 2].map .poll)).awake = [] := rfl
  obtain ⟨-, -, -, ends⟩ := polling_drains ops
  exact ⟨polls, rfl, settled, drained, (ends settled _ polls drained).2.2 rfl⟩

end PeerCache.Flight
