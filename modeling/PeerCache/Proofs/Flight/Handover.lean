import PeerCache.Proofs.Flight.Poisoned
import PeerCache.Proofs.Flight.SingleFlight

/-!
# Handover

A leader that fails or is dropped abandons its call: its key is free again and its followers are
released. From there on the key stays free until somebody contends for it, for nobody else registers
anything (`free_until`), and the first one polled that does leads (`Turn.started_of_seeks`). While
that one is at work the others join it.

All of it is about histories in which no copy fails, those in particular in which every result can
be copied. `PeerCache.Proofs.Flight.Poisoned` has what becomes of the others.
-/

namespace PeerCache.Flight

variable {ν ε : Type} {flight flight' : Flight ν ε} {id other leader : TaskId} {key : String}
  {task : Task ν ε} {answer : Poll ν ε} {polled : Polled ν ε} {fault : Fault}
  {ops : List (FlightOp ν ε)} {n m : Nat}

/-! ## Looking for a call on a good lock -/

section Seeking

variable {news : List Log.Event}

/-- Whoever looks for a call starts its own computation iff its key is free. -/
theorem Turn.started_of_seeks (turn : Turn flight id task polled)
    (seeks : Seeks flight task news) (good : flight.poisoned = false) :
    polled.started = (flight.leader? task.key).isNone := by
  cases turn with
  | waits phase pending =>
    have closed := seeks.closed phase
    cases pending.symm.trans closed
  | receives phase published =>
    have closed := seeks.closed phase
    cases published.symm.trans closed
  | refused _ bad => simp [good] at bad
  | joins _ _ taken => simp [taken]
  | failsToStart _ _ free => simp [free]
  | leads _ _ free => simp [free]
  | drives phase => exact absurd phase seeks.live.2

/-- Whoever looks for a call and finds its key taken joins the leader. -/
theorem Turn.joins_of_seeks (turn : Turn flight id task polled) (seeks : Seeks flight task news)
    (good : flight.poisoned = false) (taken : flight.leader? task.key = some leader)
    (standing : flight.standing? id = some (task.key, task.phase)) :
    polled.answer = .pending ∧ polled.started = false ∧
      polled.flight.standing? id = some (task.key, .following leader) := by
  have idle := turn.started_of_seeks seeks good
  cases turn with
  | joins _ _ found =>
    obtain rfl := Option.some.inj (taken.symm.trans found)
    exact ⟨rfl, rfl, standing?_join_self standing⟩
  | waits phase pending => cases pending.symm.trans (seeks.closed phase)
  | receives phase published => cases published.symm.trans (seeks.closed phase)
  | refused _ bad => simp [good] at bad
  | failsToStart => simp [taken] at idle
  | leads => simp [taken] at idle
  | drives phase => exact absurd phase seeks.live.2

/-- A follower whose call is open goes on waiting. -/
theorem Turn.eq_of_pending (turn : Turn flight id task polled)
    (follows : task.phase = .following leader) (pending : flight.signal? leader = some .pending) :
    polled = { flight, answer := .pending } := by
  have open_ : ∀ {news : List Log.Event}, ¬ Seeks flight task news := by
    intro news seeks
    cases pending.symm.trans (seeks.closed follows)
  cases turn with
  | waits => rfl
  | receives phase published =>
    obtain rfl := Phase.following.inj (follows.symm.trans phase)
    cases pending.symm.trans published
  | refused seeks => exact absurd seeks open_
  | joins seeks => exact absurd seeks open_
  | failsToStart seeks => exact absurd seeks open_
  | leads seeks => exact absurd seeks open_
  | drives phase => cases follows.symm.trans phase

/-- Only a task that looks for a call is started: a leader was started before, and one that waits or
receives never is. -/
theorem Turn.seeks_of_started (turn : Turn flight id task polled) (started : polled.started) :
    ∃ news, Seeks flight task news := by
  cases turn with
  | failsToStart seeks => exact ⟨_, seeks⟩
  | leads seeks => exact ⟨_, seeks⟩
  | waits => cases started
  | receives => cases started
  | refused => cases started
  | joins => cases started
  | drives => cases started

/-- What can become of a task in the poll that starts its computation. -/
theorem Turn.fate_of_started (turn : Turn flight id task polled) (started : polled.started)
    (standing : flight.standing? id = some (task.key, task.phase)) :
    polled.flight.standing? id = some (task.key, .leading) ∨
      (∃ result, polled.answer = .returned result ∧ task.CameTo result) ∨
      ∃ fault, polled.answer = .failed fault := by
  cases turn with
  | failsToStart => exact .inr (.inr ⟨_, rfl⟩)
  | leads _ _ _ _ driven =>
    cases driven with
    | computing => exact .inl (standing?_register_self standing)
    | publishes came is => exact .inr (.inl ⟨_, rfl, _, came, is⟩)
    | raises => exact .inr (.inr ⟨_, rfl⟩)
    | refused => exact .inr (.inr ⟨_, rfl⟩)
    | failsToCopy => exact .inr (.inr ⟨_, rfl⟩)
  | waits => cases started
  | receives => cases started
  | refused => cases started
  | joins => cases started
  | drives => cases started

theorem Seeks.attend (seeks : Seeks flight task news) : Seeks (flight.attend id) task news := by
  cases seeks with
  | fresh phase => exact .fresh phase
  | released phase closed => exact .released phase closed

/-- On a good lock the task that looks for a call is started if, and only if, its key is free when
it is polled. -/
theorem Coherent.poll_of_seeks (h : flight.Coherent) (good : flight.poisoned = false)
    (found : flight.task? id = some task) (seeks : Seeks flight task news) :
    (flight.poll id).started = (flight.leader? task.key).isNone :=
  (poll_turn h found seeks.live.1).started_of_seeks seeks.attend good

end Seeking

/-! ## Failing on a good lock -/

/-- A leader that goes leaves its key free and its last signal on show. -/
theorem Coherent.conclude_leading {signal : Signal ν ε} {phase : Phase} (h : flight.Coherent)
    (leads : flight.standing? id = some (key, .leading)) (good : flight.poisoned = false) :
    (flight.conclude id key signal phase).leader? key = none ∧
      (flight.conclude id key signal phase).signal? id = some signal := by
  obtain ⟨-, followers, found⟩ := h.leading leads
  constructor
  · rw [leader?_conclude, if_pos ⟨good, rfl⟩]
  · rw [signal?_conclude, if_pos rfl, signal?_of_call? found, Option.map_some]

/-- On a good lock a leader that fails, for another reason than its copy, does so with the text of
its own computation; it frees its key and closes its call by that. -/
theorem Driven.failed (driven : Driven flight id task flight' answer) (h : flight.Coherent)
    (leads : flight.standing? id = some (task.key, .leading)) (good : flight.poisoned = false)
    (fails : answer = .failed fault) (own : fault ≠ .copyFailed) :
    (∃ text, fault = .raised text ∧ task.outcome = some (.raises text)) ∧
      flight'.leader? task.key = none ∧ flight'.signal? id = some .closed := by
  cases driven with
  | raises came =>
    obtain rfl := Poll.failed.inj fails
    exact ⟨⟨_, rfl, came⟩, h.conclude_leading leads good⟩
  | computing => cases fails
  | publishes => cases fails
  | refused _ _ bad => simp [good] at bad
  | failsToCopy => exact absurd (Poll.failed.inj fails).symm own

/-- On a good lock a task whose result is not the matter fails by its own doing only, and its call
is gone with it. -/
theorem Turn.failed (turn : Turn flight id task polled) (h : flight.Coherent)
    (standing : flight.standing? id = some (task.key, task.phase))
    (good : flight.poisoned = false) (fails : polled.answer = .failed fault)
    (own : fault ≠ .copyFailed) :
    (∃ text, fault = .raised text ∧
      (task.startFault = some text ∧ polled.started = true ∨
        task.outcome = some (.raises text) ∧ (polled.started = true ∨ task.phase = .leading))) ∧
      polled.flight.leader? task.key = none ∧ polled.flight.signal? id = some .closed := by
  cases turn with
  | waits => cases fails
  | receives => cases fails
  | joins => cases fails
  | refused _ bad => simp [good] at bad
  | failsToStart seeks _ free startFault =>
    obtain rfl := Poll.failed.inj fails
    have coherent := h.register standing seeks.live.1 seeks.live.2 free
    exact ⟨⟨_, rfl, .inl ⟨startFault, rfl⟩⟩,
      coherent.conclude_leading (standing?_register_self standing) good⟩
  | leads seeks _ free _ driven =>
    have coherent := h.register standing seeks.live.1 seeks.live.2 free
    obtain ⟨⟨text, is, came⟩, gone⟩ :=
      driven.failed coherent (standing?_register_self standing) good fails own
    exact ⟨⟨text, is, .inr ⟨came, .inl rfl⟩⟩, gone⟩
  | drives phase driven =>
    obtain ⟨⟨text, is, came⟩, gone⟩ := driven.failed h (phase ▸ standing) good fails own
    exact ⟨⟨text, is, .inr ⟨came, .inr phase⟩⟩, gone⟩

/-! ## What happens at a step -/

/-- At step `n` the call that `leader` leads under `key` is abandoned: the leader fails in its poll,
or it is dropped. -/
inductive AbandonsAt (ops : List (FlightOp ν ε)) (n : Nat) (leader : TaskId) (key : String) :
    Prop where
  | fails {fault : Fault} {task : Task ν ε} (failed : FailsAt ops n leader fault)
      (found : (before ops n).task? leader = some task) (is : task.key = key)
  | drops (dropped : ops[n]? = some (.abandon leader)) (leads : LiveLeader (ops.take n) leader key)

/-- At step `n` an unfinished task of `key` is polled that does not follow a published call. -/
def ContendsAt (ops : List (FlightOp ν ε)) (n : Nat) (id : TaskId) (key : String) : Prop :=
  ops[n]? = some (.poll id) ∧ ∃ task, (before ops n).task? id = some task ∧ task.key = key ∧
    task.phase.isLive = true ∧ ∀ leader, task.phase = .following leader →
      ∀ p < n, ∀ result, ¬ PublishesAt ops p leader result

/-- The task that contends has no call yet, unless somebody leads under its key. -/
theorem ContendsAt.exists_task (contends : ContendsAt ops n id key) :
    ∃ task, (before ops n).task? id = some task ∧ task.key = key ∧ task.phase.isLive ∧
      ((∃ news, Seeks (before ops n) task news) ∨
        ∃ leader, LiveLeader (ops.take n) leader key ∧
          (task.phase = .leading ∧ id = leader ∨ task.phase = .following leader)) := by
  obtain ⟨-, task, found, rfl, live, unpublished⟩ := contends
  have standing := standing?_of_task? found
  refine ⟨task, found, rfl, live, ?_⟩
  cases phase : task.phase with
  | fresh => exact .inl ⟨_, .fresh phase⟩
  | leading =>
    have leads : LiveLeader (ops.take n) id task.key :=
      liveLeader_take_iff.mpr (phase ▸ standing)
    exact .inr ⟨id, leads, .inl ⟨rfl, rfl⟩⟩
  | following leader =>
    rw [phase] at standing
    rcases call_followed standing with ⟨-, leads⟩ | ⟨result, shown⟩ | ⟨closed, -⟩
    · exact .inr ⟨leader, leads, .inr rfl⟩
    · obtain ⟨p, lt, publishes⟩ := exists_publishesAt shown
      exact absurd publishes (unpublished leader phase p lt result)
    · exact .inl ⟨_, .released phase closed⟩
  | ended => simp [phase, Phase.isLive] at live
  | dropped => simp [phase, Phase.isLive] at live

/-- A computation is started by a poll of its own task, which is live at that moment. -/
theorem StartsAt.polls (starts : StartsAt ops n id) :
    ∃ task, (before ops n).task? id = some task ∧ task.phase.isLive ∧
      ((before ops n).poll id).started = true := by
  have polled : ops[n]? = some (.poll id) := TakesUpAt.polled (.inl ⟨rfl, starts⟩)
  obtain ⟨-, started⟩ := mem_started_poll.mp ((startsAt_iff polled).mp starts)
  obtain ⟨task, found, live⟩ | finished := live_or_gone (before ops n) id
  · exact ⟨task, found, live, started⟩
  · rw [poll_gone finished] at started
    cases started

/-- Whose computation is started has contended. -/
theorem StartsAt.contends (starts : StartsAt ops n id) :
    ∃ task, (before ops n).task? id = some task ∧ ContendsAt ops n id task.key := by
  obtain ⟨task, found, live, started⟩ := starts.polls
  obtain ⟨news, seeks⟩ := (poll_turn (coherent_before ops n) found live).seeks_of_started started
  refine ⟨task, found, TakesUpAt.polled (.inl ⟨rfl, starts⟩), task, found, rfl, live,
    fun leader follows p _ result publishes => publishes.not_closed (seeks.closed follows)⟩

/-- The poll that starts a computation makes its task the leader; it leads on, has published, or has
abandoned its call already. -/
theorem StartsAt.leads (starts : StartsAt ops n id) :
    ∃ task, (before ops n).task? id = some task ∧
      (LiveLeader (ops.take (n + 1)) id task.key ∨ (∃ result, PublishesAt ops n id result) ∨
        AbandonsAt ops n id task.key) := by
  obtain ⟨task, found, live, started⟩ := starts.polls
  have polled : ops[n]? = some (.poll id) := TakesUpAt.polled (.inl ⟨rfl, starts⟩)
  have turn := poll_turn (coherent_before ops n) found live
  refine ⟨task, found, ?_⟩
  rcases turn.fate_of_started started (standing?_attend_of_task? found) with
    leads | ⟨result, returned, came⟩ | ⟨fault, failed⟩
  · left
    rw [liveLeader_take_iff, before_succ polled]
    exact leads
  · have returns : ReturnsAt ops n id result :=
      ⟨polled, _, stepAt_eq polled, congrArg FlightAnswer.polled returned⟩
    exact .inr (.inl ⟨result, returns, ⟨n, Nat.le_refl n, starts⟩, task, found, came⟩)
  · have fails : FailsAt ops n id fault :=
      ⟨polled, _, stepAt_eq polled, congrArg FlightAnswer.polled failed⟩
    exact .inr (.inr (.fails fails found rfl))

/-- Where every result can be copied no copy fails. -/
theorem not_copyFailsAt (copyable : ∀ op ∈ ops, op.isCopyable = true) (n : Nat) (id : TaskId) :
    ¬ CopyFailsAt ops n id := by
  intro fails
  have clean : (before ops (n + 1)).Clean :=
    clean_after fun op mem => copyable op (List.mem_of_mem_take mem)
  cases clean.good.symm.trans fails.poisons.2.1

section Copied

variable (copied : ∀ n id, ¬ CopyFailsAt ops n id)

include copied

/-- Where no copy fails, the registry tells at every moment who is at the head of a live call. -/
theorem leader?_before_iff :
    (before ops n).leader? key = some id ↔ LiveLeader (ops.take n) id key :=
  leader?_iff_of_good (good_before copied n)

/-- A poll fails with the text of the task's own computation or of its own start. -/
theorem FailsAt.own (fails : FailsAt ops n id fault) :
    ∃ task text, (before ops n).task? id = some task ∧ fault = .raised text ∧
      (task.startFault = some text ∧ StartsAt ops n id ∨
        task.outcome = some (.raises text) ∧
          (StartsAt ops n id ∨ LiveLeader (ops.take n) id task.key)) ∧
      (before ops (n + 1)).leader? task.key = none ∧
      (before ops (n + 1)).signal? id = some .closed := by
  have failed := fails.poll
  have coherent := coherent_before ops n
  obtain ⟨task, found, live⟩ | finished := live_or_gone (before ops n) id
  · have standing := standing?_attend_of_task? found
    have own : fault ≠ .copyFailed := by
      rintro rfl
      exact copied n id fails
    have starts : ((before ops n).poll id).started = true → StartsAt ops n id := fun started =>
      (startsAt_iff fails.1).mpr (mem_started_poll.mpr ⟨rfl, started⟩)
    have leads : task.phase = .leading → LiveLeader (ops.take n) id task.key := fun phase =>
      liveLeader_take_iff.mpr (phase ▸ standing?_of_task? found)
    obtain ⟨⟨text, is, own⟩, gone⟩ :=
      (poll_turn coherent found live).failed coherent.attend standing (good_before copied n)
        failed own
    rw [before_succ fails.1]
    refine ⟨task, text, found, is, ?_, gone⟩
    rcases own with ⟨startFault, started⟩ | ⟨came, started | phase⟩
    · exact .inl ⟨startFault, starts started⟩
    · exact .inr ⟨came, .inl (starts started)⟩
    · exact .inr ⟨came, .inr (leads phase)⟩
  · rw [poll_gone finished] at failed
    cases failed

/-- Whoever abandons its call leaves its key free, and its followers are released. -/
theorem AbandonsAt.releases (abandons : AbandonsAt ops n leader key) :
    (before ops (n + 1)).leader? key = none ∧
      (before ops (n + 1)).signal? leader = some .closed := by
  cases abandons with
  | fails failed found is =>
    obtain ⟨task, _, found', -, -, gone⟩ := failed.own copied
    obtain rfl := Option.some.inj (found.symm.trans found')
    exact is ▸ gone
  | drops dropped leads =>
    have standing := liveLeader_take_iff.mp leads
    obtain ⟨task, found, rfl, phase⟩ := task?_of_standing? standing
    rw [before_succ dropped]
    show ((before ops n).abandon leader).1.leader? task.key = none ∧
      ((before ops n).abandon leader).1.signal? leader = some .closed
    rw [abandon_leading found phase]
    exact (coherent_before ops n).conclude_leading standing (good_before copied n)

/-- A call that was abandoned is never published. -/
theorem AbandonsAt.not_publishesAt {result : Except ε ν} {p : Nat}
    (abandons : AbandonsAt ops n leader key) : ¬ PublishesAt ops p leader result :=
  fun publishes => publishes.not_closed (abandons.releases copied).2

/-- Whoever contends for a free key starts its computation. -/
theorem ContendsAt.starts (contends : ContendsAt ops n id key)
    (free : (before ops n).leader? key = none) : StartsAt ops n id := by
  obtain ⟨task, found, rfl, live, ⟨news, seeks⟩ | ⟨leader, leads, -⟩⟩ := contends.exists_task
  · have started :=
      (coherent_before ops n).poll_of_seeks (good_before copied n) found seeks
    rw [free] at started
    exact (startsAt_iff contends.1).mpr (mem_started_poll.mpr ⟨rfl, started⟩)
  · rw [← leader?_before_iff copied, free] at leads
    cases leads

/-- Whoever is polled while another task leads under its key follows that one. -/
theorem ContendsAt.follows (contends : ContendsAt ops n id key)
    (leads : LiveLeader (ops.take n) leader key) (apart : id ≠ leader) :
    ((before ops n).poll id).answer = .pending ∧ ¬ StartsAt ops n id ∧
      (before ops (n + 1)).standing? id = some (key, .following leader) := by
  have taken := (leader?_before_iff copied).mpr leads
  have coherent := coherent_before ops n
  rw [before_succ contends.1]
  have idle : ¬ StartsAt ops n id := by
    intro starts
    obtain ⟨task, found, unled⟩ := starts.unled (good_before copied n)
    obtain ⟨task', found', rfl, -⟩ := contends.exists_task
    obtain rfl := Option.some.inj (found.symm.trans found')
    exact unled leader leads
  obtain ⟨task, found, rfl, live, ⟨news, seeks⟩ | ⟨head, leads', is⟩⟩ := contends.exists_task
  · have turn := poll_turn coherent found live
    have joined := turn.joins_of_seeks seeks.attend (good_before copied n) taken
      (standing?_attend_of_task? found)
    exact ⟨joined.1, idle, joined.2.2⟩
  · -- it leads itself or follows already, and there is one leader only
    obtain rfl : leader = head :=
      Option.some.inj (taken.symm.trans ((leader?_before_iff copied).mpr leads'))
    rcases is with ⟨-, same⟩ | follows
    · exact absurd same apart
    · have waits := (poll_turn coherent found live).eq_of_pending follows leads.signal?
      show ((before ops n).poll id).answer = .pending ∧ _ ∧
        ((before ops n).poll id).flight.standing? id = _
      rw [waits]
      exact ⟨rfl, idle, follows ▸ standing?_attend_of_task? found⟩

/-- A free key stays free until somebody contends for it. -/
theorem free_until (free : (before ops n).leader? key = none) (le : n ≤ m)
    (quiet : ∀ q, n ≤ q → q < m → ∀ id, ¬ ContendsAt ops q id key) :
    (before ops m).leader? key = none := by
  induction m, le using Nat.le_induction with
  | base => exact free
  | succ m le ih =>
    have still := ih fun q first last => quiet q first (by omega)
    by_contra taken
    obtain ⟨id, registered⟩ := Option.ne_none_iff_exists'.mp taken
    have leads := (leader?_before_iff copied).mp registered
    cases found : ops[m]? with
    | none =>
      rw [before_succ_of_none found] at registered
      cases still.symm.trans registered
    | some op =>
      -- nobody led before, so the one that leads now was started by this step
      have taskStep := taskStep_at found id
      rcases taskStep.leading (liveLeader_take_iff.mp leads) with before_ | started
      · rw [← liveLeader_take_iff, ← leader?_before_iff copied, still] at before_
        cases before_
      · have starts : StartsAt ops m id := (startsAt_iff found).mpr (of_decide_eq_true started)
        obtain ⟨task, held, contends⟩ := starts.contends
        rw [standing?_of_task? held, liveLeader_take_iff.mp leads] at taskStep
        exact quiet m le (by omega) id (taskStep.key_eq ▸ contends)

end Copied

/-- **Handover.** In every history in which no copy of a result fails:

* a poll fails only with the text of the task's own computation, or of the start of it, and only as
  the leader of a call;
* the lock is never poisoned;
* when a call is abandoned, by a failure or by dropping its leader, its key is free after that very
  step, and it is never published; the first task polled from then on that contends for the key,
  released or new, leads and has its computation started;
* any other one that is polled while that call is live follows it;
* there is one leader under a key at most, and no computation is started while there is one;
* a result comes from a call that published, and that nobody ever abandoned. -/
theorem handover (ops : List (FlightOp ν ε)) (copied : ∀ n id, ¬ CopyFailsAt ops n id) :
    (∀ n id fault, FailsAt ops n id fault →
      ∃ task text, (before ops n).task? id = some task ∧ fault = .raised text ∧
        (task.startFault = some text ∧ StartsAt ops n id ∨
          task.outcome = some (.raises text) ∧
            (StartsAt ops n id ∨ LiveLeader (ops.take n) id task.key))) ∧
    (∀ n, (before ops n).poisoned = false) ∧
    (∀ n leader key, AbandonsAt ops n leader key →
      (before ops (n + 1)).leader? key = none ∧ (∀ p result, ¬ PublishesAt ops p leader result) ∧
      ∀ m > n, ∀ id, ContendsAt ops m id key →
        (∀ q, n < q → q < m → ∀ other, ¬ ContendsAt ops q other key) →
          StartsAt ops m id ∧
            (LiveLeader (ops.take (m + 1)) id key ∨ (∃ result, PublishesAt ops m id result) ∨
              AbandonsAt ops m id key)) ∧
    (∀ n leader key id, LiveLeader (ops.take n) leader key → ContendsAt ops n id key →
      id ≠ leader →
        ((before ops n).poll id).answer = .pending ∧ ¬ StartsAt ops n id ∧
          (before ops (n + 1)).standing? id = some (key, .following leader)) ∧
    (∀ n key one two, LiveLeader (ops.take n) one key → LiveLeader (ops.take n) two key →
      one = two) ∧
    (∀ n id, StartsAt ops n id → ∃ task, (before ops n).task? id = some task ∧
      ∀ other, ¬ LiveLeader (ops.take n) other task.key) ∧
    (∀ n id result, ReturnsAt ops n id result →
      ∃ leader, (∃ m ≤ n, TakesUpAt ops m id leader) ∧
        (∃ p ≤ n, PublishesAt ops p leader result) ∧
        ∀ q key, ¬ AbandonsAt ops q leader key) := by
  refine ⟨fun n id fault fails => ?_, good_before copied,
    fun n leader key abandons => ?_, fun n leader key id leads contends apart =>
      contends.follows copied leads apart, fun n key one two leads leads' => ?_,
    fun n id starts => starts.unled (good_before copied n), fun n id result returns => ?_⟩
  · obtain ⟨task, text, found, is, own, -⟩ := fails.own copied
    exact ⟨task, text, found, is, own⟩
  · have free := (abandons.releases copied).1
    refine ⟨free, fun p result => abandons.not_publishesAt copied, ?_⟩
    intro m lt id contends first
    have starts := contends.starts copied (free_until copied free lt first)
    refine ⟨starts, ?_⟩
    obtain ⟨task, found, leads⟩ := starts.leads
    obtain ⟨task', found', rfl, -⟩ := contends.exists_task
    obtain rfl := Option.some.inj (found.symm.trans found')
    exact leads
  · rw [← leader?_before_iff copied] at leads leads'
    exact Option.some.inj (leads.symm.trans leads')
  · obtain ⟨leader, takesUp, ⟨p, le, publishes⟩, -⟩ := returns.through
    exact ⟨leader, takesUp, ⟨p, le, publishes⟩, fun q key abandons =>
      abandons.not_publishesAt copied publishes⟩

/-- Released twice, once by a leader that failed and once by a newcomer that was dropped, task 1
leads in the end. -/
theorem handover_twice :
    let ops : List (FlightOp Nat Nat) :=
      [.spawn 0 "a" none none, .spawn 1 "a" none none, .poll 0, .poll 1,
        .resolve 0 (.raises "boom"), .poll 0, .spawn 2 "a" none none, .poll 2, .poll 1, .abandon 2,
        .poll 1]
    (∀ n id, ¬ CopyFailsAt ops n id) ∧ AbandonsAt ops 5 0 "a" ∧ AbandonsAt ops 9 2 "a" ∧
      StartsAt ops 7 2 ∧ ¬ StartsAt ops 8 1 ∧ StartsAt ops 10 1 := by
  intro ops
  have copied : ∀ n id, ¬ CopyFailsAt ops n id := not_copyFailsAt (by decide)
  have fails : AbandonsAt ops 5 0 "a" := .fails ⟨rfl, _, rfl, rfl⟩ rfl rfl
  have drops : AbandonsAt ops 9 2 "a" := .drops rfl (liveLeader_iff.mpr rfl)
  have newcomer : ContendsAt ops 7 2 "a" := ⟨rfl, _, rfl, rfl, rfl, nofun⟩
  have leads : LiveLeader (ops.take 8) 2 "a" := liveLeader_iff.mpr rfl
  obtain ⟨-, -, handsOver, joins, -⟩ := handover ops copied
  have released : ContendsAt ops 8 1 "a" := by
    refine ⟨rfl, _, rfl, rfl, rfl, fun leader follows p _ result publishes => ?_⟩
    obtain rfl : 0 = leader := Phase.following.inj follows
    exact publishes.not_closed (show (before ops 8).signal? 0 = some .closed from rfl)
  have again : ContendsAt ops 10 1 "a" := by
    refine ⟨rfl, _, rfl, rfl, rfl, fun leader follows p _ result publishes => ?_⟩
    obtain rfl : 2 = leader := Phase.following.inj follows
    exact publishes.not_closed (show (before ops 10).signal? 2 = some .closed from rfl)
  refine ⟨copied, fails, drops, ?_, ?_, ?_⟩
  · refine ((handsOver 5 0 "a" fails).2.2 7 (by decide) 2 newcomer ?_).1
    intro q first last other contends
    obtain rfl : q = 6 := by omega
    cases contends.1
  · exact (joins 8 2 "a" 1 leads released (by decide)).2.1
  · refine ((handsOver 9 2 "a" drops).2.2 10 (by decide) 1 again ?_).1
    intro q first last
    omega

end PeerCache.Flight
