import Mathlib.Data.Finset.Card
import PeerCache.Proofs.Flight.Clean

/-!
# Single flight

In a history whose results can all be copied, the registry is a table of the leaders at work:
`leader?_eq_some_iff` reads it off the agreement of the maps. What `single_flight` says follows from
there, since no step changes how anybody but its subject stands.
-/

namespace PeerCache.Flight

variable {ν ε : Type} {ops : List (FlightOp ν ε)} {id leader : TaskId} {key : String} {n : Nat}

/-- On a good lock the registry lists exactly the leaders of live calls. -/
theorem leader?_iff_of_good (good : (({} : Flight ν ε).after ops).poisoned = false) :
    (({} : Flight ν ε).after ops).leader? key = some id ↔ LiveLeader ops id key := by
  have coherent := coherent_after ops
  rw [liveLeader_iff]
  constructor
  · exact coherent.registered good
  · exact fun leads => (coherent.leading leads).1

/-- The registry lists exactly the leaders of live calls. -/
theorem leader?_eq_some_iff (copyable : ∀ op ∈ ops, op.isCopyable = true) :
    (({} : Flight ν ε).after ops).leader? key = some id ↔ LiveLeader ops id key :=
  leader?_iff_of_good (clean_after copyable).good

/-- A task leads under one key only. -/
theorem LiveLeader.key_unique {other : String} (one : LiveLeader ops id key)
    (two : LiveLeader ops id other) : key = other := by
  rw [liveLeader_iff] at one two
  rw [one, Option.some.injEq, Prod.mk.injEq] at two
  exact two.1

/-- The registry has one entry for every leader of a live call. -/
theorem registered_eq_card (copyable : ∀ op ∈ ops, op.isCopyable = true) :
    ∃ leaders : Finset TaskId, (∀ id, id ∈ leaders ↔ ∃ key, LiveLeader ops id key) ∧
      (({} : Flight ν ε).after ops).registered = leaders.card := by
  have entries : ∀ key id, (key, id) ∈ (({} : Flight ν ε).after ops).registry.toList ↔
      LiveLeader ops id key := by
    intro key id
    rw [Std.ExtTreeMap.mem_toList_iff_getElem?_eq_some, ← leader?_eq_some_iff copyable]
    rfl
  -- nobody leads twice, so the leaders in the entries are all different
  have distinct : ((({} : Flight ν ε).after ops).registry.toList.map Prod.snd).Nodup := by
    refine List.Nodup.map_on ?_ ?_
    · rintro ⟨key, id⟩ one ⟨other, same⟩ two (rfl : id = same)
      rw [((entries key id).mp one).key_unique ((entries other id).mp two)]
    · refine List.Pairwise.imp ?_ Std.ExtTreeMap.distinct_keys_toList
      rintro one _ apart rfl
      exact apart Std.ReflCmp.compare_self
  refine ⟨((({} : Flight ν ε).after ops).registry.toList.map Prod.snd).toFinset, fun id => ?_, ?_⟩
  · rw [List.mem_toFinset, List.mem_map]
    constructor
    · rintro ⟨⟨key, _⟩, mem, rfl⟩
      exact ⟨key, (entries key _).mp mem⟩
    · rintro ⟨key, leads⟩
      exact ⟨(key, id), (entries key id).mpr leads, rfl⟩
  · rw [List.toFinset_card_of_nodup distinct, List.length_map, Std.ExtTreeMap.length_toList]
    rfl

/-- Only a poll of the task starts its computation, and it finds the key of the task free. -/
theorem Turn.free_of_started {flight : Flight ν ε} {task : Task ν ε} {polled : Polled ν ε}
    (turn : Turn flight id task polled) (started : polled.started = true) :
    flight.leader? task.key = none := by
  cases turn with
  | waits => cases started
  | receives => cases started
  | refused => cases started
  | joins => cases started
  | failsToStart _ _ free => exact free
  | leads _ _ free => exact free
  | drives => cases started

theorem StartsAt.free (starts : StartsAt ops n id) :
    ∃ task, (before ops n).task? id = some task ∧ (before ops n).leader? task.key = none := by
  obtain ⟨op, found⟩ := starts.exists_op
  have mem := (startsAt_iff found).mp starts
  cases op with
  | spawn => cases mem
  | resolve => cases mem
  | abandon => cases mem
  | poll polled =>
    obtain ⟨rfl, started⟩ := mem_started_poll.mp mem
    obtain ⟨task, there, live⟩ | finished := live_or_gone (before ops n) polled
    · exact ⟨task, there, (poll_turn (coherent_before ops n) there live).free_of_started started⟩
    · rw [poll_gone finished] at started
      cases started

/-- A computation is started only while nobody leads under the key of its task. -/
theorem StartsAt.unled (starts : StartsAt ops n id) (good : (before ops n).poisoned = false) :
    ∃ task, (before ops n).task? id = some task ∧
      ∀ other, ¬ LiveLeader (ops.take n) other task.key := by
  -- its key was free, and the registry lists all who lead
  obtain ⟨task, found, free⟩ := starts.free
  refine ⟨task, found, fun other leads => ?_⟩
  rw [← leader?_iff_of_good good] at leads
  cases free.symm.trans leads

/-- **Single flight.** After every history of tasks, in any order, in which results can be copied:

* a key is registered iff one task leads a live call under it, and no other does;
* what is registered for a key is that leader's own call, unpublished and open;
* the lock is not poisoned, and as many calls are in flight as there are leaders;
* no computation was started twice, and none while its key had a leader;
* a leader that ended left every other task's registration in place. -/
theorem single_flight (ops : List (FlightOp ν ε))
    (copyable : ∀ op ∈ ops, op.isCopyable = true) :
    (∀ key, ((({} : Flight ν ε).after ops).leader? key).isSome ↔
      ∃! id, LiveLeader ops id key) ∧
    (∀ key id, (({} : Flight ν ε).after ops).leader? key = some id →
      LiveLeader ops id key ∧ ∃ call, (({} : Flight ν ε).after ops).call? id = some call ∧
        call.key = key ∧ call.signal = .pending) ∧
    (({} : Flight ν ε).after ops).poisoned = false ∧
    (∃ leaders : Finset TaskId, (∀ id, id ∈ leaders ↔ ∃ key, LiveLeader ops id key) ∧
      (({} : Flight ν ε).after ops).inFlight = .ok leaders.card) ∧
    (startedIn ops).Nodup ∧
    (∀ n id, StartsAt ops n id → ∃ task, (before ops n).task? id = some task ∧
      ∀ other, ¬ LiveLeader (ops.take n) other task.key) ∧
    (∀ n leader held, LiveLeader (ops.take n) leader held →
      ¬ LiveLeader (ops.take (n + 1)) leader held →
      ∀ key id, id ≠ leader → (before ops n).leader? key = some id →
        (before ops (n + 1)).leader? key = some id) := by
  have coherent := coherent_after ops
  have clean := clean_after copyable
  have copyableTake : ∀ n, ∀ op ∈ ops.take n, op.isCopyable = true :=
    fun n op mem => copyable op (List.mem_of_mem_take mem)
  refine ⟨fun key => ?_, fun key id registered => ?_, clean.good, ?_, (startedIn_pastStart ops).1,
    fun n id starts => ?_, fun n leader held leads ended key id apart registered => ?_⟩
  · rw [Option.isSome_iff_exists]
    constructor
    · rintro ⟨id, registered⟩
      refine ⟨id, (leader?_eq_some_iff copyable).mp registered, fun other leads => ?_⟩
      have again := (leader?_eq_some_iff copyable).mpr leads
      exact Option.some.inj (again.symm.trans registered)
    · rintro ⟨id, leads, -⟩
      exact ⟨id, (leader?_eq_some_iff copyable).mpr leads⟩
  · have leads := coherent.registered clean.good registered
    obtain ⟨followers, found⟩ := (coherent.leading leads).2
    exact ⟨liveLeader_iff.mpr leads, _, found, rfl, rfl⟩
  · obtain ⟨leaders, mem, card⟩ := registered_eq_card copyable
    refine ⟨leaders, mem, ?_⟩
    rw [inFlight, clean.good, card]
    rfl
  · exact starts.unled (clean_after (copyableTake n)).good
  · -- the step that ends `leader` is a step of `leader`, so `id` leads on
    rw [liveLeader_iff] at leads ended
    cases found : ops[n]? with
    | none =>
      rw [List.take_add_one, found, Option.toList_none, List.append_nil] at ended
      exact absurd leads ended
    | some op =>
      have untouched := fun id => ((coherent_before ops n).apply_taskStep op id).2
      rw [← before_succ found] at untouched
      have mine : op.subject = leader := by
        by_contra other
        exact ended ((untouched leader other).trans leads)
      have stays : (before ops (n + 1)).standing? id = some (key, .leading) := by
        rw [untouched id (mine ▸ apart.symm)]
        exact (coherent_before ops n).registered (clean_after (copyableTake n)).good registered
      exact ((coherent_before ops (n + 1)).leading stays).1

/-- A follower that was released by its leader leads in turn, and nobody else does. -/
theorem single_flight_handover :
    let ops : List (FlightOp Nat Nat) :=
      [.spawn 0 "a" none none, .poll 0, .spawn 1 "a" none none, .poll 1, .abandon 0, .poll 1]
    (∀ op ∈ ops, op.isCopyable = true) ∧ (({} : Flight Nat Nat).after ops).leader? "a" = some 1 ∧
      ∃! id, LiveLeader ops id "a" :=
  ⟨by decide, rfl, ((single_flight _ (by decide)).1 "a").mp rfl⟩

end PeerCache.Flight
