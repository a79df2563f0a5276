import PeerCache.Proofs.Cluster.Loading

/-!
# Loads that are due

A task is due if its next poll returns, and it is `Behind` a leader if it follows one that is due.
When time passes, every task under way comes to be due or behind a leader (`Loads.due_of_elapse`),
and polling the leader makes it due (`Loads.due_of_poll_leader`). Polls of other tasks do not change
that.
-/

namespace PeerCache.Flight

variable {flight : Flight String LoadError} {id other leader : TaskId} {key : String}

/-- The next poll of the task returns: it leads and its computation is done, or it follows a call
that is published. -/
def Due (flight : Flight String LoadError) (id : TaskId) : Prop :=
  (∃ key, flight.standing? id = some (key, .leading) ∧ flight.outcome? id ≠ none) ∨
    ∃ key leader, flight.standing? id = some (key, .following leader) ∧
      flight.signal? leader = some (.published (Store.load key))

/-- A leader that has its outcome is due. -/
theorem due_of_leading (leads : flight.standing? id = some (key, .leading))
    (came : flight.outcome? id ≠ none) : flight.Due id :=
  .inl ⟨key, leads, came⟩

/-- So is a follower whose call has published. -/
theorem due_of_following (follows : flight.standing? id = some (key, .following leader))
    (published : flight.signal? leader = some (.published (Store.load key))) : flight.Due id :=
  .inr ⟨key, leader, follows, published⟩

/-- How a poll of a load under way goes. -/
theorem Loads.turn_of_awaits (loads : flight.Loads) (awaits : flight.Awaits id key) :
    ∃ old new, old ≠ .fresh ∧ flight.standing? id = some (key, old) ∧
      LoadTurn (flight.attend id) id key old new (flight.poll id) := by
  obtain ⟨phase, standing, live, polledBefore⟩ := awaits
  obtain ⟨task, found, rfl, rfl⟩ := task?_of_standing? standing
  obtain ⟨new, turn⟩ := loads.turn found live fun fresh => absurd fresh polledBefore
  exact ⟨_, new, polledBefore, standing, turn⟩

/-- A task that is due returns. -/
theorem Loads.returned_of_due (loads : flight.Loads) (awaits : flight.Awaits id key)
    (due : flight.Due id) : (flight.poll id).answer = .returned (Store.load key) := by
  obtain ⟨old, new, polledBefore, standing, turn⟩ := loads.turn_of_awaits awaits
  rcases due with ⟨_, leads, came⟩ | ⟨_, leader, follows, published⟩
  · obtain ⟨rfl, rfl⟩ := Prod.mk.inj (Option.some.inj (standing.symm.trans leads))
    generalize flight.poll id = polled at turn ⊢
    cases turn with
    | publishes => rfl
    | computes open_ =>
      rw [outcome?_attend] at open_
      exact absurd open_ came
  · obtain ⟨rfl, rfl⟩ := Prod.mk.inj (Option.some.inj (standing.symm.trans follows))
    generalize flight.poll id = polled at turn ⊢
    cases turn with
    | receives => rfl
    | waits pending =>
      rw [signal?_attend, published] at pending
      cases pending

/-- A task that is due stays so while others are polled. -/
theorem Loads.due_of_poll (loads : flight.Loads) (awaits : flight.Awaits id key)
    (apart : id ≠ other) (due : flight.Due other) : (flight.poll id).flight.Due other := by
  obtain ⟨old, new, -, standing, turn⟩ := loads.turn_of_awaits awaits
  rw [← standing?_attend] at standing
  have kept : (flight.poll id).flight.standing? other = flight.standing? other := by
    rw [turn.standing? standing, if_neg apart, standing?_attend]
  rcases due with ⟨_, leads, came⟩ | ⟨_, leader, follows, published⟩
  · refine due_of_leading (kept.trans leads) ?_
    rwa [turn.outcome?, outcome?_attend]
  · refine due_of_following (kept.trans follows) ?_
    exact turn.published loads.attend standing (signal?_attend.trans published)

/-! ## Waiting for one that is due -/

/-- The task follows a leader that is due. -/
structure Behind (flight : Flight String LoadError) (id leader : TaskId) (key : String) : Prop where
  follows : flight.standing? id = some (key, .following leader)
  leads : flight.standing? leader = some (key, .leading)
  due : flight.Due leader

/-- Nobody is behind itself: who follows does not lead. -/
theorem Behind.ne (behind : flight.Behind id leader key) : id ≠ leader := by
  rintro rfl
  cases behind.follows.symm.trans behind.leads

/-- Such a task waits on when it is polled itself. -/
theorem Loads.pending_of_behind (loads : flight.Loads) (behind : flight.Behind id leader key) :
    (flight.poll id).answer = .pending := by
  have awaits : flight.Awaits id key := ⟨_, behind.follows, rfl, nofun⟩
  obtain ⟨-, followers, found⟩ := loads.coherent.leading behind.leads
  obtain ⟨old, new, -, standing, turn⟩ := loads.turn_of_awaits awaits
  obtain ⟨-, rfl⟩ := Prod.mk.inj (Option.some.inj (standing.symm.trans behind.follows))
  generalize flight.poll id = polled at turn ⊢
  cases turn with
  | waits => rfl
  | receives published =>
    rw [signal?_attend, signal?_of_call? found] at published
    cases published

/-- It stays behind its leader while others are polled, or it itself. -/
theorem Loads.behind_of_poll {wanted : String} (loads : flight.Loads)
    (awaits : flight.Awaits other wanted) (apart : other ≠ leader)
    (behind : flight.Behind id leader key) :
    (flight.poll other).flight.Behind id leader key := by
  have mine : other = id → (flight.poll other).answer = .pending := by
    rintro rfl
    exact loads.pending_of_behind behind
  refine ⟨?_, ?_, loads.due_of_poll awaits apart behind.due⟩
  · obtain ⟨-, ⟨-, same⟩ | ⟨returned, ended⟩⟩ := loads.continue awaits
    · exact (same id).trans behind.follows
    · have here : other ≠ id := fun eq => nomatch returned.symm.trans (mine eq)
      rw [ended, if_neg here, behind.follows]
  · obtain ⟨-, ⟨-, same⟩ | ⟨-, ended⟩⟩ := loads.continue awaits
    · exact (same leader).trans behind.leads
    · rw [ended, if_neg apart, behind.leads]

/-- **When the leader is polled, the task becomes due.** -/
theorem Loads.due_of_poll_leader (loads : flight.Loads) (behind : flight.Behind id leader key) :
    (flight.poll leader).flight.Due id := by
  have awaits : flight.Awaits leader key := ⟨_, behind.leads, rfl, nofun⟩
  have returned := loads.returned_of_due awaits behind.due
  obtain ⟨-, followers, found⟩ := loads.coherent.leading behind.leads
  obtain ⟨old, new, -, standing, turn⟩ := loads.turn_of_awaits awaits
  have kept : (flight.poll leader).flight.standing? id = flight.standing? id := by
    rw [turn.standing? (standing?_attend.trans standing), if_neg behind.ne.symm, standing?_attend]
  refine due_of_following (kept.trans behind.follows) ?_
  obtain ⟨-, rfl⟩ := Prod.mk.inj (Option.some.inj (standing.symm.trans behind.leads))
  generalize flight.poll leader = polled at turn returned ⊢
  cases turn with
  | publishes => rw [signal?_conclude, if_pos rfl, signal?_attend, signal?_of_call? found]; rfl
  | computes => cases returned

/-- **When time has passed, a task under way is due**, or it follows a leader that is. -/
theorem Loads.due_of_elapse (loads : flight.Loads) (awaits : flight.Awaits id key) :
    flight.elapse.Due id ∨ ∃ leader, flight.elapse.Behind id leader key := by
  obtain ⟨-, standings, signals, outcomes⟩ := loads.elapse
  obtain ⟨phase, standing, live, polledBefore⟩ := awaits
  cases phase with
  | fresh => exact absurd rfl polledBefore
  | ended => cases live
  | dropped => cases live
  | leading =>
    have leads := (standings id).trans standing
    exact .inl (due_of_leading leads (outcomes standing))
  | following leader =>
    have follows := (standings id).trans standing
    rcases loads.signal?_of_following standing with ⟨-, leads⟩ | published
    · have leads' := (standings leader).trans leads
      exact .inr ⟨leader, follows, leads', due_of_leading leads' (outcomes leads)⟩
    · exact .inl (due_of_following follows ((signals leader).trans published))

end PeerCache.Flight
