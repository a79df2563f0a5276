import PeerCache.Proofs.Flight.Course

/-!
# The followers of a call have its key

A call lists everybody who has ever joined it, also those who have left or are over. All of them are
tasks of the key of the call (`kindred_after`), so that whoever is woken when a call ends has the
key of that call. `Coherent` says less: it looks at a call from those who follow it now.
-/

namespace PeerCache.Flight

variable {ν ε : Type} {flight flight' : Flight ν ε} {id other leader : TaskId} {key : String}
  {task : Task ν ε}

/-- Whoever is listed as a follower of a call is a task of its key. -/
def Kindred (flight : Flight ν ε) : Prop :=
  ∀ leader call, flight.call? leader = some call → ∀ id ∈ call.followers,
    ∃ phase, flight.standing? id = some (call.key, phase)

namespace Kindred

/-- A follower on the list is a task that is there and has the key of the call. -/
theorem task? {call : Call ν ε} (kindred : flight.Kindred) (found : flight.call? leader = some call)
    (joined : id ∈ call.followers) : ∃ task, flight.task? id = some task ∧ task.key = call.key := by
  obtain ⟨phase, standing⟩ := kindred leader call found id joined
  obtain ⟨task, there, same, -⟩ := task?_of_standing? standing
  exact ⟨task, there, same⟩

/-- A change that leaves everybody their key and lists nobody new. -/
theorem congr (kindred : flight.Kindred)
    (tasks : ∀ {id key phase}, flight.standing? id = some (key, phase) →
      ∃ phase', flight'.standing? id = some (key, phase'))
    (calls : ∀ {leader call'}, flight'.call? leader = some call' → ∃ call,
      flight.call? leader = some call ∧ call.key = call'.key ∧ call.followers = call'.followers) :
    flight'.Kindred := by
  intro leader call' found' id joined
  obtain ⟨call, found, key, followers⟩ := calls found'
  obtain ⟨phase, standing⟩ := kindred leader call found id (followers ▸ joined)
  rw [← key]
  exact tasks standing

/-- A change that leaves everybody key and phase lists nobody and renames nobody. -/
theorem update {change : Task ν ε → Task ν ε} (kindred : flight.Kindred)
    (same : ∀ task, (change task).key = task.key ∧ (change task).phase = task.phase) :
    (flight.update id change).Kindred :=
  kindred.congr (fun standing => ⟨_, (standing?_update same).trans standing⟩)
    fun found => ⟨_, found, rfl, rfl⟩

theorem poison (kindred : flight.Kindred) : flight.poison.Kindred := kindred

/-- In any phase a task has the key it had. -/
theorem setPhase {old phase : Phase} (kindred : flight.Kindred)
    (standing : flight.standing? id = some (key, old)) : (flight.setPhase id phase).Kindred := by
  refine kindred.congr (fun {other held now} before => ?_) fun found => ⟨_, found, rfl, rfl⟩
  rw [standing?_setPhase standing]
  grind

/-- A new task is on no list yet, and those that are keep their keys. -/
theorem spawn {outcome : Option (Outcome ν ε)} {startFault : Option String}
    (kindred : flight.Kindred) : (flight.spawn id key outcome startFault).Kindred := by
  refine kindred.congr (fun {other held now} before => ?_) fun found =>
    ⟨_, call?_spawn.symm.trans found, rfl, rfl⟩
  rw [standing?_spawn]
  grind

/-- A leader that goes leaves the list of its call as it is. -/
theorem conclude {old phase : Phase} {signal : Signal ν ε} (kindred : flight.Kindred)
    (standing : flight.standing? id = some (key, old)) :
    (flight.conclude id key signal phase).Kindred := by
  refine kindred.congr (fun {other held now} before => ?_) fun {leader call'} found => ?_
  · rw [standing?_conclude standing]
    grind
  · -- the call of `id` shows another signal, and that is all
    rw [call?_conclude] at found
    split at found
    · next same =>
      obtain ⟨call, there, rfl⟩ := Option.map_eq_some_iff.mp found
      exact ⟨call, same ▸ there, rfl, rfl⟩
    · exact ⟨call', found, rfl, rfl⟩

/-- A new call has no followers yet. -/
theorem register {old : Phase} (kindred : flight.Kindred)
    (standing : flight.standing? id = some (key, old)) : (flight.register id key).Kindred := by
  intro leader call found other joined
  rw [call?_register] at found
  rw [standing?_register standing]
  split at found
  · obtain rfl := Option.some.inj found
    cases joined
  · have before := kindred leader call found other joined
    grind

/-- Whoever joins the call that is registered for their key has the key of that call. -/
theorem join {old : Phase} (kindred : flight.Kindred) (h : flight.Coherent)
    (standing : flight.standing? id = some (key, old)) (good : flight.poisoned = false)
    (taken : flight.leader? key = some leader) : (flight.join id leader).Kindred := by
  obtain ⟨followers, there⟩ := (h.leading (h.registered good taken)).2
  intro head call found other joined
  rw [call?_join] at found
  rw [standing?_join standing]
  by_cases same : leader = head
  · -- those listed before, and now `id`
    rw [if_pos same, there] at found
    obtain rfl := Option.some.inj found
    have before := kindred leader _ there other
    grind
  · rw [if_neg same] at found
    have before := kindred head call found other joined
    grind

end Kindred

/-- However the computation of a leader goes on, no call gets a follower by it. -/
theorem Driven.kindred {answer : Poll ν ε} (driven : Driven flight id task flight' answer)
    (kindred : flight.Kindred) (standing : flight.standing? id = some (task.key, .leading)) :
    flight'.Kindred := by
  cases driven with
  | computing => exact kindred
  | publishes => exact kindred.conclude standing
  | raises => exact kindred.conclude standing
  | refused => exact kindred.conclude standing
  | failsToCopy => exact kindred.poison.conclude standing

/-- A turn keeps the followers kindred. It is only a join that lists somebody, and that is a join of
the call registered for the task's own key. -/
theorem Turn.kindred {polled : Polled ν ε} (turn : Turn flight id task polled)
    (kindred : flight.Kindred) (h : flight.Coherent)
    (standing : flight.standing? id = some (task.key, task.phase)) : polled.flight.Kindred := by
  have registered := standing?_register_self standing
  cases turn with
  | waits => exact kindred
  | receives => exact kindred.setPhase standing
  | refused => exact kindred.setPhase standing
  | joins _ good taken => exact kindred.join h standing good taken
  | failsToStart => exact (kindred.register standing).conclude registered
  | leads _ _ _ _ driven => exact driven.kindred (kindred.register standing) registered
  | drives phase driven => exact driven.kindred kindred (phase ▸ standing)

/-- **Every step keeps the followers of a call under its key.** -/
theorem Kindred.apply (kindred : flight.Kindred) (h : flight.Coherent) (op : FlightOp ν ε) :
    (flight.apply op).flight.Kindred := by
  cases op with
  | spawn => exact kindred.spawn
  | resolve => exact kindred.update fun _ => ⟨rfl, rfl⟩
  | poll id =>
    show (flight.poll id).flight.Kindred
    obtain ⟨task, found, live⟩ | finished := live_or_gone flight id
    · have attended : (flight.attend id).Kindred := kindred.update fun _ => ⟨rfl, rfl⟩
      exact (poll_turn h found live).kindred attended h.attend (standing?_attend_of_task? found)
    · rw [poll_gone finished]
      exact kindred
  | abandon id =>
    show (flight.abandon id).1.Kindred
    obtain ⟨task, found, live⟩ | finished := live_or_gone flight id
    · have standing := standing?_of_task? found
      by_cases leads : task.phase = .leading
      · rw [abandon_leading found leads]
        exact kindred.conclude standing
      · rw [abandon_idle found live leads]
        exact kindred.setPhase standing
    · rw [abandon_gone finished]
      exact kindred

/-- **After every history the followers of a call are tasks of its key.** -/
theorem kindred_after (ops : List (FlightOp ν ε)) : (({} : Flight ν ε).after ops).Kindred := by
  induction ops using List.reverseRecOn with
  | nil =>
    intro leader call found
    simp [call?] at found
  | append_singleton ops op ih =>
    rw [after_append]
    exact Kindred.apply ih (coherent_after ops) op

end PeerCache.Flight
