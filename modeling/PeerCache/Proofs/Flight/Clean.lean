import PeerCache.Proofs.Flight.Course

/-!
# Histories in which every result can be copied

Copying a result is all that can fail while the lock is held. In a history that hands over nothing
but outcomes that can be copied, the lock stays good (`clean_after`).
-/

namespace PeerCache

variable {ν ε : Type}

/-- Whether a result that comes of it can be copied. -/
def FlightOp.isCopyable : FlightOp ν ε → Bool
  | .spawn _ _ outcome _ => outcome.all Outcome.isCopyable
  | .resolve _ outcome => outcome.isCopyable
  | .poll _ | .abandon _ => true

namespace Flight

variable {flight : Flight ν ε} {id other leader : TaskId} {key : String} {task : Task ν ε}

/-! ## Clean flights -/

/-- The lock is good, and no outcome at hand can poison it. -/
structure Clean (flight : Flight ν ε) : Prop where
  good : flight.poisoned = false
  copyable : ∀ {id : TaskId} {outcome : Outcome ν ε}, flight.outcome? id = some outcome →
    outcome.isCopyable = true

/-- Driving a computation keeps a clean flight clean: its lock is refused to nobody, and the outcome
that comes can be copied. -/
theorem Driven.clean {flight' : Flight ν ε} {answer : Poll ν ε}
    (driven : Driven flight id task flight' answer) (found : flight.outcome? id = task.outcome)
    (clean : flight.Clean) : flight'.Clean := by
  cases driven with
  | computing => exact clean
  | publishes =>
    exact ⟨by rw [poisoned_conclude]; exact clean.good, by simpa using @clean.copyable⟩
  | raises =>
    exact ⟨by rw [poisoned_conclude]; exact clean.good, by simpa using @clean.copyable⟩
  | refused came is bad =>
    rw [clean.good] at bad
    cases bad
  | failsToCopy came uncopyable =>
    rw [clean.copyable (found.trans came)] at uncopyable
    cases uncopyable

/-- So does any turn. Only a computation that is driven could poison the lock. -/
theorem Turn.clean {polled : Polled ν ε} (turn : Turn flight id task polled)
    (found : flight.outcome? id = task.outcome) (clean : flight.Clean) : polled.flight.Clean := by
  have registered : (flight.register id task.key).Clean :=
    ⟨clean.good, by simpa using @clean.copyable⟩
  cases turn with
  | waits => exact clean
  | receives => exact ⟨clean.good, by simpa using @clean.copyable⟩
  | refused => exact ⟨clean.good, by simpa using @clean.copyable⟩
  | joins => exact ⟨clean.good, by simpa using @clean.copyable⟩
  | failsToStart =>
    exact ⟨by rw [poisoned_conclude]; exact clean.good, by simpa using @clean.copyable⟩
  | leads _ _ _ _ driven => exact driven.clean (by rw [outcome?_register, found]) registered
  | drives _ driven => exact driven.clean found clean

/-- **Copyable outcomes keep the lock good.** A flight stays clean through any step that brings in
none but such outcomes. -/
theorem Clean.apply {op : FlightOp ν ε} (clean : flight.Clean) (h : flight.Coherent)
    (copyable : op.isCopyable) : (flight.apply op).flight.Clean := by
  cases op with
  | spawn new key outcome startFault =>
    refine ⟨poisoned_spawn.trans clean.good, fun {id} result found => ?_⟩
    rw [Flight.apply, outcome?_spawn] at found
    split at found
    · subst found
      exact copyable
    · exact clean.copyable found
  | poll polled =>
    obtain ⟨task, found, live⟩ | finished := live_or_gone flight polled
    · have attended : (flight.attend polled).Clean :=
        ⟨clean.good, by simpa using @clean.copyable⟩
      have same : (flight.attend polled).outcome? polled = task.outcome := by
        rw [outcome?_attend, outcome?_of_task? found]
      exact (poll_turn h found live).clean same attended
    · show (flight.poll polled).flight.Clean
      rw [poll_gone finished]
      exact clean
  | resolve resolved outcome =>
    refine ⟨clean.good, fun {id} result found => ?_⟩
    rw [Flight.apply, outcome?_resolve] at found
    split at found
    · obtain ⟨_, _, rfl⟩ := Option.map_eq_some_iff.mp found
      exact copyable
    · exact clean.copyable found
  | abandon dropped =>
    show (flight.abandon dropped).1.Clean
    obtain ⟨task, found, live⟩ | finished := live_or_gone flight dropped
    · by_cases leads : task.phase = .leading
      · rw [abandon_leading found leads]
        exact ⟨by rw [poisoned_conclude]; exact clean.good, by simpa using @clean.copyable⟩
      · rw [abandon_idle found live leads]
        exact ⟨clean.good, by simpa using @clean.copyable⟩
    · rw [abandon_gone finished]
      exact clean

/-- **The lock stays good where every result can be copied.** -/
theorem clean_after {ops : List (FlightOp ν ε)} (copyable : ∀ op ∈ ops, op.isCopyable = true) :
    (({} : Flight ν ε).after ops).Clean := by
  induction ops using List.reverseRecOn with
  | nil => exact ⟨rfl, by simp [outcome?, task?]⟩
  | append_singleton ops op ih =>
    rw [List.forall_mem_append] at copyable
    rw [after_append]
    exact (ih copyable.1).apply (coherent_after ops) (copyable.2 op (List.mem_singleton.mpr rfl))

end Flight

end PeerCache
