import PeerCache.Ring.History

/-!
# A shared ring after an update that failed

When the ids that are to be added fail on the way, the copy they were recorded in is given up and
the writers' lock stays poisoned (`SharedRing.write_of_failure`). From then on every write ends in
the fault that says so and leaves everything as it is (`SharedRing.write_of_poisoned`), while
readers go on with the ring that was published before (`RingSession.after_of_poisoned`,
`RingSession.failed_update`).
-/

namespace PeerCache

namespace SharedRing

/-- Nobody writes while the writers' lock is poisoned. -/
theorem write_of_poisoned {shared : SharedRing} (poisoned : shared.writerPoisoned = true)
    (change : RingWrite) : shared.write change = .stop shared (.poisoned .ringWriter) := by
  cases change with
  | add source => exact if_pos poisoned
  | replace other => exact if_pos poisoned

/-- An update whose ids fail on the way changes nothing but the writers' lock. -/
theorem write_of_failure (shared : SharedRing) (ids : List String) (text : String) :
    (shared.write (.add ⟨ids, some text⟩)).state = ⟨shared.current, true⟩ ∧
      (shared.write (.add ⟨ids, some text⟩)).answer =
        .error (if shared.writerPoisoned then .poisoned .ringWriter else .raised text) := by
  obtain ⟨current, _ | _⟩ := shared
  · exact ⟨rfl, rfl⟩
  · exact ⟨rfl, rfl⟩

end SharedRing

namespace RingSession

variable {session : RingSession}

theorem apply_write_of_poisoned (poisoned : session.shared.writerPoisoned = true)
    (change : RingWrite) :
    session.apply (.write change) = .stop session (.poisoned .ringWriter) := by
  rw [apply, SharedRing.write_of_poisoned poisoned]
  rfl

/-- Whatever is done while the writers' lock is poisoned, the ring stays the one that is published,
and snapshots that are taken show it. -/
theorem after_of_poisoned (poisoned : session.shared.writerPoisoned = true) (ops : List RingOp) :
    session.after ops = ⟨session.shared,
      session.kept ++ List.replicate (ops.countP RingOp.isSnapshot) session.shared.snapshot⟩ := by
  induction ops generalizing session with
  | nil => exact congrArg (RingSession.mk session.shared) (List.append_nil _).symm
  | cons op ops ih =>
    cases op with
    | write change =>
      rw [after_cons, apply_write_of_poisoned poisoned]
      exact ih poisoned
    | lookup key => exact ih poisoned
    | snapshot =>
      -- the snapshot taken first is one more of the same
      have rest := @ih (session.apply .snapshot).state poisoned
      rw [after_cons, rest, List.countP_cons_of_pos rfl, List.replicate_succ,
        ← List.singleton_append, ← List.append_assoc]
      rfl

/-- **An update that fails leaves the published ring as it is, for good.** A ring of any kind is
shared and used in any way, and then nodes are added from a source of ids that fails after any
number of them.

* The addition ends in the failure of the source, or, if an earlier one had failed already, in the
  fault that says so; the publication, its version included, and all snapshots stay as they were.
* Whatever is done afterwards, that publication remains the current one: every write ends in the
  fault of the poisoned lock and changes nothing, every look-up is answered from it, and every
  snapshot taken is that publication, while the older ones stay. -/
theorem failed_update (ring : Ring) (before : List RingOp) (ids : List String) (text : String)
    (later : List RingOp) :
    let session := (ofRing ring).after before
    let failed := session.apply (.write (.add ⟨ids, some text⟩))
    let frozen := failed.state.after later
    failed.answer =
        .error (if session.shared.writerPoisoned then .poisoned .ringWriter else .raised text) ∧
    failed.state.shared.snapshot = session.shared.snapshot ∧
    failed.state.kept = session.kept ∧
    frozen.shared.snapshot = session.shared.snapshot ∧
    frozen.kept = session.kept ++
        List.replicate (later.countP RingOp.isSnapshot) session.shared.snapshot ∧
    (∀ change, frozen.apply (.write change) = .stop frozen (.poisoned .ringWriter)) ∧
    (Fault.poisoned .ringWriter).message = "ring writer lock poisoned: PoisonError \x7b .. \x7d" ∧
    (∀ key, frozen.apply (.lookup key) = .done frozen (.owner (session.shared.lookup key))) ∧
    (frozen.apply .snapshot).answer = .ok (.taken session.shared.snapshot) := by
  intro session failed frozen
  obtain ⟨state, answer⟩ := session.shared.write_of_failure ids text
  have left : failed.state = ⟨⟨session.shared.current, true⟩, session.kept⟩ :=
    congrArg (RingSession.mk · session.kept) state
  have poisoned : failed.state.shared.writerPoisoned = true := by rw [left]
  have stays : frozen = ⟨⟨session.shared.current, true⟩, session.kept ++
      List.replicate (later.countP RingOp.isSnapshot) session.shared.snapshot⟩ := by
    rw [show frozen = _ from after_of_poisoned poisoned later, left]
    rfl
  have poisoned' : frozen.shared.writerPoisoned = true := by rw [stays]
  refine ⟨congrArg (Except.map _) answer, by rw [left]; rfl, by rw [left], by rw [stays]; rfl,
    by rw [stays], fun change => apply_write_of_poisoned poisoned' change, by decide,
    fun key => ?_, ?_⟩
  · rw [stays]
    rfl
  · rw [stays]
    rfl

end RingSession

end PeerCache
