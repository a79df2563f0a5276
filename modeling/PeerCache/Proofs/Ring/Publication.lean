import PeerCache.Checksum.Elementary
import PeerCache.Proofs.Ring.Records
import PeerCache.Ring.History

/-!
# What readers of a shared ring see

A write that does not fail publishes what a plain ring would be after it, under the next version
(`SharedRing.write_of_calm`); nothing else that is done touches the current publication. So on a
history without failures the current ring is the plain one after the same writes, and its version
counts them (`current_after`). A snapshot that is kept is the publication of the moment at which it
was taken, whatever is done later (`getElem?_kept`). Together: readers cannot tell a shared ring
from a plain one that is copied whenever a snapshot is taken, but for the version, which tells two
snapshots apart just when there is a write between them (`readers_see_plain`).
-/

namespace PeerCache

/-- The ids are all there: their source does not fail. -/
def RingWrite.Calm : RingWrite → Prop
  | .add source => source.failure = none
  | .replace _ => True

/-- No source of ids fails. -/
def RingOp.Calm (op : RingOp) : Prop :=
  ∀ write ∈ op.write?, write.Calm

/-- What a write makes of a plain ring. -/
def Ring.written (ring : Ring) : RingWrite → Ring
  | .add source => ring.addNodes source.ids
  | .replace other => other

/-- What the writes of a history make of a plain ring. -/
def Ring.afterWrites (ring : Ring) (ops : List RingOp) : Ring :=
  (ops.filterMap RingOp.write?).foldl Ring.written ring

/-! ## Writing -/

namespace SharedRing

variable {shared : SharedRing}

/-- A write whose ids are all there publishes what it makes of the ring that is current. -/
theorem write_of_calm (writable : shared.writerPoisoned = false) {write : RingWrite}
    (calm : write.Calm) :
    (shared.write write).answer = .ok () ∧
      (shared.write write).state = shared.publish (shared.snapshot.ring.written write) := by
  cases write with
  | add source =>
    obtain ⟨ids, failure⟩ := source
    obtain rfl : failure = none := calm
    exact addNodes_of_writable writable ids
  | replace other =>
    rw [write, replace, writable]
    exact ⟨rfl, rfl⟩

end SharedRing

/-! ## The current publication -/

namespace RingSession

variable {session : RingSession} {op : RingOp} {ops : List RingOp}

/-- Then no operation ends in a fault: reads never do. -/
theorem exists_answer_of_calm (writable : session.shared.writerPoisoned = false)
    (calm : op.Calm) : ∃ answer, (session.apply op).answer = .ok answer := by
  cases op with
  | write change =>
    obtain ⟨answer, -⟩ := SharedRing.write_of_calm writable (calm change rfl)
    exact ⟨.written, congrArg (Except.map _) answer⟩
  | lookup key => exact ⟨_, rfl⟩
  | snapshot => exact ⟨_, rfl⟩

/-- The current ring is the plain one after the same writes, and the version counts them. -/
theorem current_after (writable : session.shared.writerPoisoned = false)
    (calm : ∀ op ∈ ops, op.Calm) :
    (session.after ops).shared.writerPoisoned = false ∧
      (session.after ops).shared.snapshot.ring = session.shared.snapshot.ring.afterWrites ops ∧
      (session.after ops).shared.snapshot.version =
        session.shared.snapshot.version + (ops.filterMap RingOp.write?).length := by
  induction ops generalizing session with
  | nil => exact ⟨writable, rfl, rfl⟩
  | cons op ops ih =>
    rw [List.forall_mem_cons] at calm
    cases op with
    | write change =>
      obtain ⟨-, state⟩ := SharedRing.write_of_calm writable (calm.1 change rfl)
      have published : (session.apply (.write change)).state.shared =
          session.shared.publish (session.shared.snapshot.ring.written change) := state
      have writable' := (congrArg SharedRing.writerPoisoned published).trans writable
      obtain ⟨writable'', shows, version⟩ := ih writable' calm.2
      rw [published] at shows version
      exact ⟨writable'', shows, version.trans (Nat.add_right_comm _ 1 _)⟩
    | lookup key => exact ih writable calm.2
    | snapshot => exact ih writable calm.2

/-! ## The snapshots kept -/

/-- A snapshot that is taken is kept behind those taken before. -/
theorem kept_apply (session : RingSession) (op : RingOp) :
    (session.apply op).state.kept =
      session.kept ++ if op.isSnapshot then [session.shared.snapshot] else [] := by
  cases op with
  | snapshot => rfl
  | _ => exact (List.append_nil _).symm

/-- No snapshot is given up, and each one taken is kept. -/
theorem exists_kept_after (session : RingSession) (ops : List RingOp) :
    ∃ more, (session.after ops).kept = session.kept ++ more ∧
      more.length = ops.countP RingOp.isSnapshot := by
  induction ops generalizing session with
  | nil => exact ⟨[], (List.append_nil _).symm, rfl⟩
  | cons op ops ih =>
    obtain ⟨more, kept, length⟩ := ih (session.apply op).state
    rw [after_cons, kept, kept_apply, List.append_assoc, List.countP_cons, ← length]
    refine ⟨_, rfl, ?_⟩
    split
    · exact List.length_cons
    · rfl

/-- A snapshot kept is the publication of the moment at which it was taken. -/
theorem getElem?_kept (ring : Ring) (before later : List RingOp) :
    ((ofRing ring).after (before ++ .snapshot :: later)).kept[before.countP RingOp.isSnapshot]? =
      some ((ofRing ring).after before).shared.snapshot := by
  obtain ⟨earlier, kept, length⟩ := exists_kept_after (ofRing ring) before
  obtain ⟨more, kept', -⟩ :=
    exists_kept_after (((ofRing ring).after before).apply .snapshot).state later
  rw [after_append, after_cons, kept', kept_apply, kept, ← length, ofRing, List.nil_append,
    List.append_assoc, List.getElem?_append_right (Nat.le_refl _), Nat.sub_self]
  rfl

/-- It shows the plain ring of that moment, and its version counts the writes until then. -/
theorem exists_kept_of_calm (ring : Ring) {before : List RingOp} (calm : ∀ op ∈ before, op.Calm)
    (later : List RingOp) :
    ∃ kept, ((ofRing ring).after (before ++ .snapshot :: later)).kept[
        before.countP RingOp.isSnapshot]? = some kept ∧
      kept.ring = ring.afterWrites before ∧
      kept.version = (before.filterMap RingOp.write?).length := by
  obtain ⟨-, shows, version⟩ := @current_after (ofRing ring) _ rfl calm
  exact ⟨_, getElem?_kept ring before later, shows, version.trans (Nat.zero_add _)⟩

/-! ## Readers -/

/-- **Readers cannot tell a shared ring from a plain one.** A ring of any kind is shared; nodes are
added, also none, rings of any kind are put in its place, keys are looked up and snapshots are
taken, in any order, and no source of ids fails.

* Nothing that is done next fails, unless a source of ids does.
* The current ring is the plain ring after the same writes, so that every question about it is
  answered alike; and so is a look-up.
* Each snapshot still is the plain ring as it was when the snapshot was taken.
* Two snapshots are one publication iff there is no write between them, not even of no nodes. -/
theorem readers_see_plain (ring : Ring) {ops : List RingOp} (calm : ∀ op ∈ ops, op.Calm) :
    let session := (ofRing ring).after ops
    let plain := ring.afterWrites ops
    (∀ op : RingOp, op.Calm → ∃ answer, (session.apply op).answer = .ok answer) ∧
    session.shared.snapshot.ring = plain ∧
    (∀ key, (session.apply (.lookup key)).answer = .ok (.owner (plain.lookup key))) ∧
    (∀ before later, ops = before ++ .snapshot :: later →
      ∃ kept, session.kept[before.countP RingOp.isSnapshot]? = some kept ∧
        kept.ring = ring.afterWrites before) ∧
    ∀ before between later, ops = before ++ .snapshot :: (between ++ .snapshot :: later) →
      ∃ one two, session.kept[before.countP RingOp.isSnapshot]? = some one ∧
        session.kept[(before ++ .snapshot :: between).countP RingOp.isSnapshot]? = some two ∧
        (one.same two ↔ ∀ op ∈ between, op.write? = none) := by
  intro session plain
  obtain ⟨writable, shows, -⟩ := @current_after (ofRing ring) _ rfl calm
  refine ⟨fun op => exists_answer_of_calm writable, shows,
    fun key => congrArg (Except.ok ∘ RingAnswer.owner) (congrArg (Ring.lookup · key) shows), ?_, ?_⟩
  · rintro before later rfl
    obtain ⟨kept, there, shown, -⟩ :=
      exists_kept_of_calm ring (fun op mem => calm op (List.mem_append_left _ mem)) later
    exact ⟨kept, there, shown⟩
  · rintro before between later rfl
    obtain ⟨one, there, -, version⟩ := exists_kept_of_calm ring
      (fun op mem => calm op (List.mem_append_left _ mem)) (between ++ .snapshot :: later)
    -- the second snapshot has what was done between the two in front of it as well
    have regroup : before ++ .snapshot :: (between ++ .snapshot :: later) =
        (before ++ .snapshot :: between) ++ .snapshot :: later := by
      rw [List.append_assoc, List.cons_append]
    obtain ⟨two, there', -, version'⟩ := exists_kept_of_calm ring
      (fun op mem => calm op (regroup ▸ List.mem_append_left _ mem)) later
    rw [← regroup] at there'
    refine ⟨one, two, there, there', ?_⟩
    rw [List.filterMap_append, List.length_append, List.filterMap_cons_none rfl] at version'
    rw [← List.filterMap_eq_nil_iff, ← List.length_eq_zero_iff, Snapshot.same, beq_iff_eq, version,
      version']
    exact Nat.left_eq_add

/-- An addition of no nodes is a publication of its own, although nothing in it is new. Two
snapshots taken after it are one publication, which is not touched when the ring is replaced. -/
theorem readers_see_plain_no_nodes :
    let empty : Ring := ⟨Checksum.decimalValue, 1, by decide, #[], ∅⟩
    let session := (ofRing empty).after [.snapshot, .write (.add ⟨[], none⟩), .snapshot, .snapshot,
      .write (.replace (empty.addNodes ["7"]))]
    ∃ first second third, session.kept[0]? = some first ∧ session.kept[1]? = some second ∧
      session.kept[2]? = some third ∧ first.same second = false ∧ second.same third = true ∧
      third.ring.lookup "5" = none ∧
      (session.apply (.lookup "5")).answer = .ok (.owner (some "7")) := by
  intro empty session
  have records : empty.Records Checksum.decimalValue 1 [] := Ring.records_empty (by decide)
  let add : RingOp := .write (.add ⟨[], none⟩)
  let replace : RingOp := .write (.replace (empty.addNodes ["7"]))
  obtain ⟨-, -, answers, keeps, same⟩ := @readers_see_plain empty
    [.snapshot, add, .snapshot, .snapshot, replace]
    (by simp [add, replace, RingOp.Calm, RingOp.write?, RingWrite.Calm])
  obtain ⟨first, second, hfirst, hsecond, apart⟩ := same [] [add] [.snapshot, replace] rfl
  obtain ⟨second', third, hsecond', hthird, one⟩ := same [.snapshot, add] [] [replace] rfl
  obtain ⟨third', hthird', shown⟩ := keeps [.snapshot, add, .snapshot] [replace] rfl
  obtain rfl : second' = second := Option.some.inj (hsecond'.symm.trans hsecond)
  obtain rfl : third' = third := Option.some.inj (hthird'.symm.trans hthird)
  refine ⟨first, second', third', hfirst, hsecond, hthird, ?_, one.mpr nofun, ?_, ?_⟩
  · exact Bool.not_eq_true _ ▸ fun equal => nomatch apart.mp equal add List.mem_cons_self
  · rw [shown]
    exact (records.addNodes []).lookup_eq_none_iff.mpr rfl
  · obtain ⟨owner, mem, found⟩ := (records.addNodes ["7"]).exists_lookup (List.cons_ne_nil _ _) "5"
    rw [List.mem_singleton.mp mem] at found
    exact (answers "5").trans (congrArg (Except.ok ∘ RingAnswer.owner) found)

end RingSession

end PeerCache
