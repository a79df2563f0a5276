import PeerCache.Checksum.Elementary
import PeerCache.Proofs.Ring.Records

/-!
# Where keys are placed

Which node a key belongs to can be said without points, owners and searches: of all positions of all
nodes ever added, take the one nearest clockwise to the hash of the key, and of the nodes that sit
there the one added last. `lookup_eq_lastAt_nearest` says that this is what a look-up answers,
however the nodes were added.
-/

namespace PeerCache.Ring

/-- **A key belongs to the node added last at the position nearest to it.** Whatever the hash, and
however the nodes are divided into additions to a new ring:

* a look-up has no answer iff no node was ever added;
* else exactly one position of the nodes is nearest clockwise to the hash of the key; the search
  finds it among the points, it has an owner, and that is the node that sits there and was added
  last, to whom the key belongs;
* adding all nodes at once gives the key the same owner. -/
theorem lookup_eq_lastAt_nearest (hash : HashFn) (replicas : Nat) (positive : 0 < replicas) :
    ∃ new, Ring.empty? replicas hash = .ok new ∧ ∀ (batches : List (List String)) (key : String),
      let ring := batches.foldl addNodes new
      let ids := batches.flatten
      (ring.lookup key = none ↔ ids = []) ∧
      (ids ≠ [] → ∃! p, Nearest (Occupied hash replicas ids) (hash (utf8 key)) p) ∧
      (∀ p, Nearest (Occupied hash replicas ids) (hash (utf8 key)) p →
        ring.successor? (hash (utf8 key)) = some p ∧
        ∃ owner ∈ ids, lastAt hash replicas ids p = some owner ∧ ring.owners[p]? = some owner ∧
          ring.lookup key = some owner) ∧
      ring.lookup key = (new.addNodes ids).lookup key := by
  refine ⟨_, dif_pos positive, ?_⟩
  intro batches key ring ids
  have fresh := @records_empty hash replicas positive
  have records : ring.Records hash replicas ids := fresh.foldl_addNodes batches
  have once : Records _ hash replicas ids := fresh.addNodes ids
  refine ⟨records.lookup_eq_none_iff, fun ne => ?_, fun p nearest => ?_, ?_⟩
  · obtain ⟨p, nearest⟩ := exists_nearest positive ne (hash (utf8 key))
    exact ⟨p, nearest, fun q hq => hq.unique nearest⟩
  · obtain ⟨owner, mem, last⟩ := exists_lastAt nearest.mem
    exact ⟨records.successor?_eq_some_iff.mpr nearest, owner, mem, last,
      (records.owners p).trans last, (records.lookup nearest).trans last⟩
  · by_cases none : ids = []
    · rw [records.lookup_eq_none_iff.mpr none, once.lookup_eq_none_iff.mpr none]
    · obtain ⟨p, nearest⟩ := exists_nearest positive none (hash (utf8 key))
      rw [records.lookup nearest, once.lookup nearest]

/-- Position 12 is the first one of node `12` and the second one of node `2`. The key whose hash it
is belongs to the one that was added last, in an addition of its own. -/
theorem lookup_eq_lastAt_nearest_collision :
    ∃ new, Ring.empty? 2 Checksum.decimalValue = .ok new ∧
      ([["2"], ["12"]].foldl addNodes new).lookup "12" = some "12" := by
  obtain ⟨new, hnew, placed⟩ := lookup_eq_lastAt_nearest Checksum.decimalValue 2 (by decide)
  have nearest : Nearest (Occupied Checksum.decimalValue 2 ["2", "12"])
      (Checksum.decimalValue (utf8 "12")) 12 :=
    ⟨⟨"12", by decide +kernel⟩, fun q _ => Nat.zero_le _⟩
  obtain ⟨-, owner, -, last, -, found⟩ := (placed [["2"], ["12"]] "12").2.2.1 12 nearest
  have same : some owner = some "12" := last.symm.trans (by decide +kernel)
  exact ⟨new, hnew, found.trans same⟩

end PeerCache.Ring
