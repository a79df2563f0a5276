import PeerCache.Checksum.Elementary
import PeerCache.Proofs.Ring.Matching

/-!
# Nodes that are added again

A ring does not notice that a node is there already. Its positions are recorded once more, and as
points they make no difference; but the node now is the last one at each of them, so it takes back
the positions where another node came after it (`Overtaken`). Those are all the changes
(`Records.owner_ne_iff_of_renewed`). Where all nodes are added again in the same order, the last
node at each position is the one it was (`renewal_takes_back`).
-/

namespace PeerCache.Ring

/-- The second node was added after the last addition of the first. -/
def AddedAfter (ids : List String) (id other : String) : Prop :=
  ∃ front back, ids = front ++ id :: back ∧ id ∉ back ∧ other ∈ back

/-- A position of the node, with another node as its owner that was added later. -/
def Overtaken (ring : Ring) (ids : List String) (id : String) (p : UInt32) : Prop :=
  SitsAt ring.hash ring.replicas id p ∧
    ∃ other, other ≠ id ∧ ring.owners[p]? = some other ∧ AddedAfter ids id other

variable {ring : Ring} {hash : HashFn} {replicas : Nat} {ids : List String} {id other key : String}
  {p : UInt32}

/-- A list is cut at the last occurrence of a member. -/
theorem exists_last_addition (mem : id ∈ ids) :
    ∃ front back, ids = front ++ id :: back ∧ id ∉ back := by
  obtain ⟨behind, before, cut, absent⟩ := List.eq_append_cons_of_mem (List.mem_reverse.mpr mem)
  refine ⟨before.reverse, behind.reverse, ?_, fun there => absent (List.mem_reverse.mp there)⟩
  rw [← List.reverse_reverse ids, cut]
  simp

/-- Whoever owns a position of the node in its place came later. -/
theorem addedAfter_of_lastAt (mem : id ∈ ids) (sits : SitsAt hash replicas id p)
    (last : lastAt hash replicas ids p = some other) (ne : other ≠ id) :
    AddedAfter ids id other := by
  obtain ⟨front, back, rfl, absent⟩ := exists_last_addition mem
  refine ⟨front, back, rfl, absent, ?_⟩
  rw [lastAt_append, lastAt_cons, if_pos sits] at last
  cases later : lastAt hash replicas back p with
  | none =>
    -- then the node itself would be the last one there
    rw [later] at last
    exact absurd (Option.some.inj last).symm ne
  | some owner =>
    rw [later] at last
    rw [← Option.some.inj last]
    exact (mem_of_lastAt later).1

/-- Adding a node again brings no new points. -/
theorem Records.points_of_renewed (records : ring.Records hash replicas ids) (mem : id ∈ ids) :
    (ring.addNodes [id]).points = ring.points := by
  refine (records.addNodes [id]).points_eq records fun p => ?_
  rw [occupied_append]
  constructor
  · rintro (there | ⟨_, again, sits⟩)
    · exact there
    · rw [List.mem_singleton.mp again] at sits
      exact ⟨id, mem, sits⟩
  · exact .inl

/-- It gives the node all of its positions, those that others had taken from it too. -/
theorem Records.owner_of_renewed (records : ring.Records hash replicas ids) :
    (ring.addNodes [id]).owners[p]? =
      if SitsAt hash replicas id p then some id else ring.owners[p]? := by
  rw [(records.addNodes [id]).owners, lastAt_append, lastAt_singleton, records.owners]
  by_cases sits : SitsAt hash replicas id p
  · rw [if_pos sits, if_pos sits, Option.some_or]
  · rw [if_neg sits, if_neg sits, Option.none_or]

/-- The positions that change hands are those where the node was overtaken. -/
theorem Records.owner_ne_iff_of_renewed (records : ring.Records hash replicas ids)
    (mem : id ∈ ids) :
    (ring.addNodes [id]).owners[p]? ≠ ring.owners[p]? ↔ ring.Overtaken ids id p := by
  unfold Overtaken
  rw [records.owner_of_renewed, records.hash_eq, records.replicas_eq]
  by_cases sits : SitsAt hash replicas id p
  · obtain ⟨other, -, last⟩ := exists_lastAt ⟨id, mem, sits⟩
    rw [if_pos sits, records.owners, last]
    constructor
    · intro changed
      have ne : other ≠ id := fun same => changed (congrArg some same.symm)
      exact ⟨sits, other, ne, rfl, addedAfter_of_lastAt mem sits last ne⟩
    · rintro ⟨-, owner, ne, owned, -⟩ same
      exact ne (Option.some.inj (owned.symm.trans same.symm))
  · rw [if_neg sits]
    exact ⟨fun changed => absurd rfl changed, fun overtaken => absurd overtaken.1 sits⟩

/-- **A node that is added again takes back what later nodes took from it, and nothing else.**
Whatever the hash and whatever has been added to a new ring, let one of those nodes be added again.

* The points stay as they are.
* The owner changes at just those positions of the node that a different node, added later, owned;
  the node is the owner afterwards.
* A look-up changes just if the key lands on one of these.
* No look-up changes if the node shares no position with a different one.

And if all the nodes are added again in the order in which they were, in whatever batches, the ring
is what it was. -/
theorem renewal_takes_back (hash : HashFn) (replicas : Nat) (positive : 0 < replicas) :
    ∃ new, Ring.empty? replicas hash = .ok new ∧ ∀ batches : List (List String),
      let ids := batches.flatten
      let ring := batches.foldl addNodes new
      (∀ id ∈ ids,
        let again := ring.addNodes [id]
        again.points = ring.points ∧
        (∀ p : UInt32, again.owners[p]? ≠ ring.owners[p]? ↔ ring.Overtaken ids id p) ∧
        (∀ p : UInt32, ring.Overtaken ids id p → again.owners[p]? = some id) ∧
        (∀ key, again.lookup key ≠ ring.lookup key ↔
          ∃ p, ring.successor? (hash (utf8 key)) = some p ∧ ring.Overtaken ids id p) ∧
        ((∀ other ∈ ids, other ≠ id → ∀ p, SitsAt hash replicas id p →
            ¬ SitsAt hash replicas other p) →
          ∀ key, again.lookup key = ring.lookup key)) ∧
      ∀ anew : List (List String), anew.flatten = ids →
        (anew.foldl addNodes ring).Matches ring := by
  refine ⟨_, dif_pos positive, ?_⟩
  intro batches ids ring
  have records : ring.Records hash replicas ids := (records_empty positive).foldl_addNodes batches
  refine ⟨fun id mem => ?_, fun anew same => ?_⟩
  · intro again
    have records' : again.Records hash replicas (ids ++ [id]) := records.addNodes [id]
    have points : again.points = ring.points := records.points_of_renewed mem
    have lookups : ∀ key, again.lookup key ≠ ring.lookup key ↔
        ∃ p, ring.successor? (hash (utf8 key)) = some p ∧ ring.Overtaken ids id p := by
      intro key
      rw [lookup_ne_iff_of_points_eq (records'.hash_eq.trans records.hash_eq.symm) points,
        records'.hash_eq, successor?_congr points]
      simp only [again, records.owner_ne_iff_of_renewed mem]
    refine ⟨points, fun p => records.owner_ne_iff_of_renewed mem, fun p overtaken => ?_, lookups,
      fun alone key => ?_⟩
    · have sits := overtaken.1
      rw [records.hash_eq, records.replicas_eq] at sits
      exact records.owner_of_renewed.trans (if_pos sits)
    · by_contra changed
      obtain ⟨p, -, sits, other, ne, owned, -⟩ := (lookups key).mp changed
      rw [records.hash_eq, records.replicas_eq] at sits
      obtain ⟨there, sits'⟩ := mem_of_lastAt ((records.owners p).symm.trans owned)
      exact alone other there ne p sits sits'
  · have records' : (anew.foldl addNodes ring).Records hash replicas (ids ++ ids) :=
      same ▸ records.foldl_addNodes anew
    exact records'.matches records fun p => by rw [lastAt_append, Option.or_self]

/-- Node `12` came after node `2` to position 12. When `2` is added again it owns that position, and
the key that lands there; when both are, nothing has changed. -/
theorem renewal_takes_back_shared_position :
    ∃ new, Ring.empty? 2 Checksum.decimalValue = .ok new ∧
      let ring := [["2"], ["12"]].foldl addNodes new
      let again := ring.addNodes ["2"]
      again.points = ring.points ∧ ring.owners[(12 : UInt32)]? = some "12" ∧
        again.owners[(12 : UInt32)]? = some "2" ∧ again.lookup "12" ≠ ring.lookup "12" ∧
        ([["2", "12"]].foldl addNodes ring).Matches ring := by
  obtain ⟨new, hnew, renewed⟩ := renewal_takes_back Checksum.decimalValue 2 (by decide)
  obtain ⟨one, all⟩ := renewed [["2"], ["12"]]
  obtain ⟨points, -, owns, lookups, -⟩ := one "2" (by decide)
  obtain rfl := Except.ok.inj hnew
  have fresh := @records_empty Checksum.decimalValue 2 (by decide)
  have records := fresh.foldl_addNodes [["2"], ["12"]]
  have owned := (records.owners 12).trans
    (show lastAt Checksum.decimalValue 2 ["2", "12"] 12 = some "12" by decide +kernel)
  have overtaken := (⟨by decide +kernel, "12", by decide, owned, [], ["12"], rfl,
    by decide, by decide⟩ : Overtaken _ ["2", "12"] "2" 12)
  have lands : Nearest (Occupied Checksum.decimalValue 2 ["2", "12"]) 12 12 :=
    .here ⟨"2", by decide +kernel⟩
  exact ⟨_, hnew, points, owned, owns 12 overtaken,
    (lookups "12").mpr ⟨12, records.successor?_eq_some_iff.mpr lands, overtaken⟩, all _ rfl⟩

end PeerCache.Ring
