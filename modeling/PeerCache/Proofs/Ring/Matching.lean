import Mathlib.Data.List.Sort
import PeerCache.Proofs.Ring.Records

/-!
# Rings that hold the same

Two rings match when they have the same settings, the same points and the same owner at each point.
Points ascend and each occurs once, so they depend on the set of positions alone
(`Records.points_eq`), and two rings match as soon as the last node is the same at every position
(`Records.matches`). No question tells matching rings apart (`Matches.lookup_eq`,
`Matches.nodeIds_eq`).

Rings with the same points send a key to the same one of them, so that its owner differs just if
that point has different owners (`lookup_ne_iff_of_points_eq`).
-/

namespace PeerCache.Ring

/-- The rings have the same settings, points and owners. -/
structure Matches (one two : Ring) : Prop where
  hash_eq : one.hash = two.hash
  replicas_eq : one.replicas = two.replicas
  points_eq : one.points = two.points
  owners_eq : ∀ p : UInt32, one.owners[p]? = two.owners[p]?

variable {ring one two : Ring} {hash : HashFn} {replicas : Nat} {ids more : List String}

/-! ## Points -/

/-- Equal points leave the search no choice. -/
theorem successor?_congr (points : one.points = two.points) (h : UInt32) :
    one.successor? h = two.successor? h := by
  unfold successor?
  rw [points]

/-- Between rings with the same points a key lands on the same point, so its owner differs just if
that point has different owners. -/
theorem lookup_ne_iff_of_points_eq (hashes : one.hash = two.hash)
    (points : one.points = two.points) (key : String) :
    one.lookup key ≠ two.lookup key ↔
      ∃ p, one.successor? (one.hash (utf8 key)) = some p ∧ one.owners[p]? ≠ two.owners[p]? := by
  unfold lookup
  rw [← hashes, ← successor?_congr points]
  cases one.successor? (one.hash (utf8 key)) with
  | none => simp
  | some p => simp

/-- The points are told by which positions are occupied: ascending lists with the same members are
the same list. -/
theorem Records.points_eq (records : one.Records hash replicas ids)
    (records' : two.Records hash replicas more)
    (same : ∀ p, Occupied hash replicas ids p ↔ Occupied hash replicas more p) :
    one.points = two.points := by
  have mem : ∀ p, p ∈ one.points.toList ↔ p ∈ two.points.toList := by
    intro p
    rw [Array.mem_toList_iff, Array.mem_toList_iff, records.points, records'.points, same]
  exact Array.ext' (records.ascending.eq_of_mem_iff records'.ascending mem)

/-! ## Owners -/

/-- The ids listed are those of the nodes that own a point. -/
theorem mem_nodeIds {id : String} :
    id ∈ ring.nodeIds ↔ ∃ p : UInt32, ring.owners[p]? = some id := by
  rw [nodeIds, mem_ascending, List.mem_map]
  constructor
  · rintro ⟨⟨p, _⟩, mem, rfl⟩
    exact ⟨p, Std.HashMap.mem_toList_iff_getElem?_eq_some.mp mem⟩
  · rintro ⟨p, owned⟩
    exact ⟨(p, id), Std.HashMap.mem_toList_iff_getElem?_eq_some.mpr owned, rfl⟩

/-- They ascend, and none is listed twice. -/
theorem pairwise_nodeIds : ring.nodeIds.Pairwise (· < ·) :=
  pairwise_ascending _

theorem nodeIds_congr (owners : ∀ p : UInt32, one.owners[p]? = two.owners[p]?) :
    one.nodeIds = two.nodeIds := by
  have mem : ∀ id, id ∈ one.nodeIds ↔ id ∈ two.nodeIds := by
    intro id
    simp only [mem_nodeIds, owners]
  exact pairwise_nodeIds.eq_of_mem_iff pairwise_nodeIds mem

/-! ## Matching -/

theorem Matches.symm (matched : one.Matches two) : two.Matches one where
  hash_eq := matched.hash_eq.symm
  replicas_eq := matched.replicas_eq.symm
  points_eq := matched.points_eq.symm
  owners_eq p := (matched.owners_eq p).symm

/-- Matching rings agree on the owner of every key. -/
theorem Matches.lookup_eq (matched : one.Matches two) (key : String) :
    one.lookup key = two.lookup key := by
  by_contra ne
  obtain ⟨p, -, apart⟩ := (lookup_ne_iff_of_points_eq matched.hash_eq matched.points_eq key).mp ne
  exact apart (matched.owners_eq p)

theorem Matches.nodeIds_eq (matched : one.Matches two) : one.nodeIds = two.nodeIds :=
  nodeIds_congr matched.owners_eq

/-- What a ring has recorded shows only in who is the last node at each position. -/
theorem Records.matches (records : one.Records hash replicas ids)
    (records' : two.Records hash replicas more)
    (same : ∀ p, lastAt hash replicas ids p = lastAt hash replicas more p) : one.Matches two where
  hash_eq := records.hash_eq.trans records'.hash_eq.symm
  replicas_eq := records.replicas_eq.trans records'.replicas_eq.symm
  points_eq := by
    refine records.points_eq records' fun p => ?_
    rw [← not_iff_not, ← lastAt_eq_none_iff, ← lastAt_eq_none_iff, same]
  owners_eq p := by rw [records.owners, records'.owners, same]

end PeerCache.Ring
