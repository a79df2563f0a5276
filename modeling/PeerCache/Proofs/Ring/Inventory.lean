import Mathlib.Data.Finset.Prod
import PeerCache.Checksum.Elementary
import PeerCache.Proofs.Ring.Labels

/-!
# What a ring holds and reports

Points and owners are kept apart, the points with repetitions while nodes are recorded and the
owners in a map that overwrites. After every addition they are about the same positions: those of
the nodes, each of them once and in order, each with a node as its owner that sits there.

How many points there are depends on whether positions coincide. A node has one *site* for each
index (`sites`), and there are as many points as sites just if no two sites have the same position
(`Records.pointCount_eq_iff_injOn`). A node that was overtaken at every position is not among the
owners any more (`Records.mem_nodeIds_iff`). `reports_what_was_added` puts this together.
-/

namespace PeerCache.Ring

/-- The nodes with the indices of their positions. -/
def sites (replicas : Nat) (ids : List String) : Finset (String × Nat) :=
  ids.toFinset ×ˢ Finset.range replicas

/-- The position of a site. -/
def position (hash : HashFn) (site : String × Nat) : UInt32 :=
  hash (utf8 (label site.2 site.1))

variable {ring : Ring} {hash : HashFn} {replicas : Nat} {ids : List String} {id key : String}
  {p : UInt32}

@[simp] theorem mem_sites {site : String × Nat} :
    site ∈ sites replicas ids ↔ site.1 ∈ ids ∧ site.2 < replicas := by
  simp [sites]

/-- Each different node has as many sites as there are replicas. -/
theorem card_sites : (sites replicas ids).card = replicas * ids.toFinset.card := by
  rw [sites, Finset.card_product, Finset.card_range, Nat.mul_comm]

/-- A position is occupied if some site hashes there. -/
theorem occupied_iff_exists_site :
    Occupied hash replicas ids p ↔ ∃ site ∈ sites replicas ids, position hash site = p := by
  simp [Occupied, SitsAt, position, and_assoc]

/-! ## Points -/

/-- A ring has one point for every position, however many sites share it. -/
theorem Records.pointCount_eq_card (records : ring.Records hash replicas ids) :
    ring.pointCount = ((sites replicas ids).image (position hash)).card := by
  have same : (ids.flatMap ring.positions).toFinset =
      (sites replicas ids).image (position hash) := by
    ext p
    rw [List.mem_toFinset, List.mem_flatMap, Finset.mem_image, ← occupied_iff_exists_site]
    simp only [mem_positions, records.hash_eq, records.replicas_eq, Occupied]
  rw [records.pointCount_eq, ← List.card_toFinset, same]

/-- There are at most as many points as sites, since every point is the position of one. -/
theorem Records.pointCount_le (records : ring.Records hash replicas ids) :
    ring.pointCount ≤ replicas * ids.toFinset.card := by
  rw [records.pointCount_eq_card, ← card_sites]
  exact Finset.card_image_le

/-- There are just as many if no two sites hash to one position. -/
theorem Records.pointCount_eq_iff_injOn (records : ring.Records hash replicas ids) :
    ring.pointCount = replicas * ids.toFinset.card ↔
      Set.InjOn (position hash) (sites replicas ids) := by
  rw [records.pointCount_eq_card, ← card_sites]
  exact Finset.card_image_iff

/-! ## Owners -/

/-- The nodes reported are those that nobody has overtaken at some position of theirs. -/
theorem Records.mem_nodeIds_iff (records : ring.Records hash replicas ids) :
    id ∈ ring.nodeIds ↔ ∃ p, lastAt hash replicas ids p = some id := by
  simp only [mem_nodeIds, records.owners]

/-- Whoever is found for a key owns a point, and so is listed. -/
theorem mem_nodeIds_of_lookup (found : ring.lookup key = some id) : id ∈ ring.nodeIds := by
  obtain ⟨p, -, owned⟩ := Option.bind_eq_some_iff.mp found
  exact mem_nodeIds.mpr ⟨p, owned⟩

/-- **A ring reports what was added to it.** Whatever the hash, let nodes be added to a new ring in
any batches, the same node as often as one likes.

* The points ascend strictly. They are the positions of the nodes, and the positions that have an
  owner; the owner is a node that sits there.
* There are at most as many points as different nodes have positions, and as many just if all these
  positions are different.
* The nodes reported ascend strictly. They are those that are the last ones to have been added at
  some position of theirs.
* Whatever a look-up finds is among them. -/
theorem reports_what_was_added (hash : HashFn) (replicas : Nat) (positive : 0 < replicas) :
    ∃ new, Ring.empty? replicas hash = .ok new ∧ ∀ batches : List (List String),
      let ids := batches.flatten
      let ring := batches.foldl addNodes new
      ring.points.toList.Pairwise (· < ·) ∧
      (∀ p, p ∈ ring.points ↔ p ∈ ring.owners) ∧
      (∀ p, p ∈ ring.points ↔ ∃ id ∈ ids, ∃ i < replicas, hash (utf8 (label i id)) = p) ∧
      (∀ (p : UInt32) (owner : String), ring.owners[p]? = some owner →
        owner ∈ ids ∧ ∃ i < replicas, hash (utf8 (label i owner)) = p) ∧
      ring.pointCount ≤ replicas * ids.toFinset.card ∧
      (ring.pointCount = replicas * ids.toFinset.card ↔
        ∀ a ∈ ids, ∀ i < replicas, ∀ b ∈ ids, ∀ j < replicas,
          hash (utf8 (label i a)) = hash (utf8 (label j b)) → a = b ∧ i = j) ∧
      ring.nodeIds.Pairwise (· < ·) ∧
      (∀ id, id ∈ ring.nodeIds ↔
        id ∈ ids ∧ ∃ i < replicas, lastAt hash replicas ids (hash (utf8 (label i id))) = some id) ∧
      ∀ key owner, ring.lookup key = some owner → owner ∈ ring.nodeIds := by
  refine ⟨_, dif_pos positive, ?_⟩
  intro batches ids ring
  have records : ring.Records hash replicas ids := (records_empty positive).foldl_addNodes batches
  refine ⟨records.ascending, fun p => records.mem_points_iff, records.points,
    fun p owner owned => mem_of_lastAt ((records.owners p).symm.trans owned), records.pointCount_le,
    records.pointCount_eq_iff_injOn.trans ?apart, pairwise_nodeIds, fun id => ?reported,
    fun key owner => mem_nodeIds_of_lookup⟩
  case apart =>
    constructor
    · intro apart a ha i hi b hb j hj meet
      have same : (a, i) = (b, j) :=
        apart (mem_sites.mpr ⟨ha, hi⟩) (mem_sites.mpr ⟨hb, hj⟩) meet
      exact Prod.mk.inj same
    · rintro apart ⟨a, i⟩ one ⟨b, j⟩ two meet
      obtain ⟨ha, hi⟩ := mem_sites.mp one
      obtain ⟨hb, hj⟩ := mem_sites.mp two
      obtain ⟨rfl, rfl⟩ := apart a ha i hi b hb j hj meet
      rfl
  case reported =>
    rw [records.mem_nodeIds_iff]
    constructor
    · rintro ⟨p, last⟩
      obtain ⟨mem, i, hi, rfl⟩ := mem_of_lastAt last
      exact ⟨mem, i, hi, last⟩
    · rintro ⟨-, i, -, last⟩
      exact ⟨_, last⟩

/-- With one position a node, `7` and `07` share position 7. The ring has one point for the two, and
the node that was added first is not reported. -/
theorem reports_what_was_added_hidden_node :
    ∃ new, Ring.empty? 1 Checksum.decimalValue = .ok new ∧
      let ring := [["7"], ["07"]].foldl addNodes new
      (7 : UInt32) ∈ ring.points ∧ ring.pointCount < 2 ∧ "07" ∈ ring.nodeIds ∧
        "7" ∉ ring.nodeIds := by
  obtain ⟨new, hnew, reports⟩ := reports_what_was_added Checksum.decimalValue 1 (by decide)
  obtain ⟨-, -, points, -, most, all, -, nodes, -⟩ := reports [["7"], ["07"]]
  refine ⟨new, hnew, (points 7).mpr ⟨"7", by decide, 0, by decide, by decide +kernel⟩, ?_,
    (nodes "07").mpr ⟨by decide, 0, by decide, by decide +kernel⟩, fun reported => ?_⟩
  · refine Nat.lt_of_le_of_ne most fun full => ?_
    have apart := all.mp full "7" (by decide) 0 (by decide) "07" (by decide) 0 (by decide)
      (by decide +kernel)
    exact absurd apart.1 (by decide)
  · obtain ⟨-, i, hi, last⟩ := (nodes "7").mp reported
    obtain rfl : i = 0 := by omega
    exact absurd last (by decide +kernel)

end PeerCache.Ring
