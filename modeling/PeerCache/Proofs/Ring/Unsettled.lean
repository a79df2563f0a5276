import PeerCache.Checksum.Elementary
import PeerCache.Proofs.Ring.Matching

/-!
# A ring after an addition that failed

The points are put in order once all nodes are recorded. If the ids fail before, they stay as they
came: first those that were there, in order, and then the positions of the nodes that did come.
Their owners are right, and so is the set of the points (`Records.mem_points_iff`); but the search
relies on their order, and without it a key can go to a node that neither the ring before nor the
whole addition would send it to (`failed_addition_misplaces`). It still goes to some node
(`exists_owner_of_unsettled`), and the next addition, be it of no nodes, puts everything right
(`failed_addition_heals`).
-/

namespace PeerCache.Ring

variable {ring : Ring} {hash : HashFn} {replicas : Nat} {ids : List String} {h : UInt32}
  {key : String}

/-! ## Searching in any order -/

/-- Whatever the order of the points, the search ends in the stretch or right behind it. -/
theorem search_le (points : Array UInt32) (base size : Nat) (pos : 0 < size) :
    search points h base size ≤ base + size := by
  fun_induction search points h base size with
  | case1 base size long middle below ih =>
    have := ih (by omega)
    omega
  | case2 base size long middle above ih =>
    have := ih (by omega)
    omega
  | case3 base size short below => omega
  | case4 base size short above => omega

/-- So it ends at a point, or right behind the last one. -/
theorem firstAtLeast_le_size (points : Array UInt32) : firstAtLeast points h ≤ points.size := by
  unfold firstAtLeast
  split
  · exact Nat.zero_le _
  · next some =>
    rw [Array.isEmpty_iff_size_eq_zero] at some
    have := @search_le h points 0 points.size (by omega)
    omega

/-- Where there are points, every hash goes to one of them. -/
theorem exists_successor? (some : 0 < ring.points.size) (h : UInt32) :
    ∃ p ∈ ring.points, ring.successor? h = .some p := by
  have le := @firstAtLeast_le_size h ring.points
  have inside : (if firstAtLeast ring.points h = ring.points.size then 0
      else firstAtLeast ring.points h) < ring.points.size := by
    split <;> omega
  exact ⟨_, Array.getElem_mem inside, Array.getElem?_eq_getElem inside⟩

/-! ## Points as they come -/

theorem positions_place (id other : String) :
    (ring.place id).positions other = ring.positions other := by
  unfold positions
  rw [place_hash, place_replicas]

/-- Until they are put in order the points stand as they came: first the old ones, then those of
each node. -/
theorem foldl_place_points (ids : List String) (ring : Ring) :
    (ids.foldl place ring).points = ring.points ++ (ids.flatMap ring.positions).toArray := by
  induction ids generalizing ring with
  | nil => simp
  | cons id ids ih =>
    have same : (ring.place id).positions = ring.positions := funext (positions_place id)
    rw [List.foldl_cons, ih, same, place_points, List.flatMap_cons]
    apply Array.ext'
    simp

/-- A key goes to the owner of the point that it lands on, whether that is the right one or not. -/
theorem lookup_of_successor? {p : UInt32}
    (lands : ring.successor? (ring.hash (utf8 key)) = some p) :
    ring.lookup key = ring.owners[p]? := by
  rw [lookup, lands, Option.bind_some]

/-- Out of order the search still lands on a point, and every point has an owner. -/
theorem exists_owner_of_unsettled (records : ring.settle.Records hash replicas ids)
    (ne : ids ≠ []) (key : String) : ∃ owner ∈ ids, ring.lookup key = some owner := by
  obtain ⟨p, occupied⟩ := @exists_occupied hash _ _ records.positive ne
  have mem : p ∈ ring.points := mem_settle_points.mp ((records.points p).mpr occupied)
  obtain ⟨q, there, lands⟩ :=
    exists_successor? (Array.size_pos_of_mem mem) (ring.hash (utf8 key))
  obtain ⟨owner, owns, last⟩ :=
    exists_lastAt ((records.points q).mp (mem_settle_points.mpr there))
  exact ⟨owner, owns, (lookup_of_successor? lands).trans ((records.owners q).trans last)⟩

/-- So only a ring without nodes has no owner for a key. -/
theorem lookup_eq_none_iff_of_unsettled (records : ring.settle.Records hash replicas ids) :
    ring.lookup key = none ↔ ids = [] := by
  constructor
  · intro none
    by_contra ne
    obtain ⟨owner, -, found⟩ := exists_owner_of_unsettled records ne key
    rw [none] at found
    cases found
  · rintro rfl
    cases lands : ring.successor? (ring.hash (utf8 key)) with
    | none => rw [lookup, lands, Option.bind_none]
    | some p =>
      have mem : p ∈ ring.points := Array.mem_of_getElem? lands
      obtain ⟨_, none, -⟩ := (records.points p).mp (mem_settle_points.mpr mem)
      cases none

/-- The owner that is found may be the wrong one, but it is one of the nodes. -/
theorem mem_of_lookup_of_unsettled {owner : String}
    (records : ring.settle.Records hash replicas ids) (found : ring.lookup key = some owner) :
    owner ∈ ids := by
  have ne : ids ≠ [] := by
    intro none
    rw [(lookup_eq_none_iff_of_unsettled records).mpr none] at found
    cases found
  obtain ⟨owner', mem, found'⟩ := exists_owner_of_unsettled records ne key
  rwa [Option.some.inj (found.symm.trans found')]

/-- Points that came in order are settled. -/
theorem matches_settle (records : ring.settle.Records hash replicas ids)
    (ascending : ring.points.toList.Pairwise (· < ·)) : ring.Matches ring.settle := by
  have settled : ring.Records hash replicas ids :=
    ⟨records.hash_eq, records.replicas_eq, ascending,
      fun p => mem_settle_points.symm.trans (records.points p), records.owners⟩
  exact settled.matches records fun _ => rfl

/-! ## The failure -/

/-- **What an addition that fails leaves behind, and how it heals.** Whatever has been added to a
new ring, let further ids fail after any number of them.

* The fault is that of the ids. The points are those that were there and then the positions of the
  nodes that came, in the order of recording; the owners are those after the addition of these
  nodes, each point has one, and there is none without a point.
* A look-up finds one of the nodes, unless there is none at all.
* If the points happen to ascend, the ring is the one after the addition of the nodes that came.
* The next addition makes of it what it would have made of that ring. -/
theorem failed_addition_heals (hash : HashFn) (replicas : Nat) (positive : 0 < replicas) :
    ∃ new, Ring.empty? replicas hash = .ok new ∧
      ∀ (batches : List (List String)) (ids : List String) (text : String),
        let before := batches.foldl addNodes new
        let failed := before.addFrom ⟨ids, some text⟩
        let left := failed.state
        let whole := before.addNodes ids
        failed.answer = .error (.raised text) ∧
        left.points = before.points ++ (ids.flatMap before.positions).toArray ∧
        left.owners = whole.owners ∧ (∀ p, p ∈ left.points ↔ p ∈ left.owners) ∧
        (∀ key, left.lookup key = none ↔ batches.flatten ++ ids = []) ∧
        (∀ key owner, left.lookup key = some owner → owner ∈ batches.flatten ++ ids) ∧
        (left.points.toList.Pairwise (· < ·) → left.Matches whole) ∧
        ∀ more, (left.addNodes more).Matches (whole.addNodes more) := by
  refine ⟨_, dif_pos positive, ?_⟩
  intro batches ids text before failed left whole
  have known : before.Records hash replicas batches.flatten :=
    (records_empty positive).foldl_addNodes batches
  have records : whole.Records hash replicas (batches.flatten ++ ids) := known.addNodes ids
  have points : ∀ p, p ∈ left.points ↔ p ∈ left.owners :=
    fun p => mem_settle_points.symm.trans records.mem_points_iff
  refine ⟨rfl, foldl_place_points ids before, rfl, points,
    fun key => lookup_eq_none_iff_of_unsettled records,
    fun key owner => mem_of_lookup_of_unsettled records, matches_settle records, fun more => ?_⟩
  have same : left.addNodes more = before.addNodes (ids ++ more) := by
    unfold addNodes
    rw [List.foldl_append]
    rfl
  rw [same]
  refine (known.addNodes (ids ++ more)).matches (records.addNodes more) fun p => ?_
  rw [List.append_assoc]

/-- What is to be checked of the nodes to see who owns a key: who is the last one at some position,
and that no label leads to one that is closer. -/
theorem Records.lookup_of_labels (records : ring.Records hash replicas ids) {owner : String}
    (p : UInt32) (last : lastAt hash replicas ids p = some owner)
    (far : ∀ id ∈ ids, ∀ i < replicas,
      clockwise (hash (utf8 key)) p ≤ clockwise (hash (utf8 key)) (hash (utf8 (label i id)))) :
    ring.lookup key = some owner := by
  have nearest : Nearest (Occupied hash replicas ids) (hash (utf8 key)) p := by
    refine ⟨⟨owner, mem_of_lastAt last⟩, ?_⟩
    rintro _ ⟨id, mem, i, hi, rfl⟩
    exact far id mem i hi
  exact (records.lookup nearest).trans last

/-- Nodes `1` and `9` came to the ring of node `7` before the ids failed. Once no nodes have been
added to it, the key with hash 6 goes to node `7`. -/
theorem failed_addition_heals_misplaced :
    ∃ new, Ring.empty? 1 Checksum.decimalValue = .ok new ∧
      let left := (([["7"]].foldl addNodes new).addFrom ⟨["1", "9"], some "source failed"⟩).state
      left.points.toList = [7, 1, 9] ∧ (left.addNodes []).lookup "6" = some "7" := by
  obtain ⟨new, hnew, heals⟩ := failed_addition_heals Checksum.decimalValue 1 (by decide)
  obtain ⟨-, points, -, -, -, -, -, next⟩ := heals [["7"]] ["1", "9"] "source failed"
  obtain rfl := Except.ok.inj hnew
  refine ⟨_, hnew, ?_, ?_⟩
  · rw [points]
    decide +kernel
  · have records := (@records_empty Checksum.decimalValue 1 (by decide)).foldl_addNodes
      [["7"], ["1", "9"], []]
    rw [(next []).lookup_eq]
    exact records.lookup_of_labels 7 (by decide +kernel) (by decide +kernel)

/-- Nodes `1` and `9` come to the ring of node `7`, and then the ids fail. The points are 7, 1 and
9, in this order, and a search for 6 that looks at 1 first ends at 9. So the key belongs to node
`9`, although it belonged to `7` before and would after the addition of both. -/
theorem failed_addition_misplaces :
    ∃ new, Ring.empty? 1 Checksum.decimalValue = .ok new ∧
      let before := new.addNodes ["7"]
      let left := (before.addFrom ⟨["1", "9"], some "source failed"⟩).state
      ¬ left.points.toList.Pairwise (· < ·) ∧ left.lookup "6" = some "9" ∧
        before.lookup "6" = some "7" ∧ (before.addNodes ["1", "9"]).lookup "6" = some "7" := by
  have known := (@records_empty Checksum.decimalValue 1 (by decide)).addNodes ["7"]
  have records := known.addNodes ["1", "9"]
  have points : (((⟨Checksum.decimalValue, 1, by decide, #[], ∅⟩ : Ring).addNodes ["7"]).addFrom
      ⟨["1", "9"], some "source failed"⟩).state.points = #[7, 1, 9] := by
    decide +kernel
  refine ⟨_, rfl, ?_, ?_, ?_, ?_⟩
  · rw [points]
    decide
  · -- the owners are those after the whole addition, but the search goes astray
    have goes : firstAtLeast #[7, 1, 9] (Checksum.decimalValue (utf8 "6")) = 2 := by decide +kernel
    have lands : (((⟨Checksum.decimalValue, 1, by decide, #[], ∅⟩ : Ring).addNodes ["7"]).addFrom
        ⟨["1", "9"], some "source failed"⟩).state.successor? (Checksum.decimalValue (utf8 "6")) =
          some 9 := by
      rw [successor?, points, goes]
      rfl
    exact (lookup_of_successor? lands).trans ((records.owners 9).trans (by decide +kernel))
  · exact known.lookup_of_labels 7 (by decide +kernel) (by decide +kernel)
  · exact records.lookup_of_labels 7 (by decide +kernel) (by decide +kernel)

end PeerCache.Ring
