import PeerCache.Checksum.Elementary
import PeerCache.Proofs.Ring.Matching

/-!
# The order in which nodes are added

A position is contested if two different nodes sit there. Which of them was added last decides who
owns it; everywhere else there is one node to own it, in whatever order the nodes came
(`lastAt_congr`). So two rings of the same nodes have the same points, and they disagree on a key
only if it lands on a contested one (`order_shows_where_contested`).
-/

namespace PeerCache.Ring

/-- Two different nodes of the list have this among their positions. -/
def Contested (hash : HashFn) (replicas : Nat) (ids : List String) (p : UInt32) : Prop :=
  ∃ a ∈ ids, ∃ b ∈ ids, a ≠ b ∧ SitsAt hash replicas a p ∧ SitsAt hash replicas b p

variable {one two : Ring} {hash : HashFn} {replicas : Nat} {ids more : List String} {id : String}
  {p : UInt32}

/-! ## Positions of one node -/

/-- Where one node sits alone, it is the owner, wherever it stands in the list. -/
theorem lastAt_of_not_contested (calm : ¬ Contested hash replicas ids p) (mem : id ∈ ids)
    (sits : SitsAt hash replicas id p) : lastAt hash replicas ids p = some id := by
  obtain ⟨owner, there, last⟩ := exists_lastAt ⟨id, mem, sits⟩
  by_cases same : owner = id
  · rw [last, same]
  · exact absurd ⟨owner, there, id, mem, same, (mem_of_lastAt last).2, sits⟩ calm

/-- Where no two nodes meet, a list tells no more than which nodes are in it. -/
theorem lastAt_congr (same : ∀ id, id ∈ ids ↔ id ∈ more)
    (calm : ¬ Contested hash replicas ids p) :
    lastAt hash replicas ids p = lastAt hash replicas more p := by
  cases last : lastAt hash replicas more p with
  | none =>
    rw [lastAt_eq_none_iff] at last ⊢
    rintro ⟨id, mem, sits⟩
    exact last ⟨id, (same id).mp mem, sits⟩
  | some id =>
    obtain ⟨mem, sits⟩ := mem_of_lastAt last
    exact lastAt_of_not_contested calm ((same id).mpr mem) sits

theorem occupied_congr (same : ∀ id, id ∈ ids ↔ id ∈ more) (p : UInt32) :
    Occupied hash replicas ids p ↔ Occupied hash replicas more p := by
  simp only [Occupied, same]

/-- Where no position is contested, rings of the same nodes match. -/
theorem Records.matches_of_uncontested (records : one.Records hash replicas ids)
    (records' : two.Records hash replicas more) (same : ∀ id, id ∈ ids ↔ id ∈ more)
    (calm : ∀ p, ¬ Contested hash replicas ids p) : one.Matches two :=
  records.matches records' fun p => lastAt_congr same (calm p)

/-! ## Two orders -/

/-- **The order of additions shows only where two nodes meet.** Whatever the hash, let two new rings
get the same nodes, in whatever order, however often and in whatever batches; the lists may be
permutations of each other.

* The rings have the same points, and the same owner at each one that is not contested.
* A key has the same owner in both, unless the point it lands on is contested.
* If no position is contested, the rings are the same in all that can be asked of them. -/
theorem order_shows_where_contested (hash : HashFn) (replicas : Nat) (positive : 0 < replicas) :
    ∃ new, Ring.empty? replicas hash = .ok new ∧ ∀ one two : List (List String),
      (∀ id, id ∈ one.flatten ↔ id ∈ two.flatten) →
      let first := one.foldl addNodes new
      let second := two.foldl addNodes new
      first.points = second.points ∧
      (∀ p : UInt32, ¬ Contested hash replicas one.flatten p →
        first.owners[p]? = second.owners[p]?) ∧
      (∀ key, first.lookup key = second.lookup key ∨
        ∃ p, first.successor? (hash (utf8 key)) = some p ∧
          Contested hash replicas one.flatten p) ∧
      ((∀ p, ¬ Contested hash replicas one.flatten p) →
        first.Matches second ∧ first.nodeIds = second.nodeIds ∧
          ∀ key, first.lookup key = second.lookup key) := by
  refine ⟨_, dif_pos positive, ?_⟩
  intro one two same first second
  have fresh := @records_empty hash replicas positive
  have records : first.Records hash replicas one.flatten := fresh.foldl_addNodes one
  have records' : second.Records hash replicas two.flatten := fresh.foldl_addNodes two
  have points : first.points = second.points := records.points_eq records' (occupied_congr same)
  have owners : ∀ p : UInt32, ¬ Contested hash replicas one.flatten p →
      first.owners[p]? = second.owners[p]? := by
    intro p calm
    rw [records.owners, records'.owners, lastAt_congr same calm]
  refine ⟨points, owners, fun key => ?_, fun calm => ?_⟩
  · have hashes : first.hash = second.hash := records.hash_eq.trans records'.hash_eq.symm
    rw [or_iff_not_imp_left]
    intro ne
    obtain ⟨p, lands, apart⟩ := (lookup_ne_iff_of_points_eq hashes points key).mp ne
    rw [records.hash_eq] at lands
    exact ⟨p, lands, not_not.mp fun calm => apart (owners p calm)⟩
  · have matched := records.matches_of_uncontested records' same calm
    exact ⟨matched, matched.nodeIds_eq, matched.lookup_eq⟩

/-- Nodes `2` and `12` meet at position 12, where the order shows; at position 112 node `12` is
alone. -/
theorem order_shows_where_contested_apart :
    ∃ new, Ring.empty? 2 Checksum.decimalValue = .ok new ∧
      let first := [["2"], ["12"]].foldl addNodes new
      let second := [["12", "2"]].foldl addNodes new
      first.points = second.points ∧ first.lookup "112" = second.lookup "112" ∧
        first.lookup "12" = some "12" ∧ second.lookup "12" = some "2" := by
  obtain ⟨new, hnew, orders⟩ :=
    order_shows_where_contested Checksum.decimalValue 2 (by decide)
  obtain ⟨points, -, agree, -⟩ := orders [["2"], ["12"]] [["12", "2"]] (by simp [or_comm])
  obtain rfl := Except.ok.inj hnew
  have fresh := @records_empty Checksum.decimalValue 2 (by decide)
  have records := fresh.foldl_addNodes [["2"], ["12"]]
  have records' := fresh.foldl_addNodes [["12", "2"]]
  refine ⟨_, hnew, points, ?_, ?_, ?_⟩
  · refine (agree "112").resolve_right ?_
    rintro ⟨p, lands, a, ha, b, hb, ne, sits, sits'⟩
    have landed := records.successor?_eq_some_iff.mp lands
    obtain rfl := landed.unique (.here ⟨"12", by decide +kernel⟩)
    have alone : ∀ id ∈ ["2", "12"],
        SitsAt Checksum.decimalValue 2 id (Checksum.decimalValue (utf8 "112")) → id = "12" := by
      decide +kernel
    exact ne ((alone a ha sits).trans (alone b hb sits').symm)
  · exact (records.lookup (.here ⟨"12", by decide +kernel⟩)).trans (by decide +kernel)
  · exact (records'.lookup (.here ⟨"12", by decide +kernel⟩)).trans (by decide +kernel)

end PeerCache.Ring
