import Mathlib.Tactic.IntervalCases
import PeerCache.Checksum.Elementary
import PeerCache.Proofs.Ring.Records

/-!
# Who owns what after an addition

Adding nodes to a ring moves a key only to one of the nodes added, and only if one of them sits no
farther from the key than the point it had (`Reaches`). The moves that `migrations` lists between
two rings are the keys whose owners differ (`migrations_eq`); after an addition all of them lead to
nodes that were added.
-/

namespace PeerCache.Ring

/-- Some node of the list sits no farther from a hash than the point that the ring has for it, or
anywhere if the ring has no point. -/
def Reaches (ring : Ring) (ids : List String) (h : UInt32) : Prop :=
  ∃ q, Occupied ring.hash ring.replicas ids q ∧
    ∀ p, ring.successor? h = some p → clockwise h q ≤ clockwise h p

variable {ring before after : Ring} {hash : HashFn} {replicas : Nat} {ids more : List String}
  {key : String}

/-! ## One key -/

/-- What the nodes added reach belongs to them. -/
theorem Records.lookup_addNodes_of_reaches (records : ring.Records hash replicas ids)
    (reaches : ring.Reaches more (hash (utf8 key))) :
    ∃ q, Nearest (Occupied hash replicas more) (hash (utf8 key)) q ∧
      ∃ owner ∈ more, lastAt hash replicas more q = some owner ∧
        (ring.addNodes more).lookup key = some owner := by
  obtain ⟨r, occupied, close⟩ := reaches
  rw [records.hash_eq, records.replicas_eq] at occupied
  obtain ⟨q, nearest⟩ := @Nearest.exists_of_mem _ (hash (utf8 key)) _ occupied
  obtain ⟨owner, mem, last⟩ := exists_lastAt nearest.mem
  refine ⟨q, nearest, owner, mem, last, ?_⟩
  -- nothing that was there is closer than the nearest position of those added
  have far : ∀ p, Occupied hash replicas ids p →
      clockwise (hash (utf8 key)) q ≤ clockwise (hash (utf8 key)) p := by
    intro p hp
    obtain ⟨s, hs⟩ := @Nearest.exists_of_mem _ (hash (utf8 key)) _ hp
    have first := close s (records.successor?_eq_some_iff.mpr hs)
    exact (nearest.least r occupied).trans (first.trans (hs.least p hp))
  have union := (Nearest.congr fun p => occupied_append.trans or_comm).mpr (nearest.union far)
  rw [(records.addNodes more).lookup union, lastAt_append, last, Option.some_or]

/-- What they do not reach stays where it was. -/
theorem Records.lookup_addNodes_of_not_reaches (records : ring.Records hash replicas ids)
    (beyond : ¬ ring.Reaches more (hash (utf8 key))) :
    (ring.addNodes more).lookup key = ring.lookup key := by
  have records' := records.addNodes more
  have apart : ∀ {q}, Occupied hash replicas more q → ∃ p, ring.successor? (hash (utf8 key)) =
      some p ∧ clockwise (hash (utf8 key)) p < clockwise (hash (utf8 key)) q := by
    intro q occupied
    by_contra close
    rw [← records.hash_eq, ← records.replicas_eq] at occupied
    refine beyond ⟨q, occupied, fun p found => ?_⟩
    by_contra far
    exact close ⟨p, found, Nat.not_le.mp far⟩
  by_cases none : ids = []
  · -- an empty ring is reached from anywhere, so no node is added
    have fewer : more = [] := by
      by_contra ne
      obtain ⟨q, occupied⟩ := exists_occupied records.positive ne
      obtain ⟨p, found, -⟩ := apart occupied
      obtain ⟨_, mem, -⟩ := (records.successor?_eq_some_iff.mp found).mem
      rw [none] at mem
      cases mem
    rw [records.lookup_eq_none_iff.mpr none, records'.lookup_eq_none_iff, none, fewer]
    rfl
  · obtain ⟨p, nearest⟩ := exists_nearest records.positive none (hash (utf8 key))
    have far : ∀ q, Occupied hash replicas more q →
        clockwise (hash (utf8 key)) p < clockwise (hash (utf8 key)) q := by
      intro q occupied
      obtain ⟨s, found, lt⟩ := apart occupied
      rwa [(records.successor?_eq_some_iff.mp found).unique nearest] at lt
    have union := (Nearest.congr fun q => occupied_append).mpr
      (nearest.union fun q occupied => Nat.le_of_lt (far q occupied))
    -- and none of those added sits at the point itself
    have clear : lastAt hash replicas more p = .none :=
      lastAt_eq_none_iff.mpr fun occupied => Nat.lt_irrefl _ (far p occupied)
    rw [records'.lookup union, records.lookup nearest, lastAt_append, clear, Option.none_or]

/-- A key changes hands only to a node that was added. -/
theorem Records.mem_of_lookup_addNodes_ne (records : ring.Records hash replicas ids)
    (moved : (ring.addNodes more).lookup key ≠ ring.lookup key) :
    ∃ owner ∈ more, (ring.addNodes more).lookup key = some owner := by
  by_cases reaches : ring.Reaches more (hash (utf8 key))
  · obtain ⟨_, -, owner, mem, -, found⟩ := records.lookup_addNodes_of_reaches reaches
    exact ⟨owner, mem, found⟩
  · exact absurd (records.lookup_addNodes_of_not_reaches reaches) moved

/-! ## The keys that move -/

/-- The migrations are the keys with different owners, in order, with both owners. -/
theorem migrations_eq (keys : List String) :
    migrations before after keys =
      (keys.filter fun key => after.lookup key ≠ before.lookup key).map fun key =>
        ⟨key, before.lookup key, after.lookup key⟩ := by
  induction keys with
  | nil => rfl
  | cons key keys ih =>
    rw [migrations, List.filterMap_cons, ← migrations, ih, List.filter_cons]
    by_cases same : before.lookup key = after.lookup key
    · simp [same]
    · simp [same, Ne.symm same]

theorem mem_migrations {keys : List String} {m : Migration} :
    m ∈ migrations before after keys ↔
      m.key ∈ keys ∧ after.lookup m.key ≠ before.lookup m.key ∧
        m.before = before.lookup m.key ∧ m.after = after.lookup m.key := by
  rw [migrations_eq, List.mem_map]
  constructor
  · rintro ⟨key, mem, rfl⟩
    rw [List.mem_filter, decide_eq_true_iff] at mem
    exact ⟨mem.1, mem.2, rfl, rfl⟩
  · rintro ⟨mem, moved, hbefore, hafter⟩
    refine ⟨m.key, List.mem_filter.mpr ⟨mem, decide_eq_true moved⟩, ?_⟩
    rw [← hbefore, ← hafter]

/-- **Adding nodes moves keys to them alone, and the migrations are the keys that move.** On every
ring that additions to a new one have led to, whatever nodes are added to it:

* a key that the nodes added reach belongs to the last of them at their nearest position;
* every other key belongs to whom it belonged;
* so an owner changes only to one of the nodes added;
* the migrations are the keys whose owner changes, in order, each as often as it was asked for;
* each of them leads to one of the nodes added, away from the former owner, if the ring had any. -/
theorem addNodes_remaps (hash : HashFn) (replicas : Nat) (positive : 0 < replicas) :
    ∃ new, Ring.empty? replicas hash = .ok new ∧
      ∀ (batches : List (List String)) (ids keys : List String),
        let before := batches.foldl addNodes new
        let after := before.addNodes ids
        (∀ key, before.Reaches ids (hash (utf8 key)) →
          ∃ q, Nearest (Occupied hash replicas ids) (hash (utf8 key)) q ∧
            ∃ owner ∈ ids, lastAt hash replicas ids q = some owner ∧
              after.lookup key = some owner) ∧
        (∀ key, ¬ before.Reaches ids (hash (utf8 key)) → after.lookup key = before.lookup key) ∧
        (∀ key, after.lookup key ≠ before.lookup key →
          ∃ owner ∈ ids, after.lookup key = some owner) ∧
        migrations before after keys =
          ((keys.filter fun key => after.lookup key ≠ before.lookup key).map fun key =>
            ⟨key, before.lookup key, after.lookup key⟩) ∧
        ∀ m ∈ migrations before after keys,
          (∃ owner ∈ ids, m.after = some owner) ∧ m.before = before.lookup m.key ∧
            (m.before = none ↔ before.isEmpty) := by
  refine ⟨_, dif_pos positive, ?_⟩
  intro batches ids keys before after
  have records : before.Records hash replicas batches.flatten :=
    (records_empty positive).foldl_addNodes batches
  refine ⟨fun key => records.lookup_addNodes_of_reaches,
    fun key => records.lookup_addNodes_of_not_reaches, fun key => records.mem_of_lookup_addNodes_ne,
    migrations_eq keys, fun m mem => ?_⟩
  obtain ⟨-, moved, hbefore, hafter⟩ := mem_migrations.mp mem
  obtain ⟨owner, added, found⟩ := records.mem_of_lookup_addNodes_ne moved
  refine ⟨⟨owner, added, hafter.trans found⟩, hbefore, ?_⟩
  rw [hbefore, records.lookup_eq_none_iff, records.isEmpty_iff]

/-- Node `12` comes to sit at position 12, which was a point of node `2`. The key whose hash lies
before it moves, and no key moves to node `2`. -/
theorem addNodes_remaps_shared_point :
    ∃ new, Ring.empty? 2 Checksum.decimalValue = .ok new ∧
      let before := [["2"]].foldl addNodes new
      let after := before.addNodes ["12"]
      after.lookup "5" = some "12" ∧
        ∀ m ∈ migrations before after ["1", "5"], m.after = some "12" := by
  obtain ⟨new, hnew, remaps⟩ := addNodes_remaps Checksum.decimalValue 2 (by decide)
  refine ⟨new, hnew, ?_⟩
  intro before after
  obtain ⟨reached, -, -, -, moves⟩ := remaps [["2"]] ["12"] ["1", "5"]
  have records : before.Records Checksum.decimalValue 2 ["2"] := by
    obtain rfl := Except.ok.inj hnew
    exact (records_empty (by decide)).addNodes ["2"]
  -- node `2` sits at positions 2 and 12, so that 12 is no farther from 5 than either of them
  have close : ∀ p, Occupied Checksum.decimalValue 2 ["2"] p → clockwise 5 12 ≤ clockwise 5 p := by
    rintro p ⟨id, mem, i, lt, rfl⟩
    rw [List.mem_singleton] at mem
    subst mem
    interval_cases i <;> decide +kernel
  have reaches : before.Reaches ["12"] 5 := by
    refine ⟨12, ?_, fun p found => close p (records.successor?_eq_some_iff.mp found).mem⟩
    rw [records.hash_eq, records.replicas_eq]
    exact ⟨"12", by decide +kernel⟩
  constructor
  · obtain ⟨_, -, owner, added, -, found⟩ := reached "5" reaches
    rwa [List.mem_singleton.mp added] at found
  · intro m mem
    obtain ⟨owner, added, found⟩ := (moves m mem).1
    rwa [List.mem_singleton.mp added] at found

end PeerCache.Ring
