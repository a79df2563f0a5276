import PeerCache.Proofs.Ring.Nearest

/-!
# What a ring has recorded

`Ring.Records ring hash replicas ids` says that a ring with these settings is what recording the
nodes `ids`, in this order, comes to: its points are the positions of the nodes, ascending, and a
position belongs to the last node of the list that sits there (`lastAt`). A new ring records no
node, and adding nodes adds them to the list (`Records.addNodes`). How the nodes were divided into
additions leaves no trace, so that a look-up is answered from the list alone (`Records.lookup`,
`Records.lookup_eq_none_iff`).
-/

namespace PeerCache.Ring

/-! ## Nodes and their positions -/

/-- A node has this among its positions. -/
def SitsAt (hash : HashFn) (replicas : Nat) (id : String) (p : UInt32) : Prop :=
  ∃ i < replicas, hash (utf8 (label i id)) = p

instance (hash : HashFn) (replicas : Nat) (id : String) (p : UInt32) :
    Decidable (SitsAt hash replicas id p) :=
  inferInstanceAs (Decidable (∃ i < replicas, _))

/-- Some node of the list has this among its positions. -/
def Occupied (hash : HashFn) (replicas : Nat) (ids : List String) (p : UInt32) : Prop :=
  ∃ id ∈ ids, SitsAt hash replicas id p

/-- The last node of the list that has this among its positions. -/
def lastAt (hash : HashFn) (replicas : Nat) (ids : List String) (p : UInt32) : Option String :=
  (ids.filter fun id => SitsAt hash replicas id p).getLast?

variable {hash : HashFn} {replicas : Nat} {ids more : List String} {id : String} {p : UInt32}

theorem mem_positions {ring : Ring} :
    p ∈ ring.positions id ↔ SitsAt ring.hash ring.replicas id p := by
  simp [positions, SitsAt]

theorem occupied_cons :
    Occupied hash replicas (id :: ids) p ↔
      SitsAt hash replicas id p ∨ Occupied hash replicas ids p := by
  simp [Occupied]

theorem occupied_append :
    Occupied hash replicas (ids ++ more) p ↔
      Occupied hash replicas ids p ∨ Occupied hash replicas more p := by
  simp only [Occupied, List.mem_append, or_and_right, exists_or]

/-- Every node has a position, since it has at least one. -/
theorem exists_occupied (positive : 0 < replicas) (ne : ids ≠ []) :
    ∃ p, Occupied hash replicas ids p := by
  obtain ⟨id, mem⟩ := List.exists_mem_of_ne_nil ids ne
  exact ⟨_, id, mem, 0, positive, rfl⟩

/-- So every key has a nearest position. -/
theorem exists_nearest (positive : 0 < replicas) (ne : ids ≠ []) (h : UInt32) :
    ∃ p, Nearest (Occupied hash replicas ids) h p := by
  obtain ⟨p, occupied⟩ := exists_occupied positive ne
  exact Nearest.exists_of_mem occupied

/-- A later list has the say wherever one of its nodes sits. -/
theorem lastAt_append :
    lastAt hash replicas (ids ++ more) p =
      (lastAt hash replicas more p).or (lastAt hash replicas ids p) := by
  rw [lastAt, List.filter_append, List.getLast?_append]
  rfl

/-- A single node owns its positions and no others. -/
theorem lastAt_singleton :
    lastAt hash replicas [id] p = if SitsAt hash replicas id p then some id else none := by
  by_cases sits : SitsAt hash replicas id p <;> simp [lastAt, sits]

/-- The first node of a list owns what no later one sits at. -/
theorem lastAt_cons :
    lastAt hash replicas (id :: ids) p =
      (lastAt hash replicas ids p).or (if SitsAt hash replicas id p then some id else none) := by
  rw [← lastAt_singleton]
  exact @lastAt_append hash replicas [id] ids p

/-- The owner of a position is a node that sits there. -/
theorem mem_of_lastAt {owner : String} (h : lastAt hash replicas ids p = some owner) :
    owner ∈ ids ∧ SitsAt hash replicas owner p := by
  have mem := List.mem_of_getLast? h
  rwa [List.mem_filter, decide_eq_true_iff] at mem

/-- A position has no owner just if nobody sits there. -/
theorem lastAt_eq_none_iff :
    lastAt hash replicas ids p = none ↔ ¬ Occupied hash replicas ids p := by
  simp [lastAt, Occupied]

/-- Where somebody sits, one of those nodes is the owner. -/
theorem exists_lastAt (occupied : Occupied hash replicas ids p) :
    ∃ owner ∈ ids, lastAt hash replicas ids p = some owner := by
  cases h : lastAt hash replicas ids p with
  | none => exact absurd occupied (lastAt_eq_none_iff.mp h)
  | some owner => exact ⟨owner, (mem_of_lastAt h).1, rfl⟩

/-! ## Recording -/

/-- The ring has these settings and is what recording these nodes, in this order, comes to. -/
structure Records (ring : Ring) (hash : HashFn) (replicas : Nat) (ids : List String) : Prop where
  hash_eq : ring.hash = hash
  replicas_eq : ring.replicas = replicas
  ascending : ring.points.toList.Pairwise (· < ·)
  points : ∀ p, p ∈ ring.points ↔ Occupied hash replicas ids p
  owners : ∀ p, ring.owners[p]? = lastAt hash replicas ids p

/-- A new ring records no node. -/
theorem records_empty (positive : 0 < replicas) :
    Records ⟨hash, replicas, positive, #[], ∅⟩ hash replicas [] where
  hash_eq := rfl
  replicas_eq := rfl
  ascending := .nil
  points p := by simp [Occupied]
  owners p := by simp [lastAt]

section

variable {ring : Ring}

/-- Occupying positions gives them to the node, whoever owned them, and leaves all others. -/
theorem getElem?_owners_foldl_occupy (points : List UInt32) :
    (points.foldl (occupy id) ring).owners[p]? =
      if p ∈ points then some id else ring.owners[p]? := by
  induction points generalizing ring with
  | nil => rfl
  | cons point points ih =>
    rw [List.foldl_cons, ih, occupy_owners, Std.HashMap.getElem?_insert]
    by_cases later : p ∈ points
    · rw [if_pos later, if_pos (List.mem_cons_of_mem _ later)]
    · by_cases same : point = p
      · simp [same]
      · simp [later, same, Ne.symm same]

/-- A node that is placed takes over its positions. -/
theorem getElem?_owners_place :
    (ring.place id).owners[p]? =
      if SitsAt ring.hash ring.replicas id p then some id else ring.owners[p]? := by
  simp only [place, getElem?_owners_foldl_occupy, mem_positions]

/-- The nodes recorded last have the say over those that were there. -/
theorem foldl_place (ids : List String) (ring : Ring) :
    (ids.foldl place ring).hash = ring.hash ∧ (ids.foldl place ring).replicas = ring.replicas ∧
      (∀ p, p ∈ (ids.foldl place ring).points ↔
        p ∈ ring.points ∨ Occupied ring.hash ring.replicas ids p) ∧
      ∀ p, (ids.foldl place ring).owners[p]? =
        (lastAt ring.hash ring.replicas ids p).or ring.owners[p]? := by
  induction ids generalizing ring with
  | nil => simp [Occupied, lastAt]
  | cons id ids ih =>
    obtain ⟨hhash, hreplicas, hpoints, howners⟩ := ih (ring.place id)
    rw [place_hash] at hhash hpoints howners
    rw [place_replicas] at hreplicas hpoints howners
    refine ⟨hhash, hreplicas, fun p => ?_, fun p => ?_⟩
    · have mem : p ∈ (ring.positions id).toArray ↔ SitsAt ring.hash ring.replicas id p :=
        List.mem_toArray.trans mem_positions
      rw [List.foldl_cons, hpoints, place_points, Array.mem_append, mem, occupied_cons, or_assoc]
    · rw [List.foldl_cons, howners, getElem?_owners_place, lastAt_cons, Option.or_assoc]
      congr 1
      split <;> rfl

/-- **Adding nodes records them behind those recorded before.** -/
theorem Records.addNodes (records : ring.Records hash replicas ids) (more : List String) :
    (ring.addNodes more).Records hash replicas (ids ++ more) := by
  obtain ⟨hhash, hreplicas, hpoints, howners⟩ := foldl_place more ring
  rw [records.hash_eq] at hhash hpoints howners
  rw [records.replicas_eq] at hreplicas hpoints howners
  refine ⟨hhash, hreplicas, pairwise_ascending _, fun p => ?_, fun p => ?_⟩
  · rw [occupied_append, ← records.points, ← hpoints]
    exact mem_settle_points
  · rw [lastAt_append, ← records.owners]
    exact howners p

/-- Adding nodes in several batches records them one after the other. By induction on the batches.
-/
theorem Records.foldl_addNodes (records : ring.Records hash replicas ids)
    (batches : List (List String)) :
    (batches.foldl Ring.addNodes ring).Records hash replicas (ids ++ batches.flatten) := by
  induction batches generalizing ring ids with
  | nil => simpa using records
  | cons batch batches ih =>
    rw [List.flatten_cons, ← List.append_assoc]
    exact ih (records.addNodes batch)

/-! ## Looking up -/

namespace Records

variable {h : UInt32} {key : String}

/-- The points are the positions that have an owner. -/
theorem mem_points_iff (records : ring.Records hash replicas ids) :
    p ∈ ring.points ↔ p ∈ ring.owners := by
  rw [records.points, Std.HashMap.mem_iff_isSome_getElem?, records.owners,
    Option.isSome_iff_ne_none, Ne, lastAt_eq_none_iff, Classical.not_not]

theorem positive (records : ring.Records hash replicas ids) : 0 < replicas :=
  records.replicas_eq ▸ ring.replicas_pos

/-- The search by halving finds the nearest position at which a node sits. -/
theorem successor?_eq_some_iff (records : ring.Records hash replicas ids) :
    ring.successor? h = some p ↔ Nearest (Occupied hash replicas ids) h p :=
  (Ring.successor?_eq_some_iff records.ascending).trans (Nearest.congr records.points)

/-- A key belongs to the last node at the nearest position. -/
theorem lookup (records : ring.Records hash replicas ids)
    (nearest : Nearest (Occupied hash replicas ids) (hash (utf8 key)) p) :
    ring.lookup key = lastAt hash replicas ids p := by
  rw [Ring.lookup, records.hash_eq, records.successor?_eq_some_iff.mpr nearest, Option.bind_some,
    records.owners]

/-- Where there is a node, every key has one of the nodes as its owner. -/
theorem exists_lookup (records : ring.Records hash replicas ids) (ne : ids ≠ []) (key : String) :
    ∃ owner ∈ ids, ring.lookup key = some owner := by
  obtain ⟨p, nearest⟩ := exists_nearest records.positive ne (hash (utf8 key))
  obtain ⟨owner, mem, last⟩ := exists_lastAt nearest.mem
  exact ⟨owner, mem, (records.lookup nearest).trans last⟩

/-- Only a ring without nodes has no owner for a key, and it has none for any key. -/
theorem lookup_eq_none_iff (records : ring.Records hash replicas ids) :
    ring.lookup key = none ↔ ids = [] := by
  constructor
  · intro none
    by_contra ne
    obtain ⟨owner, -, found⟩ := records.exists_lookup ne key
    rw [none] at found
    cases found
  · rintro rfl
    -- no position is occupied, so there is no point to land on
    cases found : ring.successor? (ring.hash (utf8 key)) with
    | none => rw [Ring.lookup, found, Option.bind_none]
    | some p =>
      obtain ⟨_, none, -⟩ := (records.successor?_eq_some_iff.mp found).mem
      cases none

/-- Nobody else owns a key. -/
theorem mem_of_lookup {owner : String} (records : ring.Records hash replicas ids)
    (found : ring.lookup key = some owner) : owner ∈ ids := by
  have ne : ids ≠ [] := by
    intro none
    rw [records.lookup_eq_none_iff.mpr none] at found
    cases found
  obtain ⟨owner', mem, found'⟩ := records.exists_lookup ne key
  rwa [Option.some.inj (found.symm.trans found')]

/-- A ring is empty just if no node has been recorded, as any node brings a point with it. -/
theorem isEmpty_iff (records : ring.Records hash replicas ids) : ring.isEmpty ↔ ids = [] := by
  rw [isEmpty, Array.isEmpty_iff, Array.eq_empty_iff_forall_not_mem]
  constructor
  · intro none
    by_contra ne
    obtain ⟨p, occupied⟩ := exists_occupied records.positive ne
    exact none p ((records.points p).mpr occupied)
  · rintro rfl p mem
    obtain ⟨_, none, -⟩ := (records.points p).mp mem
    cases none

end Records

end

end PeerCache.Ring
