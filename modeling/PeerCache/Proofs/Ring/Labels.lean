import Mathlib.Data.List.Dedup
import Mathlib.Data.List.Pairwise
import Mathlib.Data.Set.Function
import PeerCache.Checksum.Elementary
import PeerCache.Proofs.Ring.Contested
import Std.Data.String.ToNat

/-!
# Labels, and the positions that they give

A label is an index in decimal and then the id of a node, with nothing in between. From it index and
id can be told unless one id is another one behind digits that carry an index on to another index
(`Prolongs`, `exists_label_eq_iff`): with twelve positions a node, `1` and `1x` make the label that
`11` and `x` make. With up to ten positions, or where no id starts with a digit, this does not
happen.

A hash that tells the labels apart then gives all nodes positions of their own just if none of them
prolongs another (`uncontested_iff_unambiguous`), and this shows in the number of points
(`Records.pointCount_eq_iff`). Such nodes keep all their positions, in whatever order they are added
(`own_points_unless_prolonged`). No index but 0 begins with a zero, so the first label of a node is
never one of another node, and every node keeps at least that position (`Records.nodeIds_eq`).
-/

namespace PeerCache

/-- The first id is the second one behind digits with which one of the indices goes on to be
another. -/
def Prolongs (replicas : Nat) (long short : String) : Prop :=
  ∃ i < replicas, ∃ j < replicas, ∃ digits : String,
    digits ≠ "" ∧ toString i ++ digits = toString j ∧ long = digits ++ short

/-- The bytes that are hashed for the nodes. -/
def labelBytes (replicas : Nat) (ids : List String) : Set (List UInt8) :=
  {bytes | ∃ id ∈ ids, ∃ i < replicas, utf8 (label i id) = bytes}

/-- No id of the list prolongs another. -/
def Unambiguous (replicas : Nat) (ids : List String) : Prop :=
  ∀ a ∈ ids, ∀ b ∈ ids, ¬ Prolongs replicas a b

variable {replicas i j : Nat} {a b : String} {hash : HashFn} {ids : List String}

/-! ## What a label tells -/

/-- Two texts put together in two ways have one of the fronts begin with the other. -/
theorem text_append_eq_iff {s t u v : String} :
    s ++ t = u ++ v ↔
      (∃ d : String, s ++ d = u ∧ t = d ++ v) ∨ ∃ d : String, u ++ d = s ∧ v = d ++ t := by
  constructor
  · intro same
    have lists := congrArg String.toList same
    rw [String.toList_append, String.toList_append, List.append_eq_append_iff] at lists
    rcases lists with ⟨d, front, back⟩ | ⟨d, front, back⟩
    · refine .inl ⟨String.ofList d, String.toList_injective ?_, String.toList_injective ?_⟩
      · simp [front]
      · simp [back]
    · refine .inr ⟨String.ofList d, String.toList_injective ?_, String.toList_injective ?_⟩
      · simp [front]
      · simp [back]
  · rintro (⟨d, rfl, rfl⟩ | ⟨d, rfl, rfl⟩)
    · exact (String.append_assoc ..).symm
    · exact String.append_assoc ..

/-- An id that prolongs another is longer, by the digits. -/
theorem Prolongs.length_lt (prolongs : Prolongs replicas a b) : b.length < a.length := by
  obtain ⟨i, -, j, -, digits, some, -, rfl⟩ := prolongs
  have more : digits.length ≠ 0 := fun none => some (String.length_eq_zero_iff.mp none)
  rw [String.length_append]
  omega

theorem Prolongs.ne (prolongs : Prolongs replicas a b) : a ≠ b := by
  rintro rfl
  exact Nat.lt_irrefl _ prolongs.length_lt

/-- Two nodes have a label in common just if one of them prolongs the other. -/
theorem exists_label_eq_iff (ne : a ≠ b) :
    (∃ i < replicas, ∃ j < replicas, label i a = label j b) ↔
      Prolongs replicas a b ∨ Prolongs replicas b a := by
  constructor
  · rintro ⟨i, hi, j, hj, same⟩
    rcases text_append_eq_iff.mp same with ⟨digits, goesOn, rfl⟩ | ⟨digits, goesOn, rfl⟩
    · exact .inl ⟨i, hi, j, hj, digits, fun none => ne (by simp [none]), goesOn, rfl⟩
    · exact .inr ⟨j, hj, i, hi, digits, fun none => ne (by simp [none]), goesOn, rfl⟩
  · rintro (⟨i, hi, j, hj, digits, -, goesOn, rfl⟩ | ⟨i, hi, j, hj, digits, -, goesOn, rfl⟩)
    · exact ⟨i, hi, j, hj, text_append_eq_iff.mpr (.inl ⟨digits, goesOn, rfl⟩)⟩
    · exact ⟨j, hj, i, hi, text_append_eq_iff.mpr (.inr ⟨digits, goesOn, rfl⟩)⟩

/-- The labels of one node are told apart by their indices. -/
theorem label_inj_index : label i a = label j a ↔ i = j :=
  (String.append_left_inj a).trans Nat.repr_inj

/-- An index below ten has one digit, and cannot be gone on with. -/
theorem not_prolongs_of_le_ten (few : replicas ≤ 10) : ¬ Prolongs replicas a b := by
  rintro ⟨i, -, j, hj, digits, some, goesOn, -⟩
  have lengths := congrArg String.length goesOn
  -- the longer index has one digit, and at least one is used up by the shorter
  have one : (toString j).length ≤ 1 := (Nat.length_repr_le_iff (by omega)).mpr (by omega)
  have first : 0 < (toString i).length := Nat.length_repr_pos
  have more : digits.length ≠ 0 := fun none => some (String.length_eq_zero_iff.mp none)
  rw [String.length_append] at lengths
  omega

/-- No decimal begins with a zero but that of 0 itself. The induction takes off the last digit. -/
theorem eq_zero_of_head {n : Nat} (zero : (Nat.toDigits 10 n).head? = some '0') : n = 0 := by
  induction n using Nat.strongRecOn with
  | ind n ih =>
    rcases Nat.lt_or_ge n 10 with one | more
    · rw [Nat.toDigits_of_lt_base one, List.head?_cons, Option.some.injEq] at zero
      have digit : ∀ n < 10, Nat.digitChar n = '0' → n = 0 := by decide
      exact digit n one zero
    · have front : Nat.toDigits 10 (n / 10) ≠ [] := Nat.toDigits_ne_nil
      rw [Nat.toDigits_of_base_le (by decide) more, List.head?_append_of_ne_nil _ front] at zero
      have none := ih (n / 10) (by omega) zero
      omega

/-- The label with index 0 tells the node: no other label begins with a zero. -/
theorem eq_of_label_zero (same : label 0 a = label j b) : a = b := by
  have chars := congrArg String.toList same
  rw [label, label, String.toList_append, String.toList_append, Nat.toString_eq_repr,
    Nat.toString_eq_repr, Nat.toList_repr, Nat.toList_repr, Nat.toDigits_zero] at chars
  have zero : (Nat.toDigits 10 j).head? = some '0' := by
    rw [← List.head?_append_of_ne_nil _ Nat.toDigits_ne_nil, ← chars]
    rfl
  obtain rfl := eq_zero_of_head zero
  rw [Nat.toDigits_zero, List.append_cancel_left_eq] at chars
  exact String.toList_injective chars

/-- What goes on from an index begins with a digit, so an id that does not begin with one prolongs
no other. -/
theorem not_prolongs_of_head (word : ∀ c ∈ a.toList.head?, ¬ c.isDigit) :
    ¬ Prolongs replicas a b := by
  rintro ⟨i, -, j, -, digits, some, goesOn, rfl⟩
  cases chars : digits.toList with
  | nil => exact some (String.toList_injective chars)
  | cons c rest =>
    refine word c (by simp [chars]) ?_
    have mem : c ∈ (toString j).toList := by
      rw [← goesOn, String.toList_append, chars]
      simp
    rw [Nat.toString_eq_repr, Nat.toList_repr] at mem
    exact Nat.isDigit_of_mem_toDigits (by decide) (by decide) mem

/-- Different texts have different bytes. -/
theorem utf8_inj {s t : String} : utf8 s = utf8 t ↔ s = t := by
  constructor
  · intro same
    exact String.toByteArray_inj.mp (ByteArray.ext (Array.toList_inj.mp same))
  · exact congrArg utf8

/-- What is to be checked of a hash to see that it tells labels apart. -/
theorem injOn_labelBytes
    (apart : ∀ a ∈ ids, ∀ i < replicas, ∀ b ∈ ids, ∀ j < replicas,
      hash (utf8 (label i a)) = hash (utf8 (label j b)) →
        utf8 (label i a) = utf8 (label j b)) : Set.InjOn hash (labelBytes replicas ids) := by
  rintro _ ⟨a, ha, i, hi, rfl⟩ _ ⟨b, hb, j, hj, rfl⟩ meet
  exact apart a ha i hi b hb j hj meet

namespace Ring

/-- The points that a node owns. -/
def pointsOf (ring : Ring) (id : String) : List UInt32 :=
  ring.points.toList.filter fun p => ring.owners[p]? = some id

variable {ring : Ring} {id : String}

/-! ## Positions of labels -/

/-- **Nobody shares a position just if no node prolongs another.** A hash that tells labels apart
brings two nodes to one position only by one label, and a label of two nodes shows that one of them
prolongs the other (`exists_label_eq_iff`). -/
theorem uncontested_iff_unambiguous (faithful : Set.InjOn hash (labelBytes replicas ids)) :
    (∀ p, ¬ Contested hash replicas ids p) ↔ Unambiguous replicas ids := by
  constructor
  · intro calm a ha b hb prolongs
    obtain ⟨i, hi, j, hj, same⟩ := (exists_label_eq_iff prolongs.ne).mpr (.inl prolongs)
    exact calm _ ⟨a, ha, b, hb, prolongs.ne, ⟨i, hi, rfl⟩, ⟨j, hj, by rw [same]⟩⟩
  · rintro clear p ⟨a, ha, b, hb, ne, ⟨i, hi, rfl⟩, ⟨j, hj, meet⟩⟩
    have same := utf8_inj.mp (faithful ⟨a, ha, i, hi, rfl⟩ ⟨b, hb, j, hj, rfl⟩ meet.symm)
    rcases (exists_label_eq_iff ne).mp ⟨i, hi, j, hj, same⟩ with prolongs | prolongs
    · exact clear a ha b hb prolongs
    · exact clear b hb a ha prolongs

/-- Nobody else sits at the first position of a node. -/
theorem not_contested_label_zero (faithful : Set.InjOn hash (labelBytes replicas ids))
    (positive : 0 < replicas) (mem : id ∈ ids) :
    ¬ Contested hash replicas ids (hash (utf8 (label 0 id))) := by
  have alone : ∀ other ∈ ids, SitsAt hash replicas other (hash (utf8 (label 0 id))) →
      id = other := by
    rintro other there ⟨i, hi, meet⟩
    have same := faithful ⟨other, there, i, hi, rfl⟩ ⟨id, mem, 0, positive, rfl⟩ meet
    exact eq_of_label_zero (utf8_inj.mp same).symm
  rintro ⟨a, ha, b, hb, ne, sits, sits'⟩
  exact ne ((alone a ha sits).symm.trans (alone b hb sits'))

theorem length_positions : (ring.positions id).length = ring.replicas := by
  simp [positions]

/-- If the hash tells labels apart, the positions of one node are all different. -/
theorem nodup_positions (faithful : Set.InjOn ring.hash (labelBytes ring.replicas ids))
    (mem : id ∈ ids) : (ring.positions id).Nodup := by
  refine List.nodup_range.map_on fun i hi j hj meet => ?_
  rw [List.mem_range] at hi hj
  have same := utf8_inj.mp (faithful ⟨id, mem, i, hi, rfl⟩ ⟨id, mem, j, hj, rfl⟩ meet)
  exact label_inj_index.mp same

/-- All positions of all nodes are different just if none is contested. -/
theorem nodup_flatMap_positions_iff
    (faithful : Set.InjOn ring.hash (labelBytes ring.replicas ids)) (distinct : ids.Nodup) :
    (ids.flatMap ring.positions).Nodup ↔ ∀ p, ¬ Contested ring.hash ring.replicas ids p := by
  have symm : Std.Symm (Function.onFun List.Disjoint ring.positions) := ⟨fun _ _ => .symm⟩
  rw [List.nodup_flatMap]
  constructor
  · rintro ⟨-, apart⟩ p ⟨a, ha, b, hb, ne, sits, sits'⟩
    exact apart.forall ha hb ne (mem_positions.mpr sits) (mem_positions.mpr sits')
  · intro calm
    refine ⟨fun id mem => nodup_positions faithful mem, ?_⟩
    refine distinct.imp_of_mem fun {a b} ha hb ne p sits sits' => ?_
    exact calm p ⟨a, ha, b, hb, ne, mem_positions.mp sits, mem_positions.mp sits'⟩

/-! ## Points of nodes -/

/-- Points ascend, so no point is there twice. -/
theorem Records.nodup_points (records : ring.Records hash replicas ids) :
    ring.points.toList.Nodup :=
  records.ascending.imp UInt32.ne_of_lt

/-- The points are the positions of the nodes, each of them once. -/
theorem Records.points_perm (records : ring.Records hash replicas ids) :
    ring.points.toList.Perm (ids.flatMap ring.positions).dedup := by
  rw [List.perm_ext_iff_of_nodup records.nodup_points (List.nodup_dedup _)]
  intro p
  rw [Array.mem_toList_iff, records.points, List.mem_dedup, List.mem_flatMap]
  simp only [mem_positions, records.hash_eq, records.replicas_eq, Occupied]

/-- There are as many points as there are different positions. -/
theorem Records.pointCount_eq (records : ring.Records hash replicas ids) :
    ring.pointCount = (ids.flatMap ring.positions).dedup.length :=
  Array.length_toList.symm.trans records.points_perm.length_eq

/-- A node owns the positions at which it is the last one to have been added. -/
theorem Records.pointsOf_perm (records : ring.Records hash replicas ids) (id : String) :
    (ring.pointsOf id).Perm
      ((ids.flatMap ring.positions).dedup.filter fun p =>
        lastAt hash replicas ids p = some id) := by
  simp only [pointsOf, records.owners]
  exact records.points_perm.filter _

/-- Each node has all its positions to itself just if there are as many points as positions. -/
theorem Records.pointCount_eq_iff (records : ring.Records hash replicas ids)
    (faithful : Set.InjOn hash (labelBytes replicas ids)) (distinct : ids.Nodup) :
    ring.pointCount = replicas * ids.length ↔ ∀ p, ¬ Contested hash replicas ids p := by
  obtain ⟨rfl, rfl⟩ := And.intro records.hash_eq records.replicas_eq
  have total : (ids.flatMap ring.positions).length = ring.replicas * ids.length := by
    simp [List.length_flatMap, length_positions, Nat.mul_comm]
  rw [← nodup_flatMap_positions_iff faithful distinct, records.pointCount_eq, ← total]
  constructor
  · intro all
    exact List.dedup_eq_self.mp ((List.dedup_sublist _).eq_of_length all)
  · intro nodup
    rw [nodup.dedup]

/-- Where no position is contested, the points of a node are its positions. -/
theorem Records.length_pointsOf (records : ring.Records hash replicas ids)
    (faithful : Set.InjOn hash (labelBytes replicas ids)) (mem : id ∈ ids)
    (calm : ∀ p, ¬ Contested hash replicas ids p) : (ring.pointsOf id).length = replicas := by
  obtain ⟨rfl, rfl⟩ := And.intro records.hash_eq records.replicas_eq
  have perm : (ring.pointsOf id).Perm (ring.positions id) := by
    rw [pointsOf, List.perm_ext_iff_of_nodup (records.nodup_points.filter _)
      (nodup_positions faithful mem)]
    intro p
    rw [List.mem_filter, decide_eq_true_iff, Array.mem_toList_iff, records.points,
      records.owners, mem_positions]
    constructor
    · rintro ⟨-, last⟩
      exact (mem_of_lastAt last).2
    · intro sits
      exact ⟨⟨id, mem, sits⟩, lastAt_of_not_contested (calm p) mem sits⟩
  rw [perm.length_eq, length_positions]

/-- All nodes are among the owners: each of them owns its first position. -/
theorem Records.nodeIds_eq (records : ring.Records hash replicas ids)
    (faithful : Set.InjOn hash (labelBytes replicas ids)) (distinct : ids.Nodup) :
    ring.nodeIds = ids.mergeSort fun a b => a ≤ b := by
  have ascends : ring.nodeIds.Pairwise (· ≤ ·) := pairwise_nodeIds.imp Std.le_of_lt
  have perm : ring.nodeIds.Perm (ids.mergeSort fun a b => a ≤ b) := by
    rw [List.perm_ext_iff_of_nodup (pairwise_nodeIds.imp String.ne_of_lt)
      ((List.mergeSort_perm _ _).nodup_iff.mpr distinct)]
    intro id
    rw [mem_nodeIds, List.mem_mergeSort]
    constructor
    · rintro ⟨p, owned⟩
      exact (mem_of_lastAt ((records.owners p).symm.trans owned)).1
    · intro mem
      have sits : SitsAt hash replicas id (hash (utf8 (label 0 id))) := ⟨0, records.positive, rfl⟩
      have calm := not_contested_label_zero faithful records.positive mem
      -- its first position cannot be taken from a node, whatever is added later
      exact ⟨_, (records.owners _).trans (lastAt_of_not_contested calm mem sits)⟩
  have sorted :=
    @List.pairwise_mergeSort String (fun a b => decide (a ≤ b)) (by grind) (by grind) ids
  exact perm.eq_of_pairwise (fun _ _ _ _ => String.le_antisymm) ascends
    (sorted.imp of_decide_eq_true)

/-- **Nodes have their positions to themselves unless the hash or a label is ambiguous.** Let the
nodes be different and the hash tell the bytes of their labels apart.

* The owners are all the nodes.
* There are as many points as the nodes have positions just if none of them prolongs another.
* In that case each node owns all its positions, and the ring is the same in whatever order and
  batches the nodes are added.
* It is the case if there are up to ten positions a node, and if no node starts with a digit. -/
theorem own_points_unless_prolonged (hash : HashFn) (replicas : Nat) (positive : 0 < replicas)
    (ids : List String) (distinct : ids.Nodup)
    (faithful : Set.InjOn hash (labelBytes replicas ids)) :
    ∃ new, Ring.empty? replicas hash = .ok new ∧
      let ring := new.addNodes ids
      ring.nodeIds = (ids.mergeSort fun a b => a ≤ b) ∧
      (ring.pointCount = replicas * ids.length ↔ Unambiguous replicas ids) ∧
      (Unambiguous replicas ids →
        (∀ id ∈ ids, (ring.pointsOf id).length = replicas) ∧
        ∀ batches : List (List String), batches.flatten.Perm ids →
          (batches.foldl addNodes new).Matches ring ∧
            ∀ key, (batches.foldl addNodes new).lookup key = ring.lookup key) ∧
      (replicas ≤ 10 ∨ (∀ id ∈ ids, ∀ c ∈ id.toList.head?, ¬ c.isDigit) →
        Unambiguous replicas ids) := by
  refine ⟨_, dif_pos positive, ?_⟩
  intro ring
  have fresh := @records_empty hash replicas positive
  have records : ring.Records hash replicas ids := fresh.addNodes ids
  have alone := uncontested_iff_unambiguous faithful
  refine ⟨records.nodeIds_eq faithful distinct,
    (records.pointCount_eq_iff faithful distinct).trans alone, fun clear => ?_, ?_⟩
  · have calm := alone.mpr clear
    refine ⟨fun id mem => records.length_pointsOf faithful mem calm, fun batches perm => ?_⟩
    have records' := fresh.foldl_addNodes batches
    have matched := records.matches_of_uncontested records' (fun _ => perm.mem_iff.symm) calm
    exact ⟨matched.symm, matched.symm.lookup_eq⟩
  · rintro (few | words) a ha b -
    · exact not_prolongs_of_le_ten few
    · exact not_prolongs_of_head (words a ha)

/-- With twelve positions a node, `1x` and `2x` have labels of their own. -/
theorem own_points_unless_prolonged_digits :
    ∃ new, Ring.empty? 12 Checksum.lastFour = .ok new ∧
      let ring := new.addNodes ["2x", "1x"]
      ring.pointCount = 24 ∧ (ring.pointsOf "1x").length = 12 ∧
        ring.nodeIds = (["2x", "1x"].mergeSort fun a b => a ≤ b) ∧
        ([["1x"], ["2x"]].foldl addNodes new).Matches ring := by
  have faithful : Set.InjOn Checksum.lastFour (labelBytes 12 ["2x", "1x"]) :=
    injOn_labelBytes (by decide +kernel)
  have clear : Unambiguous 12 ["2x", "1x"] := by
    have lengths : ∀ a ∈ ["2x", "1x"], ∀ b ∈ ["2x", "1x"], ¬ b.length < a.length := by
      decide +kernel
    exact fun a ha b hb prolongs => lengths a ha b hb prolongs.length_lt
  obtain ⟨new, hnew, nodes, count, own, -⟩ :=
    own_points_unless_prolonged Checksum.lastFour 12 (by decide) ["2x", "1x"] (by decide) faithful
  obtain ⟨points, orders⟩ := own clear
  exact ⟨new, hnew, count.mpr clear, points "1x" (by decide), nodes,
    (orders [["1x"], ["2x"]] (.swap ..)).1⟩

/-- A hash that tells all labels apart does not keep `x` and `1x` apart with twelve positions each:
`11` and `x` write the label that `1` and `1x` write. One point is missing, it is missing from the
node that was added first, and so the order of the two decides who owns the key that falls on it. -/
theorem prolonged_node_loses_point :
    ["x", "1x"].Nodup ∧ Set.InjOn Checksum.lastFour (labelBytes 12 ["x", "1x"]) ∧
    ∃ new, Ring.empty? 12 Checksum.lastFour = .ok new ∧
      (new.addNodes ["x", "1x"]).pointCount = 23 ∧
      ((new.addNodes ["x", "1x"]).pointsOf "x").length = 11 ∧
      (new.addNodes ["x", "1x"]).lookup "11x" = some "1x" ∧
      (new.addNodes ["1x", "x"]).lookup "11x" = some "x" := by
  have fresh := @records_empty Checksum.lastFour 12 (by decide)
  have records := fresh.addNodes ["x", "1x"]
  have records' := fresh.addNodes ["1x", "x"]
  refine ⟨by decide, injOn_labelBytes (by decide +kernel), _, rfl, ?_, ?_, ?_, ?_⟩
  · rw [records.pointCount_eq]
    decide +kernel
  · rw [(records.pointsOf_perm "x").length_eq]
    decide +kernel
  · rw [records.lookup (.here ⟨"x", by decide, by decide +kernel⟩)]
    decide +kernel
  · rw [records'.lookup (.here ⟨"x", by decide, by decide +kernel⟩)]
    decide +kernel

end Ring

end PeerCache
