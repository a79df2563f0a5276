import PeerCache.Checksum.Elementary
import PeerCache.Proofs.Ring.Remapping
import PeerCache.Ring.Shared

/-!
# Who owns what after nodes have left

A ring gives no node up. Where nodes leave, a new ring is made of those that stay, in the order in
which they were, and published in place of the old one. The nodes that stay keep their positions,
so a key whose owner stays has its nearest position still (`Nearest.restrict`), and its owner is
still the last one there (`lastAt_filter`), although nodes that hid behind those that left come
forward elsewhere. Only keys of nodes that left change hands (`departure_remaps`).
-/

namespace PeerCache.Ring

variable {ring before after : Ring} {hash : HashFn} {replicas : Nat} {ids : List String}
  {id key : String} {p : UInt32}

/-! ## The nodes that stay -/

theorem Occupied.of_filter {stays : String → Bool}
    (occupied : Occupied hash replicas (ids.filter stays) p) : Occupied hash replicas ids p := by
  obtain ⟨id, mem, sits⟩ := occupied
  exact ⟨id, (List.mem_filter.mp mem).1, sits⟩

/-- The last node at a position is the last one of those that stay, if it stays. -/
theorem lastAt_filter {stays : String → Bool} (last : lastAt hash replicas ids p = some id)
    (kept : stays id) : lastAt hash replicas (ids.filter stays) p = some id := by
  obtain ⟨earlier, sitting⟩ := List.getLast?_eq_some_iff.mp last
  rw [lastAt, List.filter_filter]
  simp only [Bool.and_comm]
  rw [← List.filter_filter, sitting, List.filter_append, List.filter_cons_of_pos kept,
    List.filter_nil, List.getLast?_concat]

/-- A key stays with its owner as long as the owner stays. -/
theorem Records.lookup_of_stays {stays : String → Bool} (records : before.Records hash replicas ids)
    (rebuilt : after.Records hash replicas (ids.filter stays))
    (found : before.lookup key = some id) (kept : stays id) : after.lookup key = some id := by
  have ne : ids ≠ [] := List.ne_nil_of_mem (records.mem_of_lookup found)
  obtain ⟨p, nearest⟩ := exists_nearest records.positive ne (hash (utf8 key))
  rw [records.lookup nearest] at found
  have last := lastAt_filter found kept
  -- the owner holds the position for those that stay
  obtain ⟨mem, sits⟩ := mem_of_lastAt last
  rw [rebuilt.lookup (nearest.restrict (fun _ => Occupied.of_filter) ⟨id, mem, sits⟩), last]

/-- A key that changes hands had an owner, who does not stay. -/
theorem Records.exists_departed {stays : String → Bool} (records : before.Records hash replicas ids)
    (rebuilt : after.Records hash replicas (ids.filter stays))
    (moved : after.lookup key ≠ before.lookup key) :
    ∃ id, before.lookup key = some id ∧ stays id = false := by
  cases found : before.lookup key with
  | none =>
    -- where there was no node, none is left
    rw [found, Ne, rebuilt.lookup_eq_none_iff] at moved
    rw [records.lookup_eq_none_iff.mp found] at moved
    exact absurd rfl moved
  | some id =>
    refine ⟨id, rfl, Bool.not_eq_true _ ▸ fun kept => moved ?_⟩
    rw [found, records.lookup_of_stays rebuilt found kept]

/-! ## A ring made of them -/

/-- **Only the keys of nodes that left change hands.** Whatever the hash, let nodes be added to a
new ring, and those of them that have not departed to another one, in the same order; how they are
divided into additions does not matter.

* A key whose owner has not departed keeps it.
* So each of the moves from the first ring to the second leads away from a node that has departed;
  it leads to one that has not, if to any.
* Where the second ring is published in place of the first, readers find the same owners. -/
theorem departure_remaps (hash : HashFn) (replicas : Nat) (positive : 0 < replicas)
    (departed : Set String) [DecidablePred (· ∈ departed)] :
    ∃ new, Ring.empty? replicas hash = .ok new ∧ ∀ batches rebuilt : List (List String),
      rebuilt.flatten = (batches.flatten.filter fun id => id ∉ departed) →
      let before := batches.foldl addNodes new
      let after := rebuilt.foldl addNodes new
      (∀ key id, before.lookup key = some id → id ∉ departed → after.lookup key = some id) ∧
      (∀ keys, ∀ m ∈ migrations before after keys,
        (∃ id ∈ departed, m.before = some id) ∧ ∀ id ∈ m.after, id ∉ departed) ∧
      ∀ shared : SharedRing, shared.writerPoisoned = false → shared.snapshot.ring = before →
        (shared.replace after).answer = .ok () ∧
          ∀ key id, shared.lookup key = some id → id ∉ departed →
            (shared.replace after).state.lookup key = some id := by
  refine ⟨_, dif_pos positive, ?_⟩
  intro batches rebuilt remaining before after
  have records : before.Records hash replicas batches.flatten :=
    (records_empty positive).foldl_addNodes batches
  have records' : after.Records hash replicas
      (batches.flatten.filter fun id => id ∉ departed) := by
    rw [← remaining]
    exact (records_empty positive).foldl_addNodes rebuilt
  have keeps : ∀ key id, before.lookup key = some id → id ∉ departed →
      after.lookup key = some id :=
    fun key id found kept => records.lookup_of_stays records' found (decide_eq_true kept)
  refine ⟨keeps, fun keys m mem => ?_, fun shared writable current => ?_⟩
  · obtain ⟨-, moved, hbefore, hafter⟩ := mem_migrations.mp mem
    obtain ⟨id, found, gone⟩ := records.exists_departed records' moved
    refine ⟨⟨id, not_not.mp (of_decide_eq_false gone), hbefore.trans found⟩, fun other there => ?_⟩
    have kept := records'.mem_of_lookup (hafter.symm.trans there)
    exact of_decide_eq_true (List.mem_filter.mp kept).2
  · rw [SharedRing.replace, writable]
    refine ⟨rfl, fun key id found kept => keeps key id ?_ kept⟩
    rw [← found, SharedRing.lookup, current]

/-- Node `12` leaves from between two others and gives position 12 back to node `2`. The key at
position 7 stays with node `7`, and only the key at position 12 moves. -/
theorem departure_remaps_from_between :
    ∃ new, Ring.empty? 2 Checksum.decimalValue = .ok new ∧
      let before := [["2"], ["12", "7"]].foldl addNodes new
      let after := [["2", "7"]].foldl addNodes new
      before.lookup "7" = some "7" ∧ after.lookup "7" = some "7" ∧
        ∀ m ∈ migrations before after ["7", "12"], m.before = some "12" := by
  obtain ⟨new, hnew, remaps⟩ :=
    departure_remaps Checksum.decimalValue 2 (by decide) {id | id = "12"}
  obtain ⟨keeps, moves, -⟩ := remaps [["2"], ["12", "7"]] [["2", "7"]] (by decide)
  have nearest : Nearest (Occupied Checksum.decimalValue 2 ["2", "12", "7"])
      (Checksum.decimalValue (utf8 "7")) 7 :=
    ⟨⟨"7", by decide +kernel⟩, fun q _ => Nat.zero_le _⟩
  have found : ([["2"], ["12", "7"]].foldl addNodes new).lookup "7" = some "7" := by
    obtain rfl := Except.ok.inj hnew
    have fresh := @records_empty Checksum.decimalValue 2 (by decide)
    exact ((fresh.foldl_addNodes [["2"], ["12", "7"]]).lookup nearest).trans (by decide +kernel)
  refine ⟨new, hnew, found, keeps "7" "7" found (by decide), fun m mem => ?_⟩
  obtain ⟨⟨id, rfl, hbefore⟩, -⟩ := moves _ m mem
  exact hbefore

end PeerCache.Ring
