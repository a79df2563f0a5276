import PeerCache.Proofs.Cache.FailingHook

/-!
# Slots, links and index of a cache agree

Here the representation of a cache is looked at from outside, slot by slot: where the links lead
from the head on (`RecencyList.walk`), which slots are vacant, and where the index points.
`RecencyList.WellLinked` and `Cache.Consistent` say that all of this agrees, without the list of
cells that the operations are specified by. A list that stands for some cells is well linked, since
its walk goes through the slots of the cells (`Represents.walk_eq`).

A cache that is used in any way, with hooks that fail in any of their calls, is consistent whenever
it can be looked at, and no operation on it finds a slot other than it should be
(`consistent_after`).
-/

namespace PeerCache

open RecencyList

variable {κ ν : Type}

namespace RecencyList

open Cell

/-! ## Links -/

/-- The slot holds a pair. -/
def IsOccupied (list : RecencyList κ ν) (slot : Nat) : Prop :=
  ∃ n : LinkedEntry κ ν, list.slots[slot]? = some (some n)

/-- The slot that the pair in a slot has behind it. -/
def older? (list : RecencyList κ ν) (slot : Nat) : Option Nat :=
  list.slots[slot]?.join.bind (·.older)

/-- The slot that the pair in a slot has before it. -/
def newer? (list : RecencyList κ ν) (slot : Nat) : Option Nat :=
  list.slots[slot]?.join.bind (·.newer)

/-- Where one stands after some steps from the head toward the back. -/
def walk (list : RecencyList κ ν) : Nat → Option Nat
  | 0 => list.head
  | steps + 1 => (list.walk steps).bind list.older?

/-- Links, vacant slots and size of a list agree. -/
structure WellLinked (list : RecencyList κ ν) : Prop where
  /-- From the head the links lead once through every slot that holds a pair, through no other one,
  and end at the tail. -/
  path : ∃ path : List Nat, (∀ steps, list.walk steps = path[steps]?) ∧ path.Nodup ∧
    (∀ slot, slot ∈ path ↔ list.IsOccupied slot) ∧ path.getLast? = list.tail
  /-- The links toward the front are those toward the back, reversed. -/
  reversed : ∀ a b, list.older? a = some b ↔ list.newer? b = some a
  head_eq_none : list.head = none ↔ list.size = 0
  tail_eq_none : list.tail = none ↔ list.size = 0
  free_nodup : list.free.Nodup
  /-- The stack has the vacant slots and no others. -/
  vacant : ∀ slot, slot ∈ list.free ↔ list.slots[slot]? = some none
  size : list.size = occupied list.slots

variable {list : RecencyList κ ν} {cell : Cell κ ν} {cells xs ys : List (Cell κ ν)}
  {slot : Nat} {n : LinkedEntry κ ν}

/-- The same as the occupancy that slots are accounted for by. -/
theorem isOccupied_iff : list.IsOccupied slot ↔ occupancy list.slots slot = some true := by
  simp [IsOccupied, occupancy, Option.isSome_iff_exists]

theorem vacant_iff : list.slots[slot]? = some none ↔ occupancy list.slots slot = some false := by
  simp [occupancy]

/-- The link toward the back is that of the slot's entry. -/
theorem older?_of_entry (h : list.slots[slot]? = some (some n)) : list.older? slot = n.older := by
  rw [older?, h]
  rfl

theorem newer?_of_entry (h : list.slots[slot]? = some (some n)) : list.newer? slot = n.newer := by
  rw [newer?, h]
  rfl

/-- Only a pair has another one behind it: a vacant slot has no links. -/
theorem isOccupied_of_older? {next : Nat} (h : list.older? slot = some next) :
    list.IsOccupied slot := by
  obtain ⟨n, held, -⟩ := Option.bind_eq_some_iff.mp h
  exact ⟨n, Option.join_eq_some_iff.mp held⟩

theorem isOccupied_of_newer? {next : Nat} (h : list.newer? slot = some next) :
    list.IsOccupied slot := by
  obtain ⟨n, held, -⟩ := Option.bind_eq_some_iff.mp h
  exact ⟨n, Option.join_eq_some_iff.mp held⟩

/-! ## Counting slots -/

/-- As many slots hold pairs as there are numbers of such slots. -/
theorem occupied_eq_countP (slots : Array (Option (LinkedEntry κ ν))) :
    occupied slots =
      (List.range slots.size).countP fun slot => occupancy slots slot = some true := by
  have entries : slots.toList = (List.range slots.size).map fun slot => slots[slot]?.join := by
    refine List.ext_getElem (by simp) fun slot inside _ => ?_
    simp [Array.getElem?_eq_getElem (Array.length_toList ▸ inside)]
  rw [occupied, ← Array.countP_toList, entries, List.countP_map]
  refine List.countP_congr fun slot inside => ?_
  have held := Array.getElem?_eq_getElem (List.mem_range.mp inside)
  simp [occupancy, held]

/-- The slots that hold pairs, listed once each, are as many as are counted. -/
theorem occupied_eq_length {held : List Nat} (accounted : Accounted list held)
    (distinct : held.Nodup) : occupied list.slots = held.length := by
  rw [occupied_eq_countP, List.countP_eq_length_filter]
  refine List.Perm.length_eq ?_
  rw [List.perm_ext_iff_of_nodup (List.nodup_range.filter _) distinct]
  intro slot
  rw [List.mem_filter, decide_eq_true_iff, accounted.occupied, List.mem_range]
  exact and_iff_right_of_imp lt_size_of_occupancy

/-! ## The list that stands for some cells -/

/-- Behind a cell comes the first one of the rest. -/
theorem Represents.older?_eq (h : list.Represents (xs ++ cell :: ys)) :
    list.older? cell.slot = front ys :=
  older?_of_entry h.threaded.chain.entry

/-- Before it comes the last one of those in front. -/
theorem Represents.newer?_eq (h : list.Represents (xs ++ cell :: ys)) :
    list.newer? cell.slot = rear xs :=
  newer?_of_entry h.threaded.chain.entry

/-- The slots of the cells are those that hold pairs. -/
theorem Represents.mem_slots_iff (h : list.Represents cells) :
    slot ∈ Cell.slots cells ↔ list.IsOccupied slot :=
  (h.accounted.occupied slot).trans isOccupied_iff.symm

/-- The list is cut at the cell in a slot that holds a pair. -/
theorem Represents.exists_cell (h : list.Represents cells) (held : list.IsOccupied slot) :
    ∃ xs cell ys, cells = xs ++ cell :: ys ∧ cell.slot = slot := by
  obtain ⟨cell, mem, is⟩ := List.mem_map.mp (h.mem_slots_iff.mpr held)
  obtain ⟨xs, ys, cut⟩ := List.append_of_mem mem
  exact ⟨xs, cell, ys, cut, is⟩

/-- The walk goes through the slots of the cells. -/
theorem Represents.walk_eq (h : list.Represents cells) (steps : Nat) :
    list.walk steps = (Cell.slots cells)[steps]? := by
  induction steps with
  | zero => rw [walk, h.threaded.head, front, Cell.slots, List.getElem?_map, List.head?_eq_getElem?]
  | succ steps ih =>
    rw [walk, ih]
    rcases Nat.lt_or_ge steps cells.length with inside | past
    · -- one step leads from a cell to the one behind it
      have cut : cells.take steps ++ cells[steps] :: cells.drop (steps + 1) = cells := by simp
      have next := (cut ▸ h : list.Represents (_ ++ cells[steps] :: _)).older?_eq
      rw [Cell.slots, List.getElem?_map, List.getElem?_map, List.getElem?_eq_getElem inside,
        Option.map_some, Option.bind_some, next, front, List.head?_drop]
    · have beyond : (Cell.slots cells).length ≤ steps := by rwa [length_slots]
      rw [List.getElem?_eq_none beyond, List.getElem?_eq_none (Nat.le_succ_of_le beyond),
        Option.bind_none]

/-- Links in one direction are those in the other, reversed: two cells that one of them joins stand
side by side, so the other one joins them too. -/
theorem Represents.older?_eq_iff (h : list.Represents cells) (a b : Nat) :
    list.older? a = some b ↔ list.newer? b = some a := by
  constructor
  · intro next
    obtain ⟨xs, cell, ys, rfl, rfl⟩ := h.exists_cell (isOccupied_of_older? next)
    rw [h.older?_eq] at next
    cases ys with
    | nil => cases next
    | cons behind ys =>
      rw [front_cons, Option.some.injEq] at next
      have h' : list.Represents ((xs ++ [cell]) ++ behind :: ys) := by simpa using h
      rw [← next, h'.newer?_eq]
      simp
  · intro next
    obtain ⟨xs, cell, ys, rfl, rfl⟩ := h.exists_cell (isOccupied_of_newer? next)
    rw [h.newer?_eq] at next
    rcases List.eq_nil_or_concat xs with rfl | ⟨xs, before, rfl⟩
    · cases next
    · rw [List.concat_eq_append] at h next
      rw [rear_append, rear_cons, rear_nil, Option.none_or, Option.some_or,
        Option.some.injEq] at next
      have h' : list.Represents (xs ++ before :: cell :: ys) := by simpa using h
      rw [← next, h'.older?_eq, front_cons]

/-- **A list that stands for some cells is well linked.** -/
theorem Represents.wellLinked (h : list.Represents cells) : list.WellLinked := by
  have size : list.size = cells.length := h.accounted.size.trans length_slots
  constructor
  case path =>
    refine ⟨Cell.slots cells, h.walk_eq, h.threaded.distinct, fun slot => h.mem_slots_iff, ?_⟩
    rw [h.threaded.tail, rear, Cell.slots, List.getLast?_map]
  case reversed => exact h.older?_eq_iff
  case head_eq_none => rw [h.threaded.head, size, front]; simp
  case tail_eq_none => rw [h.threaded.tail, size, rear]; simp
  case free_nodup => exact h.accounted.free_nodup
  case vacant => exact fun slot => (h.accounted.vacant slot).trans vacant_iff.symm
  case size => rw [h.accounted.size, occupied_eq_length h.accounted h.threaded.distinct]

end RecencyList

namespace Cache

variable [BEq κ] [Hashable κ] {cache : Cache κ ν} {cells : List (Cell κ ν)}

/-! ## The cache -/

/-- The list is well linked, and the index leads from each key to the slot that holds its pair, and
nowhere else. -/
structure Consistent (cache : Cache κ ν) : Prop where
  list : cache.list.WellLinked
  index : ∀ key slot, cache.index[key]? = some slot ↔
    ∃ n : LinkedEntry κ ν, cache.list.slots[slot]? = some (some n) ∧ (n.key == key) = true

/-- A cache that holds some cells is consistent. The index leads to the slot of a cell by its key,
and in that slot is the pair of the cell. -/
theorem Holds.consistent (h : cache.Holds cells) : cache.Consistent where
  list := h.list.wellLinked
  index key slot := by
    rw [h.index]
    constructor
    · rintro ⟨cell, mem, rfl, same⟩
      obtain ⟨xs, ys, rfl⟩ := List.append_of_mem mem
      exact ⟨_, h.list.threaded.chain.entry, same⟩
    · rintro ⟨n, held, same⟩
      obtain ⟨xs, cell, ys, rfl, rfl⟩ := h.list.exists_cell ⟨n, held⟩
      have entry := h.list.threaded.chain.entry
      rw [held, Option.some.injEq, Option.some.injEq] at entry
      subst entry
      exact ⟨cell, by simp, rfl, same⟩

variable [EquivBEq κ] [LawfulHashable κ]

/-- A cache holds some cells after any run, whatever its hooks do. -/
theorem exists_holds_after (maxEntries : Nat) (ops : List (CacheOp κ ν)) :
    ∃ cells, ((empty maxEntries).after ops).Holds cells := by
  -- beside it stands a cache without hooks, which has the same list and the same index
  obtain ⟨silent, -, store, -, mirrors⟩ := (@abreast_empty κ ν _ _ _ _ maxEntries).after ops
  obtain ⟨cells, holds, -⟩ := mirrors.pairs
  rw [silent] at holds
  exact ⟨cells, holds.list, holds.index⟩

/-- **Slots, links and index agree after any use.** A new cache of any bound is used in any way,
with hooks that fail in any of their calls, and is used on after every fault.

* The links lead from the head once through every slot that holds a pair and end at the tail; those
  toward the front are the same reversed; head and tail are missing just if nothing is held.
* The stack has every vacant slot once and nothing else, and the size is the number of the others.
* The index leads from each key to the slot with the pair of that key, and nowhere else.
* Whatever is done next does not reach for a slot that is not there or is vacant, and does not count
  below zero: if it ends in a fault, then in one that the hook has raised. -/
theorem consistent_after (maxEntries : Nat) (ops : List (CacheOp κ ν)) :
    ((empty maxEntries : Cache κ ν).after ops).Consistent ∧
      ∀ op fault, (((empty maxEntries).after ops).apply op).answer = .error fault →
        ∃ text, fault = .raised text := by
  obtain ⟨cells, holds⟩ := exists_holds_after maxEntries ops
  refine ⟨holds.consistent, fun op fault failed => ?_⟩
  have contained := ((abreast_empty maxEntries).after ops).contained op
  obtain ⟨_, text, -, raised, -⟩ := (contained.faults fault).mp failed
  exact ⟨text, raised⟩

/-- With room for one pair and a hook that fails whenever it is called, the third pair lies in the
slot of the first one, which was given up for the second. The index leads there for the third key
and for no other, and the slot of the second one is vacant. -/
theorem consistent_after_reused_slot :
    let cache := (empty 1 : Cache Nat String).after
      [.setHook "first" fun _ _ _ => some "no", .add 1 "a", .add 2 "b", .add 3 "c"]
    cache.index[3]? = some 0 ∧ cache.index[1]? ≠ some 0 ∧ 1 ∈ cache.list.free ∧
      (∃ n : LinkedEntry Nat String, cache.list.slots[0]? = some (some n) ∧ (n.key == 3) = true) ∧
      ∀ fault, cache.removeOldest.answer = .error fault → ∃ text, fault = .raised text := by
  intro cache
  obtain ⟨consistent, faults⟩ := consistent_after (κ := Nat) (ν := String) 1
    [.setHook "first" fun _ _ _ => some "no", .add 1 "a", .add 2 "b", .add 3 "c"]
  have third : cache.index[3]? = some 0 ∧ cache.list.slots[1]? = some none := by
    simp [cache, Cache.after, Cache.apply, empty, setHook, finish, CacheStep.mapAnswer, add, relink,
      shrink, Cache.removeOldest, notify, size, pushFront, store, joinFront, back, RecencyList.node,
      RecencyList.remove, unlink, RecencyList.modify, bind, Except.bind, pure, Except.pure]
  obtain ⟨n, held, same⟩ := (consistent.index 3 0).mp third.1
  refine ⟨third.1, fun first => ?_, (consistent.list.vacant 1).mpr third.2, ⟨n, held, same⟩,
    fun fault failed => faults .removeOldest fault ?_⟩
  · obtain ⟨n', held', same'⟩ := (consistent.index 1 0).mp first
    obtain rfl : n = n' := by simpa using held.symm.trans held'
    rw [beq_iff_eq] at same same'
    omega
  · exact congrArg (Except.map CacheAnswer.entry) failed

end Cache

end PeerCache
