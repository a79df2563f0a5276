import PeerCache.Proofs.Cache.Consistency

/-!
# Going through a cache

Both ways of going through a recency list follow its links from the head and stop where there is no
further one; neither counts its steps. `Iter.nexts` calls a walk so many times, past its end too,
and `LinksUp` says which slots the links lead through and which pairs lie there. After any run of a
cache a walk answers just these pairs and then nothing for ever, at every step it says exactly how
many it still owes, and draining the list takes out the same pairs and leaves a new list
(`traversals_exact`).
-/

namespace PeerCache

variable {κ ν : Type}

namespace RecencyList

open Cell

/-- The answers of so many calls of a walk, and where it stands then. -/
def Iter.nexts : Nat → Iter κ ν → Except SlotFault (List (Option (κ × ν)) × Iter κ ν)
  | 0, walk => .ok ([], walk)
  | n + 1, walk => do
    let (answer, walk) ← walk.next
    let (answers, walk) ← nexts n walk
    return (answer :: answers, walk)

/-- The pair in a slot. -/
def pairAt? (list : RecencyList κ ν) (slot : Nat) : Option (κ × ν) :=
  list.slots[slot]?.join.map fun n => (n.key, n.value)

/-- From the head the links lead along a path, once through every slot that holds a pair and through
no other one; these are the pairs in the slots of the path. -/
structure LinksUp (list : RecencyList κ ν) (path : List Nat) (pairs : List (κ × ν)) : Prop where
  walk : ∀ steps, list.walk steps = path[steps]?
  nodup : path.Nodup
  mem : ∀ slot, slot ∈ path ↔ list.IsOccupied slot
  held : path.map list.pairAt? = pairs.map some
  length : pairs.length = list.size

variable {list : RecencyList κ ν} {cells : List (Cell κ ν)} {newer : Option Nat} {walk : Iter κ ν}

/-- The hint for how many pairs are still to come is exact. -/
theorem Iter.size?_eq (walk : Iter κ ν) : walk.size? = some walk.remaining :=
  if_pos rfl

/-- A walk that has come to its end answers nothing, and stays there. -/
theorem Iter.nexts_of_end (ended : walk.cursor = none) (n : Nat) :
    walk.nexts n = .ok (List.replicate n none, walk) := by
  have next : walk.next = .ok (none, walk) := by rw [Iter.next, ended]
  induction n with
  | zero => rfl
  | succ n ih => exact (bind_ok next).trans (bind_ok ih)

/-- A walk along a chain answers its pairs in order, and nothing behind the last one. -/
theorem nexts_chain (n : Nat) (chain : Chain list.slots newer cells none) :
    Iter.nexts n ⟨list, front cells, cells.length⟩ =
      .ok (((cells.map Cell.pair).take n).map some ++ List.replicate (n - cells.length) none,
        ⟨list, front (cells.drop n), cells.length - n⟩) := by
  induction n generalizing cells newer with
  | zero => simp [Iter.nexts]
  | succ n ih =>
    cases cells with
    | nil =>
      have ended : Iter.cursor ⟨list, none, 0⟩ = none := rfl
      simpa using Iter.nexts_of_end ended (n + 1)
    | cons cell cells =>
      rw [List.map_cons, List.take_succ_cons, List.drop_succ_cons, List.length_cons,
        Nat.add_sub_add_right, Nat.add_sub_add_right]
      exact (bind_ok (next_chain chain)).trans (bind_ok (ih chain.2))

/-- The slots of the cells hold their pairs. -/
theorem Represents.map_pairAt? (h : list.Represents cells) :
    (Cell.slots cells).map list.pairAt? = (cells.map Cell.pair).map some := by
  rw [Cell.slots, List.map_map, List.map_map]
  refine List.map_congr_left fun cell mem => ?_
  obtain ⟨xs, ys, rfl⟩ := List.append_of_mem mem
  rw [Function.comp_apply, pairAt?, h.threaded.chain.entry]
  rfl

/-- The cells that a list stands for are the pairs in its slots, linked up from head to tail. -/
theorem Represents.linksUp (h : list.Represents cells) :
    list.LinksUp (Cell.slots cells) (cells.map Cell.pair) where
  walk := h.walk_eq
  nodup := h.threaded.distinct
  mem slot := h.mem_slots_iff
  held := h.map_pairAt?
  length := by rw [List.length_map, h.accounted.size, length_slots]

/-- **A walk answers every pair once and says at each step how many are left.** -/
theorem Represents.nexts (h : list.Represents cells) (n : Nat) :
    ∃ walk, list.iter.nexts n =
        .ok (((cells.map Cell.pair).take n).map some ++ List.replicate (n - list.size) none, walk) ∧
      walk.remaining = list.size - min n list.size := by
  have size : list.size = cells.length := h.accounted.size.trans length_slots
  have left : cells.length - n = list.size - min n list.size := by omega
  refine ⟨⟨list, front (cells.drop n), cells.length - n⟩, ?_, left⟩
  rw [iter, h.threaded.head, size]
  exact nexts_chain n h.threaded.chain

end RecencyList

namespace Cache

variable [BEq κ] [Hashable κ] {cache : Cache κ ν} {cells : List (Cell κ ν)}

/-- A cache that has been emptied is a new one, but for its bound and its hook. -/
theorem Holds.state_clear [EquivBEq κ] [LawfulHashable κ] (h : cache.Holds cells) :
    (cache.apply .clear).state =
      (empty cache.maxEntries).withHook (cache.apply .clear).state.hook := by
  have cleared : (cache.apply .clear).state =
      (notifyAll { cache with list := {}, index := ∅ } (cells.map Cell.pair)).state := by
    rw [← h.clear.1]
    rfl
  -- telling the hook changes nothing but its count
  have told : (notifyAll { cache with list := {}, index := ∅ } (cells.map Cell.pair)).state = _ :=
    state_notifyAll { cache with list := {}, index := ∅ } cache.hook (cells.map Cell.pair)
  rw [cleared, told]
  rfl

variable [EquivBEq κ] [LawfulHashable κ]

/-- **Going through a cache is exact.** A new cache of any bound is used in any way, with hooks that
fail in any of their calls. Then for the pairs in the slots along the links:

* a walk answers each of them once, front to back, and then nothing for ever, however often it is
  called; it never reaches for a slot that holds no pair, nor counts below zero;
* after any number of calls its two bounds are the number of pairs not answered yet;
* to drain the list takes out the same pairs in the same order, without reaching for a slot that has
  been vacated, and leaves a new list; so a cache that is emptied is a new one with the same hook.
-/
theorem traversals_exact (maxEntries : Nat) (ops : List (CacheOp κ ν)) :
    let cache := (empty maxEntries : Cache κ ν).after ops
    ∃ path pairs, cache.list.LinksUp path pairs ∧
      (∀ n, ∃ walk, cache.iter.nexts n =
          .ok ((pairs.take n).map some ++ List.replicate (n - cache.size) none, walk) ∧
        walk.sizeHint = (cache.size - min n cache.size, some (cache.size - min n cache.size)) ∧
        walk.size? = some (cache.size - min n cache.size)) ∧
      cache.list.drain = .ok ({}, pairs) ∧
      (cache.apply .clear).state =
        (empty maxEntries).withHook (cache.apply .clear).state.hook := by
  intro cache
  obtain ⟨cells, holds⟩ := exists_holds_after maxEntries ops
  refine ⟨_, _, holds.list.linksUp, fun n => ?_, holds.list.drain, ?_⟩
  · obtain ⟨walk, run, remaining⟩ := holds.list.nexts n
    refine ⟨walk, run, ?_, walk.size?_eq.trans (congrArg some remaining)⟩
    rw [RecencyList.Iter.sizeHint, remaining]
    rfl
  · have cleared := holds.state_clear
    rw [maxEntries_after] at cleared
    exact cleared

/-- The last pair that is added takes the place of one that was removed from between the others. The
third call of a walk answers nothing. -/
theorem traversals_exact_past_end :
    let ops : List (CacheOp Nat String) :=
      [.add 1 "a", .add 2 "b", .add 3 "c", .remove 2, .removeOldest, .add 4 "d"]
    let cache := (empty 3).after ops
    (cache.iter.nexts 3).map Prod.fst = .ok [some (4, "d"), some (3, "c"), none] ∧
      cache.list.drain = .ok ({}, [(4, "d"), (3, "c")]) := by
  intro ops cache
  have calm : ∀ op ∈ ops, op.Calm := by simp [ops, CacheOp.Calm]
  obtain ⟨size, -, toList⟩ := (mirrors_after 3 calm).sight
  obtain ⟨path, pairs, -, walks, drained, -⟩ := traversals_exact 3 ops
  obtain ⟨cells, holds⟩ := exists_holds_after 3 ops
  have same : pairs = [(4, "d"), (3, "c")] := by
    have drained' := holds.list.drain
    rw [drained, Except.ok.injEq, Prod.mk.injEq] at drained'
    rw [holds.toList, Except.ok.injEq] at toList
    rw [drained'.2, toList]
    rfl
  obtain ⟨walk, run, -⟩ := walks 3
  refine ⟨?_, drained.trans (by rw [same])⟩
  refine (congrArg (Except.map Prod.fst) run).trans ?_
  rw [same, size]
  rfl

end Cache

end PeerCache
