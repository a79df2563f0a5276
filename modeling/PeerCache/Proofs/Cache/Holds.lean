import PeerCache.Cache.Basic
import PeerCache.Proofs.Cache.Operations

/-!
# What a cache holds

`Holds cache cells` ties the index to the recency list: the list stands for the cells, and the index
leads from a key to the slot of the cell with that key and nowhere else. Keys are compared with
`==`, which need not be equality. Each operation of a cache has one theorem that says what it is on
a cache which holds some cells: which pair it tells the hook of, if any, and what is held then.
-/

namespace PeerCache

open RecencyList

variable {κ ν : Type} [BEq κ]

/-! ## Cells by key -/

/-- Some cell has that key and lies in that slot. -/
def Cell.Keeps (cells : List (Cell κ ν)) (key : κ) (slot : Nat) : Prop :=
  ∃ cell ∈ cells, cell.slot = slot ∧ (cell.key == key) = true

namespace Cell

variable {cell : Cell κ ν} {cells xs ys : List (Cell κ ν)} {key : κ} {slot : Nat}

/-- A key is kept in the first cell, or in one of the rest. -/
theorem keeps_cons : Keeps (cell :: cells) key slot ↔
    (cell.slot = slot ∧ (cell.key == key) = true) ∨ Keeps cells key slot := by
  simp [Keeps]

theorem keeps_append : Keeps (xs ++ ys) key slot ↔ Keeps xs key slot ∨ Keeps ys key slot := by
  simp [Keeps, or_and_right, exists_or]

/-- It does not matter at which place a cell is. -/
theorem keeps_middle : Keeps (xs ++ cell :: ys) key slot ↔ Keeps (cell :: (xs ++ ys)) key slot := by
  rw [keeps_append, keeps_cons, keeps_cons, keeps_append, or_left_comm]

end Cell

/-! ## The invariant -/

namespace Cache

variable [Hashable κ] {cache : Cache κ ν} {cell : Cell κ ν} {cells xs ys : List (Cell κ ν)}
  {key : κ} {value : ν} {slot : Nat}

/-- The cache holds the cells, most recently used first, and finds each by its key. -/
structure Holds (cache : Cache κ ν) (cells : List (Cell κ ν)) : Prop where
  list : cache.list.Represents cells
  index : ∀ key slot, cache.index[key]? = some slot ↔ Cell.Keeps cells key slot

/-- Where a key is sought in a cache that holds some cells: it is nowhere, or in one of them and in
none of the others. -/
inductive Sought (cache : Cache κ ν) (key : κ) : List (Cell κ ν) → Prop
  | absent {cells : List (Cell κ ν)} (index : cache.index[key]? = none)
      (others : ∀ cell ∈ cells, (cell.key == key) = false) : Sought cache key cells
  | present {xs ys : List (Cell κ ν)} {cell : Cell κ ν} (hkey : (cell.key == key) = true)
      (index : cache.index[key]? = some cell.slot)
      (others : ∀ other ∈ xs ++ ys, (other.key == key) = false) :
      Sought cache key (xs ++ cell :: ys)

/-- No two cells have the same key: the index has one slot for it, and cells lie in different slots.
-/
theorem Holds.others (h : cache.Holds (xs ++ cell :: ys)) (hkey : (cell.key == key) = true) :
    ∀ other ∈ xs ++ ys, (other.key == key) = false := by
  intro other hother
  rw [← Bool.not_eq_true]
  intro heq
  -- the index has one slot for the key, so `other` would lie in the slot of `cell`
  have hcell := (h.index key cell.slot).mpr (Cell.keeps_middle.mpr (Cell.keeps_cons.mpr
    (.inl ⟨rfl, hkey⟩)))
  have hslot := (h.index key other.slot).mpr (Cell.keeps_middle.mpr (Cell.keeps_cons.mpr
    (.inr ⟨other, hother, rfl, heq⟩)))
  rw [hcell] at hslot
  refine h.list.threaded.fresh ?_
  rw [Option.some.inj hslot]
  exact List.mem_map_of_mem hother

/-- The index knows whether a key is held, and if so it leads to its cell. -/
theorem Holds.sought (h : cache.Holds cells) (key : κ) : Sought cache key cells := by
  cases hindex : cache.index[key]? with
  | none =>
    refine .absent hindex fun cell hcell => ?_
    rw [← Bool.not_eq_true]
    intro heq
    have hslot := (h.index key cell.slot).mpr ⟨cell, hcell, rfl, heq⟩
    rw [hindex] at hslot
    cases hslot
  | some slot =>
    obtain ⟨cell, hcell, rfl, hkey⟩ := (h.index key slot).mp hindex
    obtain ⟨xs, ys, rfl⟩ := List.append_of_mem hcell
    exact .present hkey hindex (h.others hkey)

/-! ## Reading -/

theorem Holds.size (h : cache.Holds cells) : cache.size = cells.length :=
  h.list.accounted.size.trans Cell.length_slots

theorem Holds.toList (h : cache.Holds cells) : cache.toList = .ok (cells.map Cell.pair) :=
  h.list.toList

/-- A key that is held is seen with its value, and its pair stays where it is. -/
theorem Holds.peek (h : cache.Holds (xs ++ cell :: ys))
    (index : cache.index[key]? = some cell.slot) :
    cache.peek key = cache.finish (some cell.value) := by
  simp only [Cache.peek, index, h.list.node]

/-- A pair may change its place and its value; the index knows neither. -/
theorem Holds.relinked {list : RecencyList κ ν} (h : cache.Holds (xs ++ cell :: ys)) (value : ν)
    (represents : list.Represents ({ cell with value } :: (xs ++ ys))) :
    Holds { cache with list } ({ cell with value } :: (xs ++ ys)) where
  list := represents
  index key slot := by
    rw [h.index, Cell.keeps_middle, Cell.keeps_cons, Cell.keeps_cons]

/-- If the recency list can be changed, the operation goes on with the changed one. -/
theorem relink_of_ok {α β : Type}
    {change : RecencyList κ ν → Except SlotFault (RecencyList κ ν × β)}
    {next : Cache κ ν → β → CacheStep κ ν (Cache κ ν) α} {step : CacheStep κ ν (Cache κ ν) α}
    {list : RecencyList κ ν} {b : β} (h : change cache.list = .ok (list, b))
    (hnext : next { cache with list } b = step) : cache.relink change next = step := by
  subst hnext
  cases cache
  simp only [relink, h]

/-- A key that is held is got with its value, and its pair comes to the front. -/
theorem Holds.get (h : cache.Holds (xs ++ cell :: ys))
    (index : cache.index[key]? = some cell.slot) :
    ∃ list, cache.get key = finish { cache with list } (some cell.value) ∧
      Holds { cache with list } (cell :: (xs ++ ys)) := by
  obtain ⟨list, hlist, represents⟩ := h.list.moveToFront
  have hnode := @Represents.node _ _ list cell [] _ represents
  refine ⟨list, ?_, h.relinked cell.value represents⟩
  simp only [Cache.get, index]
  exact relink_of_ok ((bind_ok hlist).trans (bind_ok hnode)) rfl

/-- A key that is held is given another value, and its pair comes to the front. -/
theorem Holds.add_present (h : cache.Holds (xs ++ cell :: ys))
    (index : cache.index[key]? = some cell.slot) (value : ν) :
    ∃ list, cache.add key value = finish { cache with list } () ∧
      Holds { cache with list } ({ cell with value } :: (xs ++ ys)) := by
  obtain ⟨changed, hchanged, represents⟩ := h.list.modify_value value
  obtain ⟨list, hlist, represents'⟩ := represents.moveToFront
  refine ⟨list, ?_, h.relinked value represents'⟩
  simp only [Cache.add, index]
  exact relink_of_ok ((bind_ok hchanged).trans (bind_ok hlist)) rfl

/-- An empty cache has no oldest pair. -/
theorem Holds.removeOldest_nil (h : cache.Holds []) : cache.removeOldest = cache.finish none := by
  have hback : cache.list.back = none := h.list.back
  simp only [Cache.removeOldest, hback]

/-! ## The index -/

variable [EquivBEq κ] [LawfulHashable κ]

/-- A new cache holds no cells, and its index leads nowhere. -/
theorem holds_empty (maxEntries : Nat) : (empty maxEntries : Cache κ ν).Holds [] where
  list := represents_empty
  index key slot := by simp [empty, Cell.Keeps]

/-- A pair that has left is not found any more. -/
theorem Holds.erase {list : RecencyList κ ν} (h : cache.Holds (xs ++ cell :: ys))
    (hkey : (cell.key == key) = true) (represents : list.Represents (xs ++ ys)) :
    Holds { cache with list, index := cache.index.erase key } (xs ++ ys) where
  list := represents
  index other slot := by
    rw [Std.HashMap.getElem?_erase]
    split
    · next heq =>
      -- no other cell has the key that is erased
      refine iff_of_false nofun ?_
      rintro ⟨held, hheld, -, hother⟩
      have hfalse := h.others hkey held hheld
      rw [BEq.trans hother (BEq.symm heq)] at hfalse
      cases hfalse
    · next hne =>
      rw [h.index, Cell.keeps_middle, Cell.keeps_cons, or_iff_right]
      rintro ⟨-, hother⟩
      exact hne (BEq.trans (BEq.symm hkey) hother)

/-- A new pair is found in its slot. -/
theorem Holds.insert {list : RecencyList κ ν} (h : cache.Holds cells)
    (others : ∀ cell ∈ cells, (cell.key == key) = false)
    (represents : list.Represents (⟨slot, key, value⟩ :: cells)) :
    Holds { cache with list, index := cache.index.insert key slot }
      (⟨slot, key, value⟩ :: cells) where
  list := represents
  index other slot' := by
    rw [Std.HashMap.getElem?_insert, Cell.keeps_cons]
    split
    · next heq =>
      -- the key is new, so only the new cell has it
      have hnot : ¬ Cell.Keeps cells other slot' := by
        rintro ⟨held, hheld, -, hother⟩
        have hfalse := others held hheld
        rw [BEq.trans hother (BEq.symm heq)] at hfalse
        cases hfalse
      rw [or_iff_left hnot, Option.some.injEq, and_iff_left heq]
    · next hne => rw [h.index, or_iff_right fun hand => hne hand.2]

/-! ## Operations -/

/-- Whether a key is held is asked of the index alone. -/
theorem contains_eq (cache : Cache κ ν) (key : κ) :
    cache.contains key = cache.index[key]?.isSome :=
  Std.HashMap.contains_eq_isSome_getElem?

/-- A key that is not held comes to the front in a cell of its own; then the bound is looked at. -/
theorem Holds.add_absent (h : cache.Holds cells) (index : cache.index[key]? = none)
    (others : ∀ cell ∈ cells, (cell.key == key) = false) (value : ν) :
    ∃ list slot, cache.add key value =
        shrink { cache with list, index := cache.index.insert key slot } ∧
      Holds { cache with list, index := cache.index.insert key slot }
        (⟨slot, key, value⟩ :: cells) := by
  obtain ⟨list, slot, hlist, represents⟩ := h.list.pushFront key value
  refine ⟨list, slot, ?_, h.insert others represents⟩
  simp only [Cache.add, index]
  exact relink_of_ok hlist rfl

/-- A key that is held is taken out, and the hook is told of its pair. -/
theorem Holds.remove (h : cache.Holds (xs ++ cell :: ys)) (hkey : (cell.key == key) = true)
    (index : cache.index[key]? = some cell.slot) :
    ∃ list, cache.remove key = notify { cache with list, index := cache.index.erase key }
        cell.key cell.value (some cell.value) ∧
      Holds { cache with list, index := cache.index.erase key } (xs ++ ys) := by
  obtain ⟨list, hlist, represents⟩ := h.list.remove
  refine ⟨list, ?_, h.erase hkey represents⟩
  simp only [Cache.remove, index]
  exact relink_of_ok hlist rfl

/-- The last pair is taken out, and the hook is told of it. -/
theorem Holds.removeOldest (h : cache.Holds (xs ++ [cell])) :
    ∃ list, cache.removeOldest = notify { cache with list, index := cache.index.erase cell.key }
        cell.key cell.value (some cell.pair) ∧
      Holds { cache with list, index := cache.index.erase cell.key } xs := by
  obtain ⟨list, hlist, represents⟩ := h.list.remove
  have hback : cache.list.back = some cell.slot := by
    rw [h.list.back]
    simp
  have holds := h.erase BEq.rfl represents
  rw [List.append_nil] at holds
  refine ⟨list, ?_, holds⟩
  simp only [Cache.removeOldest, hback]
  exact relink_of_ok ((bind_ok h.list.node).trans (bind_ok hlist)) rfl

/-- All pairs are taken out, and the hook is told of them from front to back. -/
theorem Holds.clear (h : cache.Holds cells) :
    cache.clear = notifyAll { cache with list := {}, index := ∅ } (cells.map Cell.pair) ∧
      Holds { cache with list := {}, index := ∅ } [] :=
  ⟨relink_of_ok h.list.drain rfl, represents_empty, (holds_empty 0).index⟩

end Cache

end PeerCache
