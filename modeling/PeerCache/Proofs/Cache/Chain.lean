import Mathlib.Data.List.Nodup
import PeerCache.Cache.Recency

/-!
# Chains of linked pairs

A recency list is read as a list of *cells*, the pairs from front to back, each with the slot that
holds it. `Chain` says that the slots really link the cells in that order. It is open at both ends,
so a chain can be cut at any cell (`chain_append`) and its pieces relinked on their own; a piece
looks at its own slots only (`Chain.congr`).
-/

namespace PeerCache

/-- A pair and the slot that holds it. -/
structure Cell (κ ν : Type) where
  slot : Nat
  key : κ
  value : ν

namespace Cell

variable {κ ν : Type}

def pair (cell : Cell κ ν) : κ × ν :=
  (cell.key, cell.value)

def slots (cells : List (Cell κ ν)) : List Nat :=
  cells.map slot

def front (cells : List (Cell κ ν)) : Option Nat :=
  cells.head?.map slot

def rear (cells : List (Cell κ ν)) : Option Nat :=
  cells.getLast?.map slot

variable {cell : Cell κ ν} {cells xs ys : List (Cell κ ν)}

@[simp] theorem slots_nil : slots ([] : List (Cell κ ν)) = [] := rfl

@[simp] theorem slots_cons : slots (cell :: cells) = cell.slot :: slots cells := rfl

@[simp] theorem slots_append : slots (xs ++ ys) = slots xs ++ slots ys :=
  List.map_append

@[simp] theorem length_slots : (slots cells).length = cells.length :=
  List.length_map _

@[simp] theorem front_nil : front ([] : List (Cell κ ν)) = none := rfl

@[simp] theorem front_cons : front (cell :: cells) = some cell.slot := rfl

@[simp] theorem front_append : front (xs ++ ys) = (front xs).or (front ys) := by
  cases xs <;> simp

@[simp] theorem rear_nil : rear ([] : List (Cell κ ν)) = none := rfl

@[simp] theorem rear_append : rear (xs ++ ys) = (rear ys).or (rear xs) := by
  rw [rear, List.getLast?_append, Option.map_or]
  rfl

/-- Unlike the front, the rear of a list of cells depends on whether more cells follow the first. -/
@[simp] theorem rear_cons : rear (cell :: cells) = (rear cells).or (some cell.slot) :=
  @rear_append κ ν [cell] cells

end Cell

namespace RecencyList

open Cell

variable {κ ν : Type} {slots slots' : Array (Option (LinkedEntry κ ν))} {newer older : Option Nat}
  {cell : Cell κ ν} {cells xs ys : List (Cell κ ν)} {slot : Nat}

/-- The slots hold the cells and link them in their order. The first one has `newer` before it and
the last one `older` behind it. -/
def Chain (slots : Array (Option (LinkedEntry κ ν))) :
    Option Nat → List (Cell κ ν) → Option Nat → Prop
  | _, [], _ => True
  | newer, cell :: rest, older =>
    slots[cell.slot]? = some (some ⟨cell.key, cell.value, newer, (front rest).or older⟩) ∧
      Chain slots (some cell.slot) rest older

@[simp] theorem chain_nil : Chain slots newer [] older := trivial

/-- The first cell of a chain has its slot's entry, whose link towards older pairs leads to the next
cell; the rest is a chain that this cell comes before. -/
theorem chain_cons :
    Chain slots newer (cell :: cells) older ↔
      slots[cell.slot]? = some (some ⟨cell.key, cell.value, newer, (front cells).or older⟩) ∧
        Chain slots (some cell.slot) cells older :=
  Iff.rfl

/-- A chain can be cut anywhere: either piece ends at the other. -/
theorem chain_append :
    Chain slots newer (xs ++ ys) older ↔
      Chain slots newer xs ((front ys).or older) ∧ Chain slots ((rear xs).or newer) ys older := by
  induction xs generalizing newer with
  | nil => simp
  | cons cell xs ih =>
    -- behind `cell` come the first of `xs`, else the first of `ys`, else `older`
    rw [List.cons_append, chain_cons, chain_cons, ih, and_assoc, front_append, rear_cons,
      Option.or_assoc, Option.or_assoc, Option.some_or]

/-- A chain is looked at in the slots of its cells only. -/
theorem Chain.congr (chain : Chain slots newer cells older)
    (same : ∀ slot ∈ Cell.slots cells, slots'[slot]? = slots[slot]?) :
    Chain slots' newer cells older := by
  induction cells generalizing newer with
  | nil => exact chain_nil
  | cons cell cells ih =>
    rw [slots_cons, List.forall_mem_cons] at same
    exact ⟨same.1.trans chain.1, ih chain.2 same.2⟩

/-- Wherever a whole chain is cut, the slot of the cell there holds the cell's pair, linked to its
two neighbours. -/
theorem Chain.entry (chain : Chain slots none (xs ++ cell :: ys) none) :
    slots[cell.slot]? = some (some ⟨cell.key, cell.value, rear xs, front ys⟩) := by
  have h := (chain_append.mp chain).2.1
  rwa [Option.or_none, Option.or_none] at h

/-- A slot that is none of a chain's cells can be overwritten with anything, or vacated. -/
theorem chain_set_of_notMem {n : Option (LinkedEntry κ ν)} (h : slot ∉ Cell.slots cells)
    (chain : Chain slots newer cells older) :
    Chain (slots.setIfInBounds slot n) newer cells older := by
  refine chain.congr fun other hother => Array.getElem?_setIfInBounds_ne ?_
  rintro rfl
  exact h hother

/-- A slot that holds a pair holds the new one after it is set. -/
theorem getElem?_set_self {n m : LinkedEntry κ ν} (h : slots[slot]? = some (some n)) :
    (slots.setIfInBounds slot (some m))[slot]? = some (some m) :=
  Array.getElem?_setIfInBounds_self_of_lt (Array.getElem?_eq_some_iff.mp h).1

/-! ### Relinking the ends -/

/-- The first cell of a chain can be linked to another slot before it. -/
theorem Chain.relink_front {newer' : Option Nat} {n : LinkedEntry κ ν}
    (chain : Chain slots newer (cell :: cells) older) (fresh : cell.slot ∉ Cell.slots cells)
    (h : slots[cell.slot]? = some (some n)) :
    Chain (slots.setIfInBounds cell.slot (some { n with newer := newer' })) newer' (cell :: cells)
      older := by
  -- `n` is what the chain says of the slot, so the new entry differs from it in one link
  have hn := chain.1.symm.trans h
  injection hn with hn
  injection hn with hn
  subst hn
  exact ⟨getElem?_set_self h, chain_set_of_notMem fresh chain.2⟩

/-- The last cell of a chain can be linked to another slot behind it. -/
theorem Chain.relink_rear {older' : Option Nat} {n : LinkedEntry κ ν}
    (chain : Chain slots newer (cells ++ [cell]) older) (fresh : cell.slot ∉ Cell.slots cells)
    (h : slots[cell.slot]? = some (some n)) :
    Chain (slots.setIfInBounds cell.slot (some { n with older := older' })) newer (cells ++ [cell])
      older' := by
  obtain ⟨init, last⟩ := chain_append.mp chain
  have hn := last.1.symm.trans h
  injection hn with hn
  injection hn with hn
  subst hn
  exact chain_append.mpr ⟨chain_set_of_notMem fresh init, getElem?_set_self h, chain_nil⟩

end RecencyList

end PeerCache
