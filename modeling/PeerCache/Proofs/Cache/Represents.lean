import PeerCache.Proofs.Cache.Chain

/-!
# What a recency list stands for

`Represents list cells` is the whole invariant of a recency list: its slots link the cells from the
head to the tail (`Threaded`), and every slot is accounted for, either as the slot of a cell or on
the stack of vacant ones (`Accounted`). Every operation has one theorem, that on a list which stands
for some cells it finishes, and which cells the list stands for then.

Taking a pair out of its place leaves it in its slot for a moment, unlinked. So the two halves of
the invariant are carried separately inside an operation: `Rewired` says that links have changed
and nothing else.
-/

namespace PeerCache.RecencyList

open Cell

variable {κ ν : Type} {list : RecencyList κ ν} {cell : Cell κ ν} {cells xs ys : List (Cell κ ν)}
  {held : List Nat} {slot : Nat} {newer older : Option Nat} {n : LinkedEntry κ ν}

/-- Whether a slot holds a pair, `none` past the last slot. -/
def occupancy (slots : Array (Option (LinkedEntry κ ν))) (slot : Nat) : Option Bool :=
  slots[slot]?.map Option.isSome

/-- The slots link the cells, and the list begins and ends with them. -/
structure Threaded (list : RecencyList κ ν) (cells : List (Cell κ ν)) : Prop where
  chain : Chain list.slots none cells none
  distinct : (Cell.slots cells).Nodup
  head : list.head = front cells
  tail : list.tail = rear cells

/-- The slots in `held` hold pairs, the others are on the stack of vacant slots. -/
structure Accounted (list : RecencyList κ ν) (held : List Nat) : Prop where
  size : list.size = held.length
  free_nodup : list.free.Nodup
  vacant : ∀ slot, slot ∈ list.free ↔ occupancy list.slots slot = some false
  occupied : ∀ slot, slot ∈ held ↔ occupancy list.slots slot = some true

/-- The list consists of the cells, front to back, and of vacant slots. -/
structure Represents (list : RecencyList κ ν) (cells : List (Cell κ ν)) : Prop where
  threaded : Threaded list cells
  accounted : Accounted list (Cell.slots cells)

/-- A list that holds nothing. -/
theorem represents_empty : Represents ({} : RecencyList κ ν) [] where
  threaded := ⟨chain_nil, List.nodup_nil, rfl, rfl⟩
  accounted := ⟨rfl, List.nodup_nil, by simp [occupancy], by simp [occupancy]⟩

/-! ## Changing links -/

/-- `after` is `before` with other ends and other links of the pairs in some slots. -/
structure Rewired (touched : List Nat) (before after : RecencyList κ ν) : Prop where
  away : ∀ slot ∉ touched, after.slots[slot]? = before.slots[slot]?
  occupancy : occupancy after.slots = occupancy before.slots
  free : after.free = before.free
  size : after.size = before.size

namespace Rewired

variable {before middle after : RecencyList κ ν} {touched touched' : List Nat}

theorem ends (head tail : Option Nat) : Rewired [] list { list with head, tail } :=
  ⟨fun _ _ => rfl, rfl, rfl, rfl⟩

/-- Two changes of links touch the slots that either of them touches. -/
theorem trans (first : Rewired touched before middle) (second : Rewired touched' middle after) :
    Rewired (touched ++ touched') before after where
  away slot hslot := by
    rw [List.mem_append, not_or] at hslot
    exact (second.away slot hslot.2).trans (first.away slot hslot.1)
  occupancy := second.occupancy.trans first.occupancy
  free := second.free.trans first.free
  size := second.size.trans first.size

end Rewired

theorem occupancy_eq_true (h : list.slots[slot]? = some (some n)) :
    occupancy list.slots slot = some true := by
  rw [occupancy, h]
  rfl

/-- Exchanging the pair in a slot touches that slot only. -/
theorem rewired_set {m : LinkedEntry κ ν} {touched : List Nat} (head tail : Option Nat)
    (h : list.slots[slot]? = some (some n)) (hmem : slot ∈ touched) :
    Rewired touched list
      { list with slots := list.slots.setIfInBounds slot (some m), head, tail } where
  away other hother := by
    refine Array.getElem?_setIfInBounds_ne ?_
    rintro rfl
    exact hother hmem
  occupancy := by
    -- the slot held a pair before and holds one now
    funext other
    by_cases heq : slot = other
    · subst heq
      rw [occupancy_eq_true h]
      exact occupancy_eq_true (getElem?_set_self h)
    · exact congrArg _ (Array.getElem?_setIfInBounds_ne heq)
  free := rfl
  size := rfl

/-- What a slot holds is not looked at in accounting for it, so links can be changed freely. -/
theorem Accounted.rewired {after : RecencyList κ ν} {touched : List Nat}
    (accounted : Accounted list held) (rewired : Rewired touched list after) :
    Accounted after held where
  size := rewired.size.trans accounted.size
  free_nodup := rewired.free ▸ accounted.free_nodup
  vacant := by rw [rewired.free, rewired.occupancy]; exact accounted.vacant
  occupied := by rw [rewired.occupancy]; exact accounted.occupied

theorem Accounted.perm {held' : List Nat} (accounted : Accounted list held)
    (perm : held.Perm held') : Accounted list held' where
  size := accounted.size.trans perm.length_eq
  free_nodup := accounted.free_nodup
  vacant := accounted.vacant
  occupied slot := perm.mem_iff.symm.trans (accounted.occupied slot)

/-- A change of a slot that holds a pair finishes, and sets that slot only. -/
theorem modify_eq {change : LinkedEntry κ ν → LinkedEntry κ ν}
    (h : list.slots[slot]? = some (some n)) :
    list.modify slot change =
      .ok { list with slots := list.slots.setIfInBounds slot (some (change n)) } := by
  rw [modify, node_eq_ok_iff.mpr h]

/-- Puts `older` behind the pair in a slot, or at the head of the list. -/
def linkOlder (list : RecencyList κ ν) (slot older : Option Nat) :
    Except SlotFault (RecencyList κ ν) :=
  match slot with
  | some p => list.modify p fun m => { m with older }
  | none => .ok { list with head := older }

/-- Puts `newer` before the pair in a slot, or at the tail of the list. -/
def linkNewer (list : RecencyList κ ν) (slot newer : Option Nat) :
    Except SlotFault (RecencyList κ ν) :=
  match slot with
  | some q => list.modify q fun m => { m with newer }
  | none => .ok { list with tail := newer }

/-- Taking a pair out links its two neighbours to each other, or an end of the list to the one
neighbour there is. -/
theorem unlink_eq (list : RecencyList κ ν) (slot : Nat) :
    list.unlink slot = (do
      let n ← list.node slot
      let list ← list.linkOlder n.newer n.older
      list.linkNewer n.older n.newer) := by
  -- the two `match`es of `unlink` are `linkOlder` and `linkNewer`, case by case
  simp only [unlink, bind, Except.bind]
  cases list.node slot with
  | error fault => rfl
  | ok n => rcases n with ⟨_, _, _ | p, _ | q⟩ <;> rfl

/-- What comes at the rear of some cells can be exchanged. -/
theorem linkOlder_rear (older' : Option Nat) (chain : Chain list.slots none cells older)
    (distinct : (Cell.slots cells).Nodup) (head : list.head = (front cells).or older) :
    ∃ after, list.linkOlder (rear cells) older' = .ok after ∧
      Chain after.slots none cells older' ∧ after.head = (front cells).or older' ∧
      after.tail = list.tail ∧ Rewired (Cell.slots cells) list after := by
  -- with no cells it is the head of the list that changes
  rcases List.eq_nil_or_concat cells with rfl | ⟨init, last, rfl⟩
  · exact ⟨_, rfl, chain_nil, rfl, rfl, .ends older' list.tail⟩
  · rw [List.concat_eq_append] at *
    have hlast := (chain_append.mp chain).2.1
    have hmem : last.slot ∈ Cell.slots (init ++ [last]) := by simp
    have fresh : last.slot ∉ Cell.slots init := by
      rw [slots_append] at distinct
      exact fun h => (List.nodup_append.mp distinct).2.2 _ h _ (List.mem_singleton_self _) rfl
    have hrear : rear (init ++ [last]) = some last.slot := by simp
    rw [hrear]
    refine ⟨_, modify_eq hlast, chain.relink_rear fresh hlast, ?_, rfl,
      rewired_set _ _ hlast hmem⟩
    show list.head = _
    rw [head, front_append, front_cons, Option.or_assoc, Option.or_assoc, Option.some_or,
      Option.some_or]

/-- What comes at the front of some cells can be exchanged. -/
theorem linkNewer_front (newer' : Option Nat) (chain : Chain list.slots newer cells none)
    (distinct : (Cell.slots cells).Nodup) (tail : list.tail = (rear cells).or newer) :
    ∃ after, list.linkNewer (front cells) newer' = .ok after ∧
      Chain after.slots newer' cells none ∧ after.tail = (rear cells).or newer' ∧
      after.head = list.head ∧ Rewired (Cell.slots cells) list after := by
  cases cells with
  | nil => exact ⟨_, rfl, chain_nil, rfl, rfl, .ends list.head newer'⟩
  | cons first rest =>
    have hfirst := chain.1
    have fresh : first.slot ∉ Cell.slots rest := (List.nodup_cons.mp distinct).1
    refine ⟨_, modify_eq hfirst, chain.relink_front fresh hfirst, ?_, rfl,
      rewired_set _ _ hfirst List.mem_cons_self⟩
    show list.tail = _
    rw [tail, rear_cons, Option.or_assoc, Option.or_assoc, Option.some_or, Option.some_or]

end PeerCache.RecencyList
