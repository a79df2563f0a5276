import PeerCache.Fault

/-!
Key and value pairs in order of recency, the most recent first.

The pairs live in numbered slots and point at their neighbours by slot number, so that a pair can
be moved or taken out without touching the others. A slot given up is kept on a stack and used
again before a new one is made. Every operation that follows a slot number says what is wrong when
the slot does not hold a pair.
-/

namespace PeerCache

/-- A pair and the slots of its neighbours, `newer` toward the front and `older` toward the back. -/
structure LinkedEntry (κ ν : Type) where
  key : κ
  value : ν
  newer : Option Nat
  older : Option Nat
  deriving Repr

/-- Linked pairs in slots. -/
structure RecencyList (κ ν : Type) where
  slots : Array (Option (LinkedEntry κ ν)) := #[]
  /-- Vacant slots, the one given up last first. -/
  free : List Nat := []
  head : Option Nat := none
  tail : Option Nat := none
  /-- How many pairs are linked. -/
  size : Nat := 0

namespace RecencyList

variable {κ ν : Type}

/-- The pair in a slot. -/
def node (list : RecencyList κ ν) (slot : Nat) : Except SlotFault (LinkedEntry κ ν) :=
  match list.slots[slot]? with
  | some (some n) => .ok n
  | some none => .error .vacant
  | none => .error (.outOfRange slot list.slots.size)

theorem node_eq_ok_iff {list : RecencyList κ ν} {slot : Nat} {n : LinkedEntry κ ν} :
    list.node slot = .ok n ↔ list.slots[slot]? = some (some n) := by
  unfold node
  cases h : list.slots[slot]? with
  | none => simp
  | some held => cases held <;> simp

/-- Changes the pair in a slot. -/
def modify (list : RecencyList κ ν) (slot : Nat) (change : LinkedEntry κ ν → LinkedEntry κ ν) :
    Except SlotFault (RecencyList κ ν) :=
  match list.node slot with
  | .ok n => .ok { list with slots := list.slots.setIfInBounds slot (some (change n)) }
  | .error fault => .error fault

/-- Puts a new pair into a slot: the one given up last, else a new one. -/
def store (list : RecencyList κ ν) (n : LinkedEntry κ ν) :
    Except SlotFault (RecencyList κ ν × Nat) :=
  match list.free with
  | slot :: rest =>
    if slot < list.slots.size then
      .ok ({ list with slots := list.slots.setIfInBounds slot (some n), free := rest }, slot)
    else .error (.outOfRange slot list.slots.size)
  | [] =>
    let slot := list.slots.size
    .ok ({ list with slots := list.slots.push (some n) }, slot)

/-- Makes the pair in `slot` the newer neighbour of the one in `head`, or the only pair. -/
def joinFront (list : RecencyList κ ν) (head : Option Nat) (slot : Nat) :
    Except SlotFault (RecencyList κ ν) :=
  match head with
  | some old => list.modify old fun n => { n with newer := some slot }
  | none => .ok { list with tail := some slot }

/-- Adds a pair at the front and answers its slot. -/
def pushFront (list : RecencyList κ ν) (key : κ) (value : ν) :
    Except SlotFault (RecencyList κ ν × Nat) := do
  let (stored, slot) ← list.store ⟨key, value, none, list.head⟩
  let joined ← stored.joinFront list.head slot
  return ({ joined with head := some slot, size := joined.size + 1 }, slot)

/-- The slot of the least recent pair. -/
def back (list : RecencyList κ ν) : Option Nat :=
  list.tail

/-- Joins the neighbours of a pair to each other. The pair keeps its own links. -/
def unlink (list : RecencyList κ ν) (slot : Nat) : Except SlotFault (RecencyList κ ν) := do
  let n ← list.node slot
  let list ← match n.newer with
    | some p => list.modify p fun m => { m with older := n.older }
    | none => pure { list with head := n.older }
  match n.older with
  | some q => list.modify q fun m => { m with newer := n.newer }
  | none => pure { list with tail := n.newer }

/-- Makes the pair in a slot the most recent one. -/
def moveToFront (list : RecencyList κ ν) (slot : Nat) : Except SlotFault (RecencyList κ ν) :=
  if list.head = some slot then .ok list
  else do
    let apart ← list.unlink slot
    let head := apart.head
    let turned ← apart.modify slot fun n => { n with newer := none, older := head }
    let joined ← match head with
      | some old => turned.modify old fun n => { n with newer := some slot }
      | none => pure turned
    return { joined with head := some slot }

/-- Takes the pair in a slot out of the list. -/
def remove (list : RecencyList κ ν) (slot : Nat) :
    Except SlotFault (RecencyList κ ν × κ × ν) := do
  let apart ← list.unlink slot
  let n ← apart.node slot
  if apart.size = 0 then throw .countBelowZero
  return ({ apart with
    slots := apart.slots.setIfInBounds slot none
    free := slot :: apart.free
    size := apart.size - 1 }, n.key, n.value)

/-! ### Emptying the list -/

/-- How many slots hold a pair. -/
def occupied (slots : Array (Option (LinkedEntry κ ν))) : Nat :=
  slots.countP Option.isSome

/-- Vacating a slot that holds a pair leaves fewer slots that do. -/
theorem occupied_vacate_lt {slots : Array (Option (LinkedEntry κ ν))} {slot : Nat}
    {n : LinkedEntry κ ν} (h : slots[slot]? = some (some n)) :
    occupied (slots.setIfInBounds slot none) < occupied slots := by
  obtain ⟨hlt, hget⟩ := Array.getElem?_eq_some_iff.mp h
  have hpos : 0 < slots.countP Option.isSome :=
    Array.countP_pos_iff.mpr ⟨slots[slot], Array.getElem_mem hlt, by simp [hget]⟩
  unfold occupied
  rw [Array.setIfInBounds_def, dif_pos hlt, Array.countP_set, hget, if_pos Option.isSome_some,
    if_neg (by simp)]
  omega

/-- The pairs from a slot on toward the back; each slot is vacated as its pair is taken. -/
def drainFrom (slots : Array (Option (LinkedEntry κ ν))) (cursor : Option Nat) :
    Except SlotFault (List (κ × ν)) :=
  match cursor with
  | none => .ok []
  | some slot =>
    match _ : slots[slot]? with
    | some (some n) =>
      (drainFrom (slots.setIfInBounds slot none) n.older).map ((n.key, n.value) :: ·)
    | some none => .error .vacant
    | none => .error (.outOfRange slot slots.size)
  termination_by occupied slots
  decreasing_by exact occupied_vacate_lt ‹_›

/-- Takes all pairs out, front to back. No slot is kept. -/
def drain (list : RecencyList κ ν) : Except SlotFault (RecencyList κ ν × List (κ × ν)) :=
  (drainFrom list.slots list.head).map fun entries => ({}, entries)

/-! ### Reading in order -/

/-- A walk over a list, front to back: the slot it stands at and how many pairs it still owes. -/
structure Iter (κ ν : Type) where
  list : RecencyList κ ν
  cursor : Option Nat
  remaining : Nat

/-- A walk that stands at the front. -/
def iter (list : RecencyList κ ν) : Iter κ ν :=
  ⟨list, list.head, list.size⟩

/-- The next pair of a walk, `none` at its end. -/
def Iter.next (walk : Iter κ ν) : Except SlotFault (Option (κ × ν) × Iter κ ν) :=
  match walk.cursor with
  | none => .ok (none, walk)
  | some slot =>
    match walk.list.node slot with
    | .error f => .error f
    | .ok n =>
      if walk.remaining = 0 then .error .countBelowZero
      else
        .ok (some (n.key, n.value),
          { walk with cursor := n.older, remaining := walk.remaining - 1 })

/-- The least and the most pairs that a walk says it still owes. -/
def Iter.sizeHint (walk : Iter κ ν) : Nat × Option Nat :=
  (walk.remaining, some walk.remaining)

/-- How many pairs a walk says it still owes, if what it says is exact. -/
def Iter.size? (walk : Iter κ ν) : Option Nat :=
  let (least, most) := walk.sizeHint
  if most = some least then some least else none

/-- The next `n` pairs of a walk, fewer if it ends before. -/
def Iter.take : Nat → Iter κ ν → Except SlotFault (List (κ × ν) × Iter κ ν)
  | 0, walk => .ok ([], walk)
  | n + 1, walk =>
    match walk.next with
    | .error f => .error f
    | .ok (none, walk) => .ok ([], walk)
    | .ok (some entry, walk) => (Iter.take n walk).map fun (rest, walk) => (entry :: rest, walk)

/-- All pairs of the list, most recent first: one more step than pairs shows that the walk ends. -/
def toList (list : RecencyList κ ν) : Except SlotFault (List (κ × ν)) :=
  (list.iter.take (list.size + 1)).map Prod.fst

end RecencyList

end PeerCache
