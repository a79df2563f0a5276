import PeerCache.Proofs.Cache.Represents

/-!
# The operations of a recency list

On a list that stands for some cells every operation finishes, and the list it leaves stands for the
cells that the operation is about: `pushFront` puts one before them, `moveToFront` and `remove` take
one from its place, `drain` and `toList` answer their pairs in order.
-/

namespace PeerCache.RecencyList

open Cell

variable {κ ν : Type} {list : RecencyList κ ν} {cell : Cell κ ν} {cells xs ys : List (Cell κ ν)}
  {held : List Nat} {slot : Nat} {newer older : Option Nat}

theorem bind_ok {ε α β : Type} {x : Except ε α} {a : α} {next : α → Except ε β} (h : x = .ok a) :
    (x >>= next) = next a := by
  rw [h]
  rfl

/-- What finishes did so in its first step, and then in the rest. -/
theorem exists_of_bind_ok {ε α β : Type} {x : Except ε α} {next : α → Except ε β} {b : β}
    (h : (x >>= next) = .ok b) : ∃ a, x = .ok a ∧ next a = .ok b := by
  cases x with
  | error e => cases h
  | ok a => exact ⟨a, rfl, h⟩

/-! ## One cell -/

/-- The slot of a cell has the cell's pair, between those of its neighbours. -/
theorem Represents.node (h : list.Represents (xs ++ cell :: ys)) :
    list.node cell.slot = .ok ⟨cell.key, cell.value, rear xs, front ys⟩ :=
  node_eq_ok_iff.mpr h.threaded.chain.entry

theorem Represents.back (h : list.Represents cells) : list.back = rear cells :=
  h.threaded.tail

/-- A cell is in no slot of the others. -/
theorem Threaded.fresh (threaded : Threaded list (xs ++ cell :: ys)) :
    cell.slot ∉ Cell.slots (xs ++ ys) := by
  have distinct := threaded.distinct
  rw [slots_append, slots_cons, List.nodup_middle] at distinct
  rw [slots_append]
  exact (List.nodup_cons.mp distinct).1

/-- Exchanging the value of a cell leaves everything else in place. -/
theorem Represents.modify_value (h : list.Represents (xs ++ cell :: ys)) (value : ν) :
    ∃ after, (list.modify cell.slot fun n => { n with value }) = .ok after ∧
      after.Represents (xs ++ { cell with value } :: ys) := by
  have hentry := h.threaded.chain.entry
  obtain ⟨before, -, behind⟩ := chain_append.mp h.threaded.chain
  have hfresh := h.threaded.fresh
  rw [slots_append, List.mem_append, not_or] at hfresh
  -- neither the slots nor the ends know of values
  have hslots : Cell.slots (xs ++ { cell with value } :: ys) = Cell.slots (xs ++ cell :: ys) := by
    simp
  refine ⟨_, modify_eq hentry, ⟨?chain, ?distinct, ?head, ?tail⟩, ?accounted⟩
  case chain =>
    refine chain_append.mpr ⟨chain_set_of_notMem hfresh.1 before, ?_, ?_⟩
    · rw [Option.or_none, Option.or_none]
      exact getElem?_set_self hentry
    · exact chain_set_of_notMem hfresh.2 behind
  case distinct =>
    rw [hslots]
    exact h.threaded.distinct
  case head => simpa using h.threaded.head
  case tail => simpa using h.threaded.tail
  case accounted =>
    rw [hslots]
    exact h.accounted.rewired (rewired_set _ _ hentry (List.mem_singleton_self _))

/-! ## Taking a cell from its place -/

/-- The neighbours of an unlinked cell are linked to each other; its own slot is not touched. -/
theorem Threaded.unlink (threaded : Threaded list (xs ++ cell :: ys)) :
    ∃ apart, list.unlink cell.slot = .ok apart ∧ Threaded apart (xs ++ ys) ∧
      Rewired (Cell.slots (xs ++ ys)) list apart := by
  have distinct : (Cell.slots xs ++ Cell.slots ys).Nodup := by
    have distinct := threaded.distinct
    rw [slots_append, slots_cons, List.nodup_middle] at distinct
    exact (List.nodup_cons.mp distinct).2
  obtain ⟨hxs, hys, hdisjoint⟩ := List.nodup_append.mp distinct
  obtain ⟨before, -, behind⟩ := chain_append.mp threaded.chain
  -- first the cells before it get a new rear, then those behind it a new front
  obtain ⟨middle, hmiddle, before', head', tail', rewired⟩ :=
    linkOlder_rear (front ys) before hxs (by simpa using threaded.head)
  have behind' : Chain middle.slots (some cell.slot) ys none := by
    refine behind.congr fun slot hslot => rewired.away slot fun hmem => ?_
    exact hdisjoint slot hmem slot hslot rfl
  obtain ⟨apart, hapart, behind'', tail'', head'', rewired'⟩ :=
    linkNewer_front (rear xs) behind' hys (by
      rw [tail', threaded.tail, rear_append, rear_cons, Option.or_assoc, Option.some_or])
  have before'' : Chain apart.slots none xs (front ys) := by
    refine before'.congr fun slot hslot => rewired'.away slot fun hmem => ?_
    exact hdisjoint slot hslot slot hmem rfl
  refine ⟨apart, ?run, ⟨?chain, ?distinct, ?head, ?tail⟩, ?rewired⟩
  case run =>
    rw [unlink_eq]
    exact (bind_ok (node_eq_ok_iff.mpr threaded.chain.entry)).trans
      ((bind_ok hmiddle).trans hapart)
  case chain =>
    refine chain_append.mpr ⟨?_, ?_⟩
    · rwa [Option.or_none]
    · rwa [Option.or_none]
  case distinct => rwa [slots_append]
  case head => rw [head'', head', front_append]
  case tail => rw [tail'', rear_append]
  case rewired =>
    rw [slots_append]
    exact rewired.trans rewired'

/-! ## Putting a cell at the front -/

/-- A slot of no cell may hold what it will. -/
theorem Threaded.set {n : Option (LinkedEntry κ ν)} (threaded : Threaded list cells)
    (fresh : slot ∉ Cell.slots cells) :
    Threaded { list with slots := list.slots.setIfInBounds slot n } cells :=
  { threaded with chain := chain_set_of_notMem fresh threaded.chain }

/-- A cell that lies ready in a slot of its own needs only the first of the others to know it. -/
theorem Threaded.prepend (threaded : Threaded list cells) (cell : Cell κ ν)
    (fresh : cell.slot ∉ Cell.slots cells)
    (hready : list.slots[cell.slot]? = some (some ⟨cell.key, cell.value, none, front cells⟩)) :
    ∃ after, list.linkNewer (front cells) (some cell.slot) = .ok after ∧
      Threaded { after with head := some cell.slot } (cell :: cells) ∧
      Rewired (Cell.slots cells) list after := by
  obtain ⟨after, hafter, chain, tail, -, rewired⟩ :=
    linkNewer_front (some cell.slot) threaded.chain threaded.distinct
      (by rw [threaded.tail, Option.or_none])
  refine ⟨after, hafter, ⟨⟨?_, chain⟩, ?_, rfl, ?_⟩, rewired⟩
  · rw [rewired.away _ fresh, hready, Option.or_none]
  · exact List.nodup_cons.mpr ⟨fresh, threaded.distinct⟩
  · rw [tail, rear_cons]

/-- Joining a new pair to the front is linking the one in front of it, as any other relinking. -/
theorem joinFront_eq (head : Option Nat) :
    list.joinFront head slot = list.linkNewer head (some slot) := by
  cases head <;> rfl

/-- A pair that is not in front already is taken out of its place and joined to the one that is. -/
theorem moveToFront_of_ne {apart : RecencyList κ ν} {old : Nat} (hslot : list.head ≠ some slot)
    (hapart : list.unlink slot = .ok apart) (hold : apart.head = some old) :
    list.moveToFront slot = (do
      let turned ← apart.modify slot fun n => { n with newer := none, older := some old }
      let joined ← turned.linkNewer (some old) (some slot)
      return { joined with head := some slot }) := by
  rw [moveToFront, if_neg hslot]
  simp only [bind, Except.bind, hapart, hold]
  rfl

/-- A cell moved to the front comes before all others. -/
theorem Represents.moveToFront (h : list.Represents (xs ++ cell :: ys)) :
    ∃ after, list.moveToFront cell.slot = .ok after ∧
      after.Represents (cell :: (xs ++ ys)) := by
  cases xs with
  | nil =>
    have hhead : list.head = some cell.slot := h.threaded.head
    refine ⟨list, ?_, h⟩
    rw [RecencyList.moveToFront, if_pos hhead]
  | cons first xs =>
    have hfresh := h.threaded.fresh
    have hne : list.head ≠ some cell.slot := by
      have hmem : first.slot ∈ Cell.slots (first :: xs ++ ys) := List.mem_cons_self
      rw [h.threaded.head]
      intro heq
      exact hfresh (Option.some.inj heq ▸ hmem)
    -- while the cell is out of the list its own links are set
    obtain ⟨apart, hapart, threaded, rewired⟩ := h.threaded.unlink
    have hentry := (rewired.away _ hfresh).trans h.threaded.chain.entry
    obtain ⟨after, hafter, threaded', rewired'⟩ := (threaded.set hfresh).prepend cell hfresh
      (getElem?_set_self hentry)
    refine ⟨_, ?run, threaded', ?accounted⟩
    case run =>
      rw [moveToFront_of_ne hne hapart threaded.head]
      exact (bind_ok (modify_eq hentry)).trans (bind_ok hafter)
    case accounted =>
      have hall := (rewired.trans (rewired_set _ _ hentry (List.mem_singleton_self _))).trans
        (rewired'.trans (.ends (some cell.slot) after.tail))
      exact (h.accounted.rewired hall).perm (List.perm_middle.map _)

/-! ## Slots given up and taken -/

/-- Only the slot that is set is occupied or vacated. -/
theorem occupancy_set {slots : Array (Option (LinkedEntry κ ν))} {n : Option (LinkedEntry κ ν)}
    (h : slot < slots.size) (other : Nat) :
    occupancy (slots.setIfInBounds slot n) other =
      if slot = other then some n.isSome else occupancy slots other := by
  rw [occupancy, Array.getElem?_setIfInBounds]
  split
  · rfl
  · rfl

theorem lt_size_of_occupancy {slots : Array (Option (LinkedEntry κ ν))} {b : Bool}
    (h : occupancy slots slot = some b) : slot < slots.size := by
  obtain ⟨n, hn, -⟩ := Option.map_eq_some_iff.mp h
  exact (Array.getElem?_eq_some_iff.mp hn).1

/-- A slot that is vacated goes onto the stack. -/
theorem Accounted.vacate (accounted : Accounted list (slot :: held)) (fresh : slot ∉ held) :
    Accounted { list with
      slots := list.slots.setIfInBounds slot none
      free := slot :: list.free
      size := list.size - 1 } held := by
  have hslot : occupancy list.slots slot = some true :=
    (accounted.occupied slot).mp List.mem_cons_self
  have hset := occupancy_set (n := none) (lt_size_of_occupancy hslot)
  refine ⟨?_, ?_, fun other => ?_, fun other => ?_⟩
  · rw [accounted.size, List.length_cons, Nat.add_sub_cancel]
  · -- a slot that holds a pair is not on the stack yet
    refine List.nodup_cons.mpr ⟨fun hfree => ?_, accounted.free_nodup⟩
    have hvacant := (accounted.vacant slot).mp hfree
    rw [hslot] at hvacant
    cases hvacant
  · rw [hset, List.mem_cons, accounted.vacant]
    grind
  · rw [hset]
    have hoccupied := accounted.occupied other
    grind

/-- A slot that is made is occupied. -/
theorem occupancy_push (slots : Array (Option (LinkedEntry κ ν))) (n : LinkedEntry κ ν)
    (other : Nat) : occupancy (slots.push (some n)) other =
      if other = slots.size then some true else occupancy slots other := by
  rw [occupancy, Array.getElem?_push]
  split
  · rfl
  · rfl

/-- With no vacant slot left a new one is made. -/
theorem store_eq_of_nil {n : LinkedEntry κ ν} (h : list.free = []) :
    list.store n = .ok ({ list with slots := list.slots.push (some n) }, list.slots.size) := by
  rw [store, h]

/-- Else it is the slot that was vacated last. -/
theorem store_eq_of_cons {n : LinkedEntry κ ν} {rest : List Nat} (h : list.free = slot :: rest)
    (hslot : slot < list.slots.size) :
    list.store n =
      .ok ({ list with slots := list.slots.setIfInBounds slot (some n), free := rest }, slot) := by
  rw [store, h]
  exact if_pos hslot

/-- Room for a pair is found in a slot that no other one is in. -/
theorem Accounted.store (accounted : Accounted list held) (n : LinkedEntry κ ν) :
    ∃ stored slot, list.store n = .ok (stored, slot) ∧ slot ∉ held ∧
      stored.slots[slot]? = some (some n) ∧
      (∀ other, other ≠ slot → stored.slots[other]? = list.slots[other]?) ∧
      stored.head = list.head ∧ stored.tail = list.tail ∧
      Accounted { stored with size := stored.size + 1 } (slot :: held) := by
  have hsize : list.size + 1 = held.length + 1 := congrArg (· + 1) accounted.size
  cases hfree : list.free with
  | nil =>
    -- a new slot, which is past all others
    have hlast : occupancy list.slots list.slots.size = none := by simp [occupancy]
    refine ⟨_, _, store_eq_of_nil hfree, fun hmem => ?_, Array.getElem?_push_size,
      fun other hother => ?_, rfl, rfl, hsize, accounted.free_nodup, fun other => ?_,
      fun other => ?_⟩
    · have hheld := (accounted.occupied _).mp hmem
      rw [hlast] at hheld
      cases hheld
    · show (list.slots.push (some n))[other]? = _
      rw [Array.getElem?_push, if_neg hother]
    · show other ∈ list.free ↔ _
      rw [occupancy_push, accounted.vacant]
      grind
    · rw [occupancy_push, List.mem_cons, accounted.occupied]
      grind
  | cons slot rest =>
    -- the slot given up last, which is vacant
    have hvacant : occupancy list.slots slot = some false :=
      (accounted.vacant slot).mp (hfree ▸ List.mem_cons_self)
    have hslot := lt_size_of_occupancy hvacant
    have hnodup := accounted.free_nodup
    rw [hfree, List.nodup_cons] at hnodup
    refine ⟨_, _, store_eq_of_cons hfree hslot, fun hmem => ?_,
      Array.getElem?_setIfInBounds_self_of_lt hslot,
      fun other hother => Array.getElem?_setIfInBounds_ne hother.symm, rfl, rfl, hsize, hnodup.2,
      fun other => ?_, fun other => ?_⟩
    · have hheld := (accounted.occupied _).mp hmem
      rw [hvacant] at hheld
      cases hheld
    · have hother := accounted.vacant other
      rw [hfree, List.mem_cons] at hother
      rw [occupancy_set hslot]
      grind
    · rw [occupancy_set hslot, List.mem_cons, accounted.occupied]
      grind

/-- A new cell comes before all others, in a slot of its own. -/
theorem Represents.pushFront (h : list.Represents cells) (key : κ) (value : ν) :
    ∃ after slot, list.pushFront key value = .ok (after, slot) ∧
      after.Represents (⟨slot, key, value⟩ :: cells) := by
  obtain ⟨stored, slot, hstored, hfresh, hentry, hothers, hhead, htail, accounted⟩ :=
    h.accounted.store ⟨key, value, none, list.head⟩
  -- the cells are linked as before, and the new one lies ready
  have threaded : Threaded stored cells :=
    { chain := h.threaded.chain.congr fun other hother =>
        hothers other fun heq => hfresh (heq ▸ hother)
      distinct := h.threaded.distinct
      head := hhead.trans h.threaded.head
      tail := htail.trans h.threaded.tail }
  rw [h.threaded.head] at hentry
  obtain ⟨joined, hjoined, threaded', rewired⟩ :=
    threaded.prepend ⟨slot, key, value⟩ hfresh hentry
  have hjoin : stored.joinFront list.head slot = .ok joined := by
    rw [joinFront_eq, h.threaded.head]
    exact hjoined
  refine ⟨{ joined with head := some slot, size := joined.size + 1 }, slot,
    (bind_ok hstored).trans (bind_ok hjoin), ⟨threaded'.chain, threaded'.distinct, rfl,
    threaded'.tail⟩, accounted.rewired ⟨rewired.away, rewired.occupancy, rewired.free, ?_⟩⟩
  exact congrArg (· + 1) rewired.size

/-- The pair of a cell can be taken out; the others stay in their order. -/
theorem Represents.remove (h : list.Represents (xs ++ cell :: ys)) :
    ∃ after, list.remove cell.slot = .ok (after, cell.key, cell.value) ∧
      after.Represents (xs ++ ys) := by
  have hfresh := h.threaded.fresh
  obtain ⟨apart, hapart, threaded, rewired⟩ := h.threaded.unlink
  have hnode : apart.node cell.slot = .ok ⟨cell.key, cell.value, rear xs, front ys⟩ :=
    node_eq_ok_iff.mpr ((rewired.away _ hfresh).trans h.threaded.chain.entry)
  have accounted : Accounted apart (cell.slot :: Cell.slots (xs ++ ys)) :=
    (h.accounted.rewired rewired).perm (List.perm_middle.map _)
  have hsize : apart.size ≠ 0 := by
    rw [accounted.size]
    exact Nat.succ_ne_zero _
  have threaded' := threaded.set (n := none) hfresh
  refine ⟨{ apart with
      slots := apart.slots.setIfInBounds cell.slot none
      free := cell.slot :: apart.free
      size := apart.size - 1 }, ?_,
    ⟨threaded'.chain, threaded'.distinct, threaded'.head, threaded'.tail⟩,
    accounted.vacate hfresh⟩
  refine (bind_ok hapart).trans ((bind_ok hnode).trans ?_)
  rw [if_neg hsize]
  rfl

/-! ## Going through the list -/

/-- Draining a chain answers its pairs in order, although their slots are vacated on the way. -/
theorem drainFrom_chain {slots : Array (Option (LinkedEntry κ ν))}
    (chain : Chain slots newer cells none) (distinct : (Cell.slots cells).Nodup) :
    drainFrom slots (front cells) = .ok (cells.map Cell.pair) := by
  induction cells generalizing slots newer with
  | nil => rw [front_nil, drainFrom]; rfl
  | cons cell cells ih =>
    rw [slots_cons, List.nodup_cons] at distinct
    have hrest := ih (chain_set_of_notMem (n := none) distinct.1 chain.2) distinct.2
    rw [front_cons, drainFrom]
    -- the slot holds the cell, so the other two ways out are not taken
    split
    · next n hn =>
      rw [chain.1, Option.some.injEq, Option.some.injEq] at hn
      rw [← hn, Option.or_none, hrest]
      rfl
    · next hn => rw [chain.1] at hn; cases hn
    · next hn => rw [chain.1] at hn; cases hn

/-- A list is drained of its pairs, and a new list is left. -/
theorem Represents.drain (h : list.Represents cells) :
    list.drain = .ok ({}, cells.map Cell.pair) := by
  rw [RecencyList.drain, h.threaded.head,
    drainFrom_chain h.threaded.chain h.threaded.distinct]
  rfl

/-- A walk at a cell answers its pair and goes on to the next one. -/
theorem next_chain (chain : Chain list.slots newer (cell :: cells) none) :
    Iter.next ⟨list, front (cell :: cells), cells.length + 1⟩ =
      .ok (some cell.pair, ⟨list, front cells, cells.length⟩) := by
  have hnode := node_eq_ok_iff.mpr chain.1
  rw [Option.or_none] at hnode
  simp only [Iter.next, front_cons, hnode]
  rfl

/-- The next steps of a walk answer the next pairs and lead behind them. -/
theorem take_chain (count : Nat) (chain : Chain list.slots newer cells none) :
    Iter.take count ⟨list, front cells, cells.length⟩ =
      .ok ((cells.take count).map Cell.pair,
        ⟨list, front (cells.drop count), cells.length - count⟩) := by
  induction count generalizing cells newer with
  | zero => rfl
  | succ count ih =>
    cases cells with
    | nil =>
      rw [List.take_nil, List.drop_nil, List.length_nil, Nat.zero_sub]
      rfl
    | cons cell cells =>
      rw [List.length_cons, Nat.add_sub_add_right, List.take_succ_cons, List.drop_succ_cons,
        Iter.take, next_chain chain]
      simp only [ih chain.2]
      rfl

/-- The pairs of a list are read in order, and the walk ends behind the last one. -/
theorem Represents.toList (h : list.Represents cells) :
    list.toList = .ok (cells.map Cell.pair) := by
  have hsize : list.size = cells.length := by rw [h.accounted.size, length_slots]
  have hwalk := take_chain (cells.length + 1) h.threaded.chain
  rw [List.take_of_length_le (Nat.le_succ _)] at hwalk
  rw [RecencyList.toList, iter, h.threaded.head, hsize, hwalk]
  rfl

end PeerCache.RecencyList
