import Mathlib.Data.List.Induction
import Mathlib.Order.Bounds.Defs
import PeerCache.Proofs.Cache.Traversal

/-!
# The slots of a cache

A recency list makes a new slot only if no vacant one is left, and what leaves gives its slot back.
So every slot either holds a pair or is on the stack (`Accounted.slots_size`), an operation that
links one more pair needs as many slots as there have been or one more (`size_pushFront`), and
all others need none. `Linked` says how many slots have held pairs at some moment since a cache was
new or last emptied, the moment within an addition included at which both the new pair and the one
that has to go for it are linked. There are as many slots as the greatest of these numbers
(`slots_never_leak`).
-/

namespace PeerCache

variable {κ ν α β : Type}

namespace RecencyList

variable {list after : RecencyList κ ν} {held : List Nat} {slot : Nat} {entry : κ × ν}

/-! ## How many slots there are -/

/-- Slots that have been made are occupied or vacant; only those past the last are neither. -/
theorem occupancy_eq_none_iff {slots : Array (Option (LinkedEntry κ ν))} :
    occupancy slots slot = none ↔ slots.size ≤ slot := by
  rw [occupancy, Option.map_eq_none_iff, Array.getElem?_eq_none_iff]

/-- Every slot holds a pair or is vacant. -/
theorem Accounted.slots_size (accounted : Accounted list held) (distinct : held.Nodup) :
    list.slots.size = list.size + list.free.length := by
  have apart : (held ++ list.free).Nodup := by
    refine List.nodup_append.mpr ⟨distinct, accounted.free_nodup, ?_⟩
    intro slot mem other free same
    have occupied := (accounted.occupied slot).mp mem
    rw [same, (accounted.vacant other).mp free] at occupied
    cases occupied
  -- the two lists are disjoint, and every number of a slot is in one of them
  have perm : (List.range list.slots.size).Perm (held ++ list.free) := by
    rw [List.perm_ext_iff_of_nodup List.nodup_range apart]
    intro slot
    rw [List.mem_range, List.mem_append, accounted.occupied, accounted.vacant, ← Nat.not_le,
      ← occupancy_eq_none_iff]
    cases occupancy list.slots slot with
    | none => simp
    | some held => cases held <;> simp
  rw [accounted.size, ← List.length_append, ← perm.length_eq, List.length_range]

/-- A change of links happens in place: it neither makes a slot nor changes how many pairs are
counted. -/
theorem size_modify {change : LinkedEntry κ ν → LinkedEntry κ ν}
    (h : list.modify slot change = .ok after) :
    after.size = list.size ∧ after.slots.size = list.slots.size := by
  unfold modify at h
  split at h
  · obtain rfl := Except.ok.inj h
    exact ⟨rfl, Array.size_setIfInBounds⟩
  · cases h

/-- At the head it is the list that is changed, else a slot it has. -/
theorem slots_size_linkOlder {slot older : Option Nat} (h : list.linkOlder slot older = .ok after) :
    after.slots.size = list.slots.size := by
  cases slot with
  | none => exact Except.ok.inj h ▸ rfl
  | some slot => exact (size_modify h).2

theorem slots_size_linkNewer {slot newer : Option Nat} (h : list.linkNewer slot newer = .ok after) :
    after.slots.size = list.slots.size := by
  cases slot with
  | none => exact Except.ok.inj h ▸ rfl
  | some slot => exact (size_modify h).2

/-- Taking a pair out of its place changes the links around it and nothing else. -/
theorem slots_size_unlink (h : list.unlink slot = .ok after) :
    after.slots.size = list.slots.size := by
  rw [unlink_eq] at h
  obtain ⟨n, -, h⟩ := exists_of_bind_ok h
  obtain ⟨middle, older, newer⟩ := exists_of_bind_ok h
  exact (slots_size_linkNewer newer).trans (slots_size_linkOlder older)

/-- A pair that comes to the front stays in its slot. -/
theorem slots_size_moveToFront (h : list.moveToFront slot = .ok after) :
    after.slots.size = list.slots.size := by
  unfold moveToFront at h
  split at h
  · exact Except.ok.inj h ▸ rfl
  · obtain ⟨apart, unlinked, h⟩ := exists_of_bind_ok h
    obtain ⟨turned, turns, h⟩ := exists_of_bind_ok h
    refine Eq.trans ?_ ((size_modify turns).2.trans (slots_size_unlink unlinked))
    cases first : apart.head with
    | none =>
      rw [first] at h
      exact Except.ok.inj h ▸ rfl
    | some old =>
      rw [first] at h
      obtain ⟨joined, joins, h⟩ := exists_of_bind_ok h
      obtain rfl := Except.ok.inj h
      exact (size_modify joins).2

/-- A pair that leaves gives its slot back. -/
theorem slots_size_remove (h : list.remove slot = .ok (after, entry)) :
    after.slots.size = list.slots.size := by
  obtain ⟨apart, unlinked, h⟩ := exists_of_bind_ok h
  obtain ⟨n, -, h⟩ := exists_of_bind_ok h
  split at h
  · cases h
  · obtain ⟨rfl, -⟩ := Prod.mk.inj (Except.ok.inj h)
    exact Array.size_setIfInBounds.trans (slots_size_unlink unlinked)

/-- A pair is stored in a vacant slot, and in a new one only if there is none. -/
theorem size_store {stored : RecencyList κ ν} {n : LinkedEntry κ ν}
    (full : list.slots.size = list.size + list.free.length)
    (h : list.store n = .ok (stored, slot)) :
    stored.size = list.size ∧ stored.slots.size = max list.slots.size (list.size + 1) := by
  unfold store at h
  split at h
  · next vacant rest free =>
    split at h
    · obtain ⟨rfl, -⟩ := Prod.mk.inj (Except.ok.inj h)
      -- with a vacant slot there are more slots than pairs, so room for one more is there
      rw [free, List.length_cons] at full
      exact ⟨rfl, Array.size_setIfInBounds.trans (by omega)⟩
    · cases h
  · next free =>
    obtain ⟨rfl, -⟩ := Prod.mk.inj (Except.ok.inj h)
    -- without one there are just as many slots as pairs
    rw [free, List.length_nil] at full
    exact ⟨rfl, (Array.size_push _).trans (by omega)⟩

theorem size_joinFront {head : Option Nat} (h : list.joinFront head slot = .ok after) :
    after.size = list.size ∧ after.slots.size = list.slots.size := by
  cases head with
  | none => exact Except.ok.inj h ▸ ⟨rfl, rfl⟩
  | some old => exact size_modify h

/-- A new pair at the front takes a vacant slot, and a new one only if there is none. -/
theorem size_pushFront {key : κ} {value : ν}
    (full : list.slots.size = list.size + list.free.length)
    (h : list.pushFront key value = .ok (after, slot)) :
    after.size = list.size + 1 ∧ after.slots.size = max list.slots.size (list.size + 1) := by
  obtain ⟨⟨stored, place⟩, stores, h⟩ := exists_of_bind_ok h
  obtain ⟨joined, joins, h⟩ := exists_of_bind_ok h
  obtain ⟨rfl, -⟩ := Prod.mk.inj (Except.ok.inj h)
  obtain ⟨size, slots⟩ := size_store full stores
  obtain ⟨size', slots'⟩ := size_joinFront joins
  exact ⟨congrArg (· + 1) (size'.trans size), slots'.trans slots⟩

end RecencyList

namespace Cache

open RecencyList

variable [BEq κ] [Hashable κ] {cache : Cache κ ν} {op : CacheOp κ ν}

/-! ## One operation -/

/-- The list within an operation that links one more pair: the new pair is at the front, and none
has left for it yet. -/
def grown? (cache : Cache κ ν) : CacheOp κ ν → Option (RecencyList κ ν)
  | .add key value =>
    if cache.contains key then none else (cache.list.pushFront key value).toOption.map Prod.fst
  | _ => none

/-- The list within an addition has one more pair, and as many slots that hold one. -/
theorem Holds.size_grown? {cells : List (Cell κ ν)} {grown : RecencyList κ ν}
    (h : cache.Holds cells) (grows : cache.grown? op = some grown) :
    grown.size = cache.size + 1 ∧ occupied grown.slots = cache.size + 1 := by
  cases op with
  | add key value =>
    obtain ⟨list, slot, pushed, represents⟩ := h.list.pushFront key value
    rw [grown?, pushed] at grows
    split at grows
    · cases grows
    · obtain rfl := Option.some.inj grows
      have size : list.size = cache.size + 1 := by
        rw [represents.accounted.size, Cell.length_slots, List.length_cons, h.size]
      exact ⟨size, represents.wellLinked.size.symm.trans size⟩
  | _ => cases grows

/-- A step that finds every slot as it should be. -/
def OnTrack (step : CacheStep κ ν (Cache κ ν) α) : Prop :=
  ∀ fault, step.answer ≠ .error (.slot fault)

theorem OnTrack.of_mapAnswer {step : CacheStep κ ν (Cache κ ν) α} {f : α → β}
    (onTrack : OnTrack (step.mapAnswer f)) : OnTrack step :=
  fun fault failed => onTrack fault (congrArg (Except.map f) failed)

/-- A step on track got past its change of the list, so it is what comes after that change. -/
theorem OnTrack.relink {change : RecencyList κ ν → Except SlotFault (RecencyList κ ν × β)}
    {next : Cache κ ν → β → CacheStep κ ν (Cache κ ν) α}
    (onTrack : OnTrack (cache.relink change next)) :
    ∃ list b, change cache.list = .ok (list, b) ∧
      cache.relink change next = next { cache with list } b := by
  cases changed : change cache.list with
  | error fault =>
    refine absurd ?_ (onTrack fault)
    cases cache
    simp only [Cache.relink, changed]
  | ok changed' => exact ⟨_, _, rfl, relink_of_ok changed rfl⟩

/-- If neither the change of the list nor what comes then needs a slot, both together do not. -/
theorem slots_size_relink {change : RecencyList κ ν → Except SlotFault (RecencyList κ ν × β)}
    {next : Cache κ ν → β → CacheStep κ ν (Cache κ ν) α}
    (onTrack : OnTrack (cache.relink change next))
    (changes : ∀ list b, change cache.list = .ok (list, b) →
      list.slots.size = cache.list.slots.size)
    (keeps : ∀ cache b, (next cache b).state.list = cache.list) :
    (cache.relink change next).state.list.slots.size = cache.list.slots.size := by
  obtain ⟨list, b, changed, step⟩ := onTrack.relink
  rw [step, keeps]
  exact changes list b changed

/-- A hook is told of a pair after the list has let go of it, and cannot touch the list. -/
theorem list_notify (cache : Cache κ ν) (key : κ) (value : ν) (a : α) :
    (cache.notify key value a).state.list = cache.list := by
  unfold notify
  split <;> rfl

/-- A pair that is found only moves to the front. -/
theorem slots_size_get {key : κ} (onTrack : OnTrack (cache.get key)) :
    (cache.get key).state.list.slots.size = cache.list.slots.size := by
  unfold Cache.get at onTrack ⊢
  split
  · rfl
  · next slot index =>
    simp only [index] at onTrack
    refine slots_size_relink onTrack (fun list value changed => ?_) fun _ _ => rfl
    obtain ⟨moved, moves, changed⟩ := exists_of_bind_ok changed
    obtain ⟨n, -, changed⟩ := exists_of_bind_ok changed
    exact (Prod.mk.inj (Except.ok.inj changed)).1 ▸ slots_size_moveToFront moves

/-- Peeking reads the list and leaves the cache alone, even where a slot is not as it should be. -/
theorem state_peek (cache : Cache κ ν) (key : κ) : (cache.peek key).state = cache := by
  unfold Cache.peek
  split
  · rfl
  · split <;> rfl

theorem state_entries (cache : Cache κ ν) : (cache.apply .entries).state = cache := by
  simp only [Cache.apply]
  split <;> rfl

theorem slots_size_remove {key : κ} (onTrack : OnTrack (cache.remove key)) :
    (cache.remove key).state.list.slots.size = cache.list.slots.size := by
  unfold Cache.remove at onTrack ⊢
  split
  · rfl
  · next slot index =>
    simp only [index] at onTrack
    exact slots_size_relink onTrack (fun _ _ => RecencyList.slots_size_remove)
      fun _ _ => list_notify ..

theorem slots_size_removeOldest (onTrack : OnTrack cache.removeOldest) :
    cache.removeOldest.state.list.slots.size = cache.list.slots.size := by
  unfold Cache.removeOldest at onTrack ⊢
  split
  · rfl
  · next slot back =>
    simp only [back] at onTrack
    refine slots_size_relink onTrack (fun list b changed => ?_) fun _ _ => list_notify ..
    obtain ⟨n, -, changed⟩ := exists_of_bind_ok changed
    obtain ⟨⟨rest, entry⟩, removes, changed⟩ := exists_of_bind_ok changed
    exact (Prod.mk.inj (Except.ok.inj changed)).1 ▸ RecencyList.slots_size_remove removes

/-- Shrinking is a removal of the oldest pair or nothing. -/
theorem slots_size_shrink (onTrack : OnTrack cache.shrink) :
    cache.shrink.state.list.slots.size = cache.list.slots.size := by
  unfold shrink at onTrack ⊢
  split
  · next exceeds =>
    rw [if_pos exceeds] at onTrack
    have evicted : OnTrack cache.removeOldest := by
      intro fault failed
      simp only [failed] at onTrack
      exact onTrack fault rfl
    simp only
    split <;> exact slots_size_removeOldest evicted
  · rfl

variable [EquivBEq κ] [LawfulHashable κ]

/-- A key that is held keeps its slot. A new one is linked before the oldest pair goes, so it is the
list in between that decides whether a slot has to be made. -/
theorem slots_size_add {key : κ} {value : ν} (onTrack : OnTrack (cache.add key value))
    (full : cache.list.slots.size = cache.size + cache.list.free.length) :
    (cache.add key value).state.list.slots.size =
      max cache.list.slots.size ((cache.grown? (.add key value)).elim 0 RecencyList.size) := by
  unfold Cache.add at onTrack ⊢
  split
  · next slot index =>
    have there : cache.contains key = true := by
      rw [contains_eq, index]
      rfl
    simp only [index] at onTrack
    rw [grown?, if_pos there, Option.elim_none, Nat.max_zero]
    refine slots_size_relink onTrack (fun list b changed => ?_) fun _ _ => rfl
    obtain ⟨valued, values, changed⟩ := exists_of_bind_ok changed
    obtain ⟨moved, moves, changed⟩ := exists_of_bind_ok changed
    exact (Prod.mk.inj (Except.ok.inj changed)).1 ▸
      (slots_size_moveToFront moves).trans (size_modify values).2
  · next index =>
    have absent : ¬ cache.contains key = true := by
      rw [contains_eq, index]
      exact Bool.false_ne_true
    simp only [index] at onTrack
    obtain ⟨list, slot, pushed, step⟩ := onTrack.relink
    obtain ⟨size, slots⟩ := size_pushFront full pushed
    rw [step] at onTrack ⊢
    rw [slots_size_shrink onTrack, grown?, if_neg absent, pushed]
    show list.slots.size = max _ list.size
    rw [slots, size]

/-- **An operation that does not empty the cache makes slots for the list within it and for nothing
else.** -/
theorem slots_size_apply (onTrack : OnTrack (cache.apply op))
    (full : cache.list.slots.size = cache.size + cache.list.free.length) (stays : op ≠ .clear) :
    (cache.apply op).state.list.slots.size =
      max cache.list.slots.size ((cache.grown? op).elim 0 RecencyList.size) := by
  cases op with
  | add key value => exact slots_size_add onTrack.of_mapAnswer full
  | get key => exact (slots_size_get onTrack.of_mapAnswer).trans (Nat.max_zero _).symm
  | remove key => exact (slots_size_remove onTrack.of_mapAnswer).trans (Nat.max_zero _).symm
  | removeOldest => exact (slots_size_removeOldest onTrack.of_mapAnswer).trans (Nat.max_zero _).symm
  | clear => exact absurd rfl stays
  | peek key =>
    show (cache.peek key).state.list.slots.size = _
    rw [state_peek]
    exact (Nat.max_zero _).symm
  | entries =>
    rw [state_entries]
    exact (Nat.max_zero _).symm
  | contains | setHook | clearHook => exact (Nat.max_zero _).symm

/-! ## A run -/

/-- So many slots have held pairs at some moment since the cache was new or last emptied: before or
after an operation, or within an addition while both the new pair and the one that has to go for it
are linked. -/
inductive Linked (maxEntries : Nat) : List (CacheOp κ ν) → Nat → Prop
  | new : Linked maxEntries [] 0
  | within {ops : List (CacheOp κ ν)} {op : CacheOp κ ν} {list : RecencyList κ ν}
      (grows : ((empty maxEntries).after ops).grown? op = some list) :
      Linked maxEntries (ops ++ [op]) (occupied list.slots)
  | after (ops : List (CacheOp κ ν)) (op : CacheOp κ ν) :
      Linked maxEntries (ops ++ [op]) (occupied ((empty maxEntries).after (ops ++ [op])).list.slots)
  | before {ops : List (CacheOp κ ν)} {op : CacheOp κ ν} {count : Nat}
      (linked : Linked maxEntries ops count) (stays : op ≠ .clear) :
      Linked maxEntries (ops ++ [op]) count

/-- After any run every slot holds a pair or is vacant, since the list still stands for some cells.
-/
theorem slots_size_after (maxEntries : Nat) (ops : List (CacheOp κ ν)) :
    let cache := (empty maxEntries : Cache κ ν).after ops
    cache.list.slots.size = cache.size + cache.list.free.length := by
  obtain ⟨cells, holds⟩ := exists_holds_after maxEntries ops
  exact holds.list.accounted.slots_size holds.list.threaded.distinct

/-- One more operation of a run makes slots for the list within it and for nothing else. -/
theorem slots_size_after_concat (maxEntries : Nat) (ops : List (CacheOp κ ν))
    (stays : op ≠ .clear) :
    ((empty maxEntries : Cache κ ν).after (ops ++ [op])).list.slots.size =
      max ((empty maxEntries : Cache κ ν).after ops).list.slots.size
        ((((empty maxEntries : Cache κ ν).after ops).grown? op).elim 0 RecencyList.size) := by
  rw [after_concat]
  refine slots_size_apply (fun fault failed => ?_) (slots_size_after maxEntries ops) stays
  obtain ⟨text, raised⟩ := (consistent_after maxEntries ops).2 op _ failed
  cases raised

/-- A bound holds after every operation. It is read off the pairs in order, which the cache agrees
with in size whether its hooks fail or not. -/
theorem size_after_le (maxEntries : Nat) (bounded : maxEntries ≠ 0) (ops : List (CacheOp κ ν)) :
    ((empty maxEntries : Cache κ ν).after ops).size ≤ maxEntries := by
  have mirrors := mirrors_after_silenced maxEntries ops
  have size : ((empty maxEntries).after ops).size = _ := mirrors.sight.1
  have bound := mirrors.maxEntries.trans (maxEntries_after maxEntries ops)
  have fits := (PairStore.sound_after maxEntries (ops.map CacheOp.silenced)).bounded
  rw [PairStore.Exceeds, bound] at fits
  rw [size]
  omega

variable {maxEntries count : Nat} {ops : List (CacheOp κ ν)}

/-- Pairs that are linked at one time are in different slots, and slots are given up only when the
cache is emptied. By induction on the run, where the pairs within an addition are bounded by the
slots that the addition makes. -/
theorem Linked.le_slots_size (linked : Linked maxEntries ops count) :
    count ≤ ((empty maxEntries).after ops).list.slots.size := by
  induction linked with
  | new => exact Nat.zero_le _
  | @within ops op list grows =>
    have stays : op ≠ .clear := by
      rintro rfl
      cases grows
    -- as many pairs are linked within the addition as its list has, and slots are made for them
    obtain ⟨cells, holds⟩ := exists_holds_after maxEntries ops
    obtain ⟨size, held⟩ := holds.size_grown? grows
    rw [slots_size_after_concat maxEntries ops stays, grows, held, ← size]
    exact Nat.le_max_right ..
  | after ops op => exact Array.countP_le_size
  | @before ops op count linked stays ih =>
    rw [slots_size_after_concat maxEntries ops stays]
    exact Nat.le_trans ih (Nat.le_max_left ..)

/-- No more pairs are linked than the bound allows, and the one that is being added. -/
theorem Linked.le_bound (linked : Linked maxEntries ops count) (bounded : maxEntries ≠ 0) :
    count ≤ maxEntries + 1 := by
  induction linked with
  | new => exact Nat.zero_le _
  | @within ops op list grows =>
    obtain ⟨cells, holds⟩ := exists_holds_after maxEntries ops
    rw [(holds.size_grown? grows).2]
    exact Nat.succ_le_succ (size_after_le maxEntries bounded ops)
  | after ops op =>
    rw [← (consistent_after maxEntries (ops ++ [op])).1.list.size]
    exact Nat.le_succ_of_le (size_after_le maxEntries bounded _)
  | before linked stays ih => exact ih

/-- At some moment as many pairs have been linked as there are slots. -/
theorem linked_slots_size (maxEntries : Nat) (ops : List (CacheOp κ ν)) :
    Linked maxEntries ops ((empty maxEntries).after ops).list.slots.size := by
  induction ops using List.reverseRecOn with
  | nil => exact .new
  | append_singleton ops op ih =>
    by_cases stays : op = .clear
    · subst stays
      -- a cache that is emptied gives up its slots, so the moment after it has none
      obtain ⟨cells, holds⟩ := exists_holds_after maxEntries ops
      have emptied : ((empty maxEntries).after (ops ++ [.clear])).list = {} := by
        rw [after_concat, holds.state_clear]
        rfl
      have linked : Linked maxEntries (ops ++ [.clear]) _ := .after ops .clear
      rw [emptied] at linked ⊢
      exact linked
    · rw [slots_size_after_concat maxEntries ops stays]
      cases grows : ((empty maxEntries).after ops).grown? op with
      | none =>
        rw [Option.elim_none, Nat.max_zero]
        exact ih.before stays
      | some grown =>
        obtain ⟨cells, holds⟩ := exists_holds_after maxEntries ops
        obtain ⟨size, held⟩ := holds.size_grown? grows
        rcases Nat.le_total ((empty maxEntries).after ops).list.slots.size grown.size
          with more | few
        · rw [Option.elim_some, Nat.max_eq_right more, size, ← held]
          exact .within grows
        · rw [Option.elim_some, Nat.max_eq_left few]
          exact ih.before stays

/-- **No slot is lost.** A new cache of any bound is used in any way, with hooks that fail in any of
their calls. Then it has as many slots as have held pairs at one time, at the most, since it was new
or last emptied. The moment counts in which a new pair is linked and the one that has to go for
it still is. Every slot holds a pair or is on the stack of vacant ones, and with a bound there is at
most one slot more than pairs are allowed. -/
theorem slots_never_leak (maxEntries : Nat) (ops : List (CacheOp κ ν)) :
    let cache := (empty maxEntries : Cache κ ν).after ops
    IsGreatest {count | Linked maxEntries ops count} cache.list.slots.size ∧
      cache.list.slots.size = cache.size + cache.list.free.length ∧
      (maxEntries ≠ 0 → cache.list.slots.size ≤ maxEntries + 1) := by
  intro cache
  have peak := linked_slots_size maxEntries ops
  exact ⟨⟨peak, fun _ linked => linked.le_slots_size⟩, slots_size_after maxEntries ops,
    peak.le_bound⟩

/-- With room for one pair and a hook that fails whenever it is called, three keys pass through two
slots: two pairs are linked while the second key is added, and never more. -/
theorem slots_never_leak_reused_slot :
    let ops : List (CacheOp Nat String) :=
      [.setHook "first" fun _ _ _ => some "no", .add 1 "a", .add 2 "b", .add 3 "c"]
    let cache := (empty 1).after ops
    cache.list.slots.size ≤ 1 + 1 ∧ cache.list.free = [1] ∧ Linked 1 ops 2 ∧
      ∀ count, Linked 1 ops count → count ≤ 2 := by
  intro ops cache
  obtain ⟨⟨peak, most⟩, -, bound⟩ := slots_never_leak 1 ops
  have slots : cache.list.slots.size = 2 ∧ cache.list.free = [1] := by
    simp [ops, cache, Cache.after, Cache.apply, empty, setHook, finish, CacheStep.mapAnswer, add,
      relink, shrink, Cache.removeOldest, notify, size, pushFront, store, joinFront, back,
      RecencyList.node, RecencyList.remove, unlink, RecencyList.modify, bind, Except.bind, pure,
      Except.pure]
  exact ⟨bound (by decide), slots.2, slots.1 ▸ peak, fun _ linked => slots.1 ▸ most linked⟩

end Cache

end PeerCache
