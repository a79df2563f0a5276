import PeerCache.Cache.Shared
import PeerCache.Proofs.Cache.Conservation
import PeerCache.Proofs.Cache.Refinement

/-!
# The pairs of a shared cache

`Keeps shared pairs` says that a shared cache has a good lock and holds these pairs, most recently
used first. Since its hook does not fail, no operation of such a cache ends in a fault, and each
leaves a cache that keeps pairs again: `Keeps.get`, `Keeps.add`, `Keeps.remove` and `Keeps.contains`
say which, and what is answered.
-/

namespace PeerCache

variable {κ ν α : Type} [BEq κ]

/-! ## Pairs by key -/

namespace Cache

variable [Hashable κ] {store : PairStore κ ν} {cache : Cache κ ν}

/-- No key is held twice: without the first pair of a key there is none. -/
theorem Mirrors.others_eq (mirrors : Mirrors store cache) (key : κ) :
    store.others key = store.pairs.filter fun pair => pair.1 != key := by
  obtain ⟨cells, holds, pairs⟩ := mirrors.pairs
  have kept : ∀ {cells : List (Cell κ ν)}, (∀ cell ∈ cells, (cell.key == key) = false) →
      (cells.map Cell.pair).filter (fun pair => pair.1 != key) = cells.map Cell.pair := by
    intro cells others
    rw [List.filter_eq_self]
    intro pair mem
    obtain ⟨cell, there, rfl⟩ := List.mem_map.mp mem
    rw [bne, Bool.not_eq_true']
    exact others cell there
  cases holds.sought key with
  | absent _ others =>
    rw [PairStore.others, ← pairs, kept others, List.eraseP_eq_self_iff]
    intro pair mem
    obtain ⟨cell, there, rfl⟩ := List.mem_map.mp mem
    rw [Bool.not_eq_true]
    exact others cell there
  | @present front back cell mine _ others =>
    have leaves : (cell.key != key) = false := by rw [bne, mine]; rfl
    rw [(PairStore.find?_of_present pairs mine others).2, ← pairs, ← kept others]
    simp [Cell.pair, leaves]

end Cache

/-! ## The bound -/

namespace Cache

variable [Hashable κ] {β : Type} {cache : Cache κ ν} {key : κ} {value : ν}

/-- Whatever an operation does to the list of pairs, the bound is that of the cache it began with.
-/
theorem maxEntries_relink {change : RecencyList κ ν → Except SlotFault (RecencyList κ ν × β)}
    {next : Cache κ ν → β → CacheStep κ ν (Cache κ ν) α}
    (keeps : ∀ cache b, (next cache b).state.maxEntries = cache.maxEntries) :
    (cache.relink change next).state.maxEntries = cache.maxEntries := by
  obtain ⟨maxEntries, index, list, hook⟩ := cache
  simp only [relink]
  cases change list with
  | ok changed => exact keeps _ _
  | error fault => rfl

/-- To tell of a pair that has left does not touch the bound, whether or not the hook fails. -/
theorem maxEntries_notify {a : α} :
    (cache.notify key value a).state.maxEntries = cache.maxEntries := by
  unfold notify
  split <;> rfl

/-- A look-up keeps the bound of a cache. -/
theorem maxEntries_get : (cache.get key).state.maxEntries = cache.maxEntries := by
  unfold Cache.get
  split
  · rfl
  · exact maxEntries_relink fun _ _ => rfl

/-- To remove a key keeps the bound. -/
theorem maxEntries_remove : (cache.remove key).state.maxEntries = cache.maxEntries := by
  unfold Cache.remove
  split
  · rfl
  · exact maxEntries_relink fun _ _ => maxEntries_notify

theorem maxEntries_removeOldest : cache.removeOldest.state.maxEntries = cache.maxEntries := by
  unfold Cache.removeOldest
  split
  · rfl
  · exact maxEntries_relink fun _ _ => maxEntries_notify

/-- To give up the oldest pair where there is one too many keeps the bound. -/
theorem maxEntries_shrink : cache.shrink.state.maxEntries = cache.maxEntries := by
  unfold shrink
  split
  · simp only
    split <;> exact maxEntries_removeOldest
  · rfl

/-- To add a pair keeps the bound, whether the key was there or a pair has to leave for it. -/
theorem maxEntries_add : (cache.add key value).state.maxEntries = cache.maxEntries := by
  unfold Cache.add
  split
  · exact maxEntries_relink fun _ _ => rfl
  · exact maxEntries_relink fun _ _ => maxEntries_shrink

end Cache

/-! ## Keeping pairs -/

namespace SharedCache

variable [Hashable κ] {shared : SharedCache κ ν} {pairs : List (κ × ν)}

/-- The lock is good, and the cache holds these pairs, most recently used first. -/
structure Keeps (shared : SharedCache κ ν) (pairs : List (κ × ν)) : Prop where
  good : shared.poisoned = false
  mirrors : ∃ store : PairStore κ ν, store.pairs = pairs ∧ Cache.Mirrors store shared.cache

/-- A step that ends as one on a store of pairs does so under the lock as well. -/
theorem locked_of_agrees (run : Cache κ ν → CacheStep κ ν (Cache κ ν) α)
    (f : α → CacheAnswer κ ν) {step : PairStep κ ν} (good : shared.poisoned = false)
    (agrees : Cache.Agrees ((run shared.cache).mapAnswer f) step) :
    (shared.locked run).state.Keeps step.store.pairs ∧
      ∃ a, f a = step.answer ∧ (shared.locked run).answer = .ok a := by
  obtain ⟨a, done, same⟩ := agrees.answered
  simp only [locked, good, Bool.false_eq_true, if_false, done]
  exact ⟨⟨rfl, step.store, rfl, agrees.mirrors⟩, a, same, rfl⟩

/-- Whatever is done under the lock, the bound stays. -/
theorem maxEntries_locked {run : Cache κ ν → CacheStep κ ν (Cache κ ν) α}
    (same : ∀ cache, (run cache).state.maxEntries = cache.maxEntries) :
    (shared.locked run).state.cache.maxEntries = shared.cache.maxEntries := by
  unfold locked
  split
  · rfl
  · exact same shared.cache

/-- A look-up answers with the value of the first pair of its key, and leaves the same pairs in
another order at most. -/
theorem Keeps.get (keeps : shared.Keeps pairs) (key : κ) :
    ∃ pairs', (shared.get key).state.Keeps pairs' ∧ (∀ pair, pair ∈ pairs' ↔ pair ∈ pairs) ∧
      (shared.get key).answer = .ok ((pairs.find? (·.1 == key)).map Prod.snd) := by
  obtain ⟨good, store, rfl, mirrors⟩ := keeps
  obtain ⟨keeps, a, same, answer⟩ := locked_of_agrees (·.get key) .value good (mirrors.get key)
  refine ⟨_, keeps, ?_⟩
  change (shared.get key).answer = .ok a at answer
  rw [answer]
  change CacheAnswer.value a = _ at same
  change _ ∧ _ = Except.ok ((store.find? key).map Prod.snd)
  rw [PairStore.apply] at same ⊢
  cases found : store.find? key with
  | none =>
    rw [found] at same
    exact ⟨fun _ => Iff.rfl, congrArg _ (CacheAnswer.value.inj same)⟩
  | some pair =>
    rw [found] at same
    obtain ⟨-, front, back, split, others⟩ := PairStore.others_of_find? found
    refine ⟨fun other => ?_, congrArg _ (CacheAnswer.value.inj same)⟩
    simp only [PairStore.keep, others, split, List.mem_append, List.mem_cons]
    exact or_left_comm

variable [LawfulBEq κ]

/-- A new cache keeps no pairs. -/
theorem keeps_empty (maxEntries : Nat) : (empty maxEntries : SharedCache κ ν).Keeps [] :=
  ⟨rfl, .empty maxEntries, rfl, Cache.mirrors_empty maxEntries⟩

/-- After an addition all pairs are old ones but the one that was added. Some may be gone: its
former pair, or the oldest one. -/
theorem Keeps.add (keeps : shared.Keeps pairs) (key : κ) (value : ν) :
    ∃ pairs', (shared.add key value).state.Keeps pairs' ∧
      (∀ pair ∈ pairs', pair = (key, value) ∨ pair ∈ pairs) ∧
      (shared.add key value).answer = .ok () := by
  obtain ⟨good, store, rfl, mirrors⟩ := keeps
  obtain ⟨keeps, ⟨⟩, -, answer⟩ :=
    locked_of_agrees (·.add key value) (fun _ => .unit) good (mirrors.add key value)
  refine ⟨_, keeps, ?_, answer⟩
  rw [PairStore.apply]
  intro other mem
  cases found : store.find? key with
  | none =>
    rw [found] at mem
    simp only [PairStore.prepend] at mem
    split at mem
    · exact List.mem_cons.mp (List.dropLast_subset _ mem)
    · exact List.mem_cons.mp mem
  | some pair =>
    rw [found] at mem
    obtain ⟨mine, front, back, split, others⟩ := PairStore.others_of_find? found
    -- the former pair of the key is the one that is left out
    obtain rfl := eq_of_beq mine
    simp only [PairStore.keep, others, List.mem_cons] at mem
    refine mem.imp_right fun there => ?_
    rw [split]
    exact List.mem_append.mpr ((List.mem_append.mp there).imp_right (List.mem_cons_of_mem _))

/-- **A cache without a bound gives nothing up** for what is added to it. -/
theorem Keeps.add_unbounded (keeps : shared.Keeps pairs) (unbounded : shared.cache.maxEntries = 0)
    (key : κ) (value : ν) :
    ∃ pairs', (shared.add key value).state.Keeps pairs' ∧
      ∀ other, other ∈ pairs'.map Prod.fst ↔ other = key ∨ other ∈ pairs.map Prod.fst := by
  obtain ⟨good, store, rfl, mirrors⟩ := keeps
  obtain ⟨keeps, -⟩ :=
    locked_of_agrees (·.add key value) (fun _ => .unit) good (mirrors.add key value)
  refine ⟨_, keeps, fun other => ?_⟩
  rw [PairStore.apply]
  cases found : store.find? key with
  | none =>
    -- without a bound nothing leaves for the pair that is put in front
    have bound : store.maxEntries = 0 := mirrors.maxEntries.trans unbounded
    simp [PairStore.prepend, PairStore.keep, bound]
  | some pair =>
    obtain ⟨mine, front, back, split, others⟩ := PairStore.others_of_find? found
    obtain rfl := eq_of_beq mine
    simp only [PairStore.keep, others, split, List.map_cons, List.map_append, List.mem_cons,
      List.mem_append]
    tauto

/-- To remove a key takes away all pairs of it, of which there is at most one. -/
theorem Keeps.remove (keeps : shared.Keeps pairs) (key : κ) :
    (shared.remove key).state.Keeps (pairs.filter fun pair => pair.1 != key) ∧
      ∃ held, (shared.remove key).answer = .ok held := by
  obtain ⟨good, store, rfl, mirrors⟩ := keeps
  obtain ⟨keeps, a, -, answer⟩ := locked_of_agrees (·.remove key) .value good (mirrors.remove key)
  refine ⟨?_, a, answer⟩
  rw [← mirrors.others_eq]
  rw [PairStore.apply] at keeps
  cases found : store.find? key with
  | none =>
    rw [found] at keeps
    rw [PairStore.others, List.eraseP_of_forall_not (List.find?_eq_none.mp found)]
    exact keeps
  | some pair =>
    rw [found] at keeps
    exact keeps

/-- Whether a key is there is answered by the pairs. -/
theorem Keeps.contains (keeps : shared.Keeps pairs) (key : κ) :
    (shared.contains key).answer = .ok (pairs.any (·.1 == key)) := by
  obtain ⟨good, store, rfl, mirrors⟩ := keeps
  obtain ⟨-, a, same, answer⟩ := locked_of_agrees (fun cache => cache.finish (cache.contains key))
    .flag good (mirrors.contains key)
  have seen : a = store.pairs.any (·.1 == key) := by
    rw [← List.isSome_find?]
    exact CacheAnswer.flag.inj same
  exact answer.trans (congrArg _ seen)

end SharedCache

end PeerCache
