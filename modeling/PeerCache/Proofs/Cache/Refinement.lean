import PeerCache.Proofs.Cache.Holds
import PeerCache.Proofs.Cache.PairStore

/-!
# A cache behaves as a list of pairs

`Mirrors store cache` relates a cache to the plain list of pairs it is meant to be: it holds cells
whose pairs are those of the store, and its hook, if any, has been called as often. Every operation
keeps the two related and is answered and reported alike (`Mirrors.apply`), as long as hooks do not
fail. So nothing that is seen of a cache on any run tells it from the store (`watch_eq_pairStore`).
-/

namespace PeerCache

variable {κ ν : Type}

/-- The hook never fails. -/
def Hook.Calm (hook : Hook κ ν) : Prop :=
  ∀ count key value, hook.reaction count key value = none

/-- The operation installs no hook that could fail. -/
def CacheOp.Calm : CacheOp κ ν → Prop
  | .setHook _ reaction => ∀ count key value, reaction count key value = none
  | _ => True

/-- What a store of pairs knows of a hook. -/
def Hook.standing (hook : Hook κ ν) : String × Nat :=
  (hook.tag, hook.calls)

/-- The hook after some more calls. -/
def Hook.called (hook : Hook κ ν) (count : Nat) : Hook κ ν :=
  { hook with calls := hook.calls + count }

variable [BEq κ]

/-! ## Seeking a key in the list -/

namespace PairStore

variable {store : PairStore κ ν} {cell : Cell κ ν} {cells xs ys : List (Cell κ ν)} {key : κ}

theorem find?_of_absent (hpairs : cells.map Cell.pair = store.pairs)
    (others : ∀ cell ∈ cells, (cell.key == key) = false) : store.find? key = none := by
  rw [find?, ← hpairs, List.find?_eq_none]
  intro pair hpair
  obtain ⟨cell, hcell, rfl⟩ := List.mem_map.mp hpair
  rw [Bool.not_eq_true]
  exact others cell hcell

/-- A key that one cell has is found there, and taking it out of the pairs is leaving out that cell.
-/
theorem find?_of_present (hpairs : (xs ++ cell :: ys).map Cell.pair = store.pairs)
    (hkey : (cell.key == key) = true) (others : ∀ other ∈ xs ++ ys, (other.key == key) = false) :
    store.find? key = some (cell.key, cell.value) ∧
      store.others key = (xs ++ ys).map Cell.pair := by
  have before : ∀ pair ∈ xs.map Cell.pair, ¬ (pair.1 == key) = true := by
    intro pair hpair
    obtain ⟨other, hother, rfl⟩ := List.mem_map.mp hpair
    rw [Bool.not_eq_true]
    exact others other (List.mem_append_left _ hother)
  rw [List.map_append, List.map_cons] at hpairs
  refine ⟨?_, ?_⟩
  · rw [find?, ← hpairs, List.find?_append, List.find?_eq_none.mpr before, Option.none_or]
    exact List.find?_cons_of_pos hkey
  · rw [PairStore.others, ← hpairs, List.eraseP_append_right _ before, List.map_append]
    exact congrArg _ (List.eraseP_cons_of_pos hkey)

end PairStore

/-! ## Telling a hook that does not fail -/

namespace Cache

variable [Hashable κ] {α β : Type} {cache cache' : Cache κ ν} {store : PairStore κ ν}
  {cells : List (Cell κ ν)} {key : κ} {value : ν}

/-- A step that tells the hook of pairs that are gone, then answers. -/
def told (cache : Cache κ ν) (gone : List (κ × ν)) (a : α) : CacheStep κ ν (Cache κ ν) α :=
  { state := { cache with hook := cache.hook.map (·.called gone.length) }
    answer := .ok a
    reports := tellings (cache.hook.map Hook.standing) gone }

/-- Telling of no pairs is an answer at once. -/
theorem told_nil (cache : Cache κ ν) (a : α) : cache.told [] a = cache.finish a := by
  obtain ⟨maxEntries, index, list, _ | hook⟩ := cache
  · rfl
  · rfl

/-- A hook that does not fail lets the step go on to its answer. -/
theorem notify_eq_told (calm : ∀ hook ∈ cache.hook, hook.Calm) (key : κ) (value : ν) (a : α) :
    cache.notify key value a = cache.told [(key, value)] a := by
  obtain ⟨maxEntries, index, list, _ | hook⟩ := cache
  · rfl
  · have hcalm := calm hook rfl (hook.calls + 1) key value
    simp only [notify, hcalm]
    rfl

/-- Pairs are told of one after the other. -/
theorem told_cons (cache : Cache κ ν) (pair : κ × ν) (gone : List (κ × ν)) :
    cache.told (pair :: gone) () =
      { (cache.told [pair] ()).state.told gone () with
        reports := (cache.told [pair] ()).reports ++
          ((cache.told [pair] ()).state.told gone ()).reports } := by
  obtain ⟨maxEntries, index, list, _ | hook⟩ := cache
  · rfl
  · -- the calls are counted from the first pair on
    have hcalls : hook.calls + (gone.length + 1) = hook.calls + 1 + gone.length := by omega
    simp only [told, Hook.called, Hook.standing, Option.map_some, List.length_cons, hcalls]
    rfl

/-- All pairs are told of, by induction on them. The hook after a call is the same one with a higher
count, so it fails as little as before. -/
theorem notifyAll_eq_told (calm : ∀ hook ∈ cache.hook, hook.Calm) (gone : List (κ × ν)) :
    cache.notifyAll gone = cache.told gone () := by
  induction gone generalizing cache with
  | nil => exact (told_nil cache ()).symm
  | cons pair gone ih =>
    -- the hook is still the same one after a call
    have hrest : ∀ hook ∈ (cache.told [pair] ()).state.hook, hook.Calm := by
      intro hook hhook
      obtain ⟨former, hformer, rfl⟩ := Option.map_eq_some_iff.mp hhook
      exact calm former hformer
    rw [told_cons, ← ih hrest, notifyAll, notify_eq_told calm]
    rfl

/-! ## The relation -/

/-- The store has the pairs that the cache holds, and hooks that stand alike. -/
structure Mirrors (store : PairStore κ ν) (cache : Cache κ ν) : Prop where
  pairs : ∃ cells, cache.Holds cells ∧ cells.map Cell.pair = store.pairs
  maxEntries : store.maxEntries = cache.maxEntries
  hook : store.hook = cache.hook.map Hook.standing
  calm : ∀ hook ∈ cache.hook, hook.Calm

/-- A step on a cache and one on a store end alike. -/
structure Agrees (step : CacheStep κ ν (Cache κ ν) (CacheAnswer κ ν)) (step' : PairStep κ ν) :
    Prop where
  mirrors : Mirrors step'.store step.state
  answer : step.answer = .ok step'.answer
  reports : step.reports = step'.reports

/-- A step whose answer agrees when it is changed has an answer. -/
theorem Agrees.answered {step : CacheStep κ ν (Cache κ ν) α} {step' : PairStep κ ν}
    {f : α → CacheAnswer κ ν} (agrees : Agrees (step.mapAnswer f) step') :
    ∃ a, step.answer = .ok a ∧ f a = step'.answer := by
  have answer : step.answer.map f = .ok step'.answer := agrees.answer
  cases done : step.answer with
  | error fault => rw [done] at answer; cases answer
  | ok a =>
    rw [done] at answer
    exact ⟨a, rfl, Except.ok.inj answer⟩

theorem Mirrors.rest (mirrors : Mirrors store cache) (answer : CacheAnswer κ ν) :
    Agrees (cache.finish answer) (store.rest answer) :=
  ⟨mirrors, rfl, rfl⟩

/-- Pairs that leave a cache are reported as they are when they leave the store. -/
theorem Mirrors.keep (mirrors : Mirrors store cache) (holds : cache'.Holds cells)
    (hmax : cache'.maxEntries = cache.maxEntries) (hhook : cache'.hook = cache.hook)
    (gone : List (κ × ν)) (answer : CacheAnswer κ ν) :
    Agrees (cache'.told gone answer) (store.keep (cells.map Cell.pair) gone answer) := by
  have hstanding : store.hook = cache'.hook.map Hook.standing := by rw [mirrors.hook, hhook]
  refine ⟨⟨⟨cells, ⟨holds.list, holds.index⟩, rfl⟩, mirrors.maxEntries.trans hmax.symm, ?_, ?_⟩,
    rfl, ?_⟩
  · show store.hook.map _ = (cache'.hook.map _).map _
    rw [hstanding, Option.map_map, Option.map_map]
    rfl
  · intro hook hmem
    obtain ⟨former, hformer, rfl⟩ := Option.map_eq_some_iff.mp hmem
    rw [hhook] at hformer
    exact mirrors.calm former hformer
  · show tellings _ _ = tellings _ _
    rw [hstanding]

/-- A cache looks like its store: it has the same pairs, in the same order, and the same number of
them. -/
theorem Mirrors.sight (mirrors : Mirrors store cache) :
    cache.size = store.pairs.length ∧ cache.isEmpty = store.pairs.isEmpty ∧
      cache.toList = .ok store.pairs := by
  obtain ⟨cells, holds, hpairs⟩ := mirrors.pairs
  have hsize : cache.size = store.pairs.length := by rw [holds.size, ← hpairs, List.length_map]
  refine ⟨hsize, ?_, hpairs ▸ holds.toList⟩
  show (cache.size == 0) = _
  rw [hsize]
  cases store.pairs <;> rfl

/-! ## One operation -/

/-- A key that is found comes to the front on either side. -/
theorem Mirrors.get (mirrors : Mirrors store cache) (key : κ) :
    Agrees (cache.apply (.get key)) (store.apply (.get key)) := by
  obtain ⟨cells, holds, hpairs⟩ := mirrors.pairs
  cases holds.sought key with
  | absent index others =>
    simp only [Cache.apply, PairStore.apply, Cache.get, index,
      PairStore.find?_of_absent hpairs others]
    exact mirrors.rest (.value none)
  | present hkey index others =>
    -- nobody leaves, so the hook is told of no pairs
    obtain ⟨hfind, hothers⟩ := PairStore.find?_of_present hpairs hkey others
    obtain ⟨list, hget, holds'⟩ := holds.get index
    simp only [Cache.apply, PairStore.apply, hfind, hothers, hget, ← told_nil]
    exact mirrors.keep holds' rfl rfl [] _

/-- A key is found on both sides or on neither, and stays where it is. -/
theorem Mirrors.peek (mirrors : Mirrors store cache) (key : κ) :
    Agrees (cache.apply (.peek key)) (store.apply (.peek key)) := by
  obtain ⟨cells, holds, hpairs⟩ := mirrors.pairs
  cases holds.sought key with
  | absent index others =>
    simp only [Cache.apply, PairStore.apply, Cache.peek, index,
      PairStore.find?_of_absent hpairs others]
    exact mirrors.rest (.value none)
  | present hkey index others =>
    obtain ⟨hfind, -⟩ := PairStore.find?_of_present hpairs hkey others
    simp only [Cache.apply, PairStore.apply, hfind, holds.peek index]
    exact mirrors.rest _

theorem Mirrors.entries (mirrors : Mirrors store cache) :
    Agrees (cache.apply .entries) (store.apply .entries) := by
  obtain ⟨cells, holds, hpairs⟩ := mirrors.pairs
  simp only [Cache.apply, PairStore.apply, holds.toList, hpairs]
  exact mirrors.rest _

/-- A new hook starts its count at nothing on both sides. It must not fail, since a store has no way
to. -/
theorem Mirrors.setHook (mirrors : Mirrors store cache) {tag : String}
    {reaction : Nat → κ → ν → Option String}
    (calm : ∀ count key value, reaction count key value = none) :
    Agrees (cache.apply (.setHook tag reaction)) (store.apply (.setHook tag reaction)) := by
  obtain ⟨cells, holds, hpairs⟩ := mirrors.pairs
  refine ⟨⟨⟨cells, ⟨holds.list, holds.index⟩, hpairs⟩, mirrors.maxEntries, rfl, ?_⟩, rfl, rfl⟩
  intro hook hhook
  obtain rfl := Option.some.inj hhook
  exact calm

/-- Without a hook the two are still related: the pairs stay. -/
theorem Mirrors.clearHook (mirrors : Mirrors store cache) :
    Agrees (cache.apply .clearHook) (store.apply .clearHook) := by
  obtain ⟨cells, holds, hpairs⟩ := mirrors.pairs
  exact ⟨⟨⟨cells, ⟨holds.list, holds.index⟩, hpairs⟩, mirrors.maxEntries, rfl, nofun⟩, rfl, rfl⟩

variable [EquivBEq κ] [LawfulHashable κ]

theorem mirrors_empty (maxEntries : Nat) :
    Mirrors (PairStore.empty maxEntries) (empty maxEntries : Cache κ ν) :=
  ⟨⟨[], holds_empty maxEntries, rfl⟩, rfl, rfl, nofun⟩

theorem Mirrors.contains (mirrors : Mirrors store cache) (key : κ) :
    Agrees (cache.apply (.contains key)) (store.apply (.contains key)) := by
  obtain ⟨cells, holds, hpairs⟩ := mirrors.pairs
  simp only [Cache.apply, PairStore.apply, contains_eq]
  cases holds.sought key with
  | absent index others =>
    rw [index, PairStore.find?_of_absent hpairs others]
    exact mirrors.rest _
  | present hkey index others =>
    rw [index, (PairStore.find?_of_present hpairs hkey others).1]
    exact mirrors.rest _

/-- A pair that is removed leaves both, and the hook is told of it. -/
theorem Mirrors.remove (mirrors : Mirrors store cache) (key : κ) :
    Agrees (cache.apply (.remove key)) (store.apply (.remove key)) := by
  obtain ⟨cells, holds, hpairs⟩ := mirrors.pairs
  cases holds.sought key with
  | absent index others =>
    simp only [Cache.apply, PairStore.apply, Cache.remove, index,
      PairStore.find?_of_absent hpairs others]
    exact mirrors.rest (.value none)
  | present hkey index others =>
    obtain ⟨hfind, hothers⟩ := PairStore.find?_of_present hpairs hkey others
    obtain ⟨list, hremove, holds'⟩ := holds.remove hkey index
    have htold := hremove.trans (notify_eq_told (by exact mirrors.calm) _ _ _)
    simp only [Cache.apply, PairStore.apply, hfind, hothers, htold]
    exact mirrors.keep holds' rfl rfl _ _

/-- The pairs leave in their order, so the hooks are told of them in the same order. -/
theorem Mirrors.clear (mirrors : Mirrors store cache) :
    Agrees (cache.apply .clear) (store.apply .clear) := by
  obtain ⟨cells, holds, hpairs⟩ := mirrors.pairs
  obtain ⟨hclear, holds'⟩ := holds.clear
  have htold := hclear.trans (notifyAll_eq_told (by exact mirrors.calm) _)
  simp only [Cache.apply, PairStore.apply, htold, hpairs]
  exact mirrors.keep holds' rfl rfl _ _

/-- The oldest pair is the last one of the list. With none there both answer that there is none. -/
theorem Mirrors.removeOldest (mirrors : Mirrors store cache) :
    Agrees (cache.apply .removeOldest) (store.apply .removeOldest) := by
  obtain ⟨cells, holds, hpairs⟩ := mirrors.pairs
  simp only [Cache.apply, PairStore.apply, ← hpairs]
  rcases List.eq_nil_or_concat cells with rfl | ⟨init, last, rfl⟩
  · rw [holds.removeOldest_nil, ← told_nil]
    exact mirrors.keep holds rfl rfl [] _
  · rw [List.concat_eq_append] at *
    obtain ⟨list, hremove, holds'⟩ := holds.removeOldest
    have htold := hremove.trans (notify_eq_told (by exact mirrors.calm) _ _ _)
    rw [htold, List.map_append, List.map_singleton, List.dropLast_concat,
      List.getLast?_concat]
    exact mirrors.keep holds' rfl rfl _ _

/-- After a pair has been put at the front, the last one leaves if the bound is passed. -/
theorem Mirrors.shrink (mirrors : Mirrors store cache) (holds : cache'.Holds cells)
    (hmax : cache'.maxEntries = cache.maxEntries) (hhook : cache'.hook = cache.hook)
    (hcells : cells.map Cell.pair = (key, value) :: store.pairs) :
    Agrees (cache'.shrink.mapAnswer fun () => .unit) (store.prepend key value) := by
  have hsize : cache'.size = ((key, value) :: store.pairs).length := by
    rw [holds.size, ← hcells, List.length_map]
  have hbound : store.maxEntries = cache'.maxEntries := mirrors.maxEntries.trans hmax.symm
  rw [PairStore.prepend, Cache.shrink, hsize, hbound, ← hcells]
  split
  · -- there is a last pair, since one has just been put in
    rcases List.eq_nil_or_concat cells with rfl | ⟨init, last, rfl⟩
    · cases hcells
    · rw [List.concat_eq_append] at *
      obtain ⟨list, hremove, holds'⟩ := holds.removeOldest
      have htold := hremove.trans (notify_eq_told (by rw [hhook]; exact mirrors.calm) _ _ _)
      have hkeep := mirrors.keep holds' hmax hhook [last.pair] .unit
      rw [htold, List.map_append, List.map_singleton, List.dropLast_concat, List.getLast?_concat]
      exact ⟨hkeep.mirrors, rfl, hkeep.reports⟩
  · rw [← told_nil]
    exact mirrors.keep holds hmax hhook [] .unit

/-- A new key comes in at the front and may push the last pair out. One that is there takes the
value and comes to the front; the key of the pair stays the one it had. -/
theorem Mirrors.add (mirrors : Mirrors store cache) (key : κ) (value : ν) :
    Agrees (cache.apply (.add key value)) (store.apply (.add key value)) := by
  obtain ⟨cells, holds, hpairs⟩ := mirrors.pairs
  cases holds.sought key with
  | absent index others =>
    obtain ⟨list, slot, hadd, holds'⟩ := holds.add_absent index others value
    simp only [Cache.apply, PairStore.apply, PairStore.find?_of_absent hpairs others, hadd]
    exact mirrors.shrink holds' rfl rfl (congrArg _ hpairs)
  | present hkey index others =>
    obtain ⟨hfind, hothers⟩ := PairStore.find?_of_present hpairs hkey others
    obtain ⟨list, hadd, holds'⟩ := holds.add_present index value
    simp only [Cache.apply, PairStore.apply, hfind, hothers, hadd, ← told_nil]
    exact mirrors.keep holds' rfl rfl [] _

/-- Whatever is done to a cache and to the store it mirrors, it is answered and reported alike, and
they mirror each other afterwards. -/
theorem Mirrors.apply (mirrors : Mirrors store cache) {op : CacheOp κ ν} (calm : op.Calm) :
    Agrees (cache.apply op) (store.apply op) := by
  cases op with
  | add key value => exact mirrors.add key value
  | get key => exact mirrors.get key
  | peek key => exact mirrors.peek key
  | contains key => exact mirrors.contains key
  | remove key => exact mirrors.remove key
  | removeOldest => exact mirrors.removeOldest
  | clear => exact mirrors.clear
  | setHook tag reaction => exact mirrors.setHook calm
  | clearHook => exact mirrors.clearHook
  | entries => exact mirrors.entries

/-! ## A run -/

/-- By induction on the operations: each is seen alike, and the two are related after it. -/
theorem Mirrors.watch (mirrors : Mirrors store cache) (ops : List (CacheOp κ ν))
    (calm : ∀ op ∈ ops, op.Calm) : cache.watch ops = store.watch ops := by
  induction ops generalizing store cache with
  | nil => rfl
  | cons op ops ih =>
    rw [List.forall_mem_cons] at calm
    obtain ⟨mirrors', hanswer, hreports⟩ := mirrors.apply calm.1
    obtain ⟨hsize, hempty, hpairs⟩ := mirrors'.sight
    simp only [Cache.watch, PairStore.watch, hanswer, hreports, hsize, hempty, hpairs,
      ih mirrors' calm.2]

/-- **A cache behaves as a list of pairs.** Whatever the bound, and whatever is done to a new cache
with hooks that do not fail: every operation answers what the plain list of pairs answers, tells the
hook installed then of the same pairs, and leaves the same pairs in the same order. -/
theorem watch_eq_pairStore (maxEntries : Nat) (ops : List (CacheOp κ ν))
    (calm : ∀ op ∈ ops, op.Calm) :
    (empty maxEntries : Cache κ ν).watch ops = (PairStore.empty maxEntries).watch ops :=
  (mirrors_empty maxEntries).watch ops calm

/-- With room for one pair the second one pushes the first one out. Each hook is told of what leaves
while it is installed. -/
theorem watch_eq_pairStore_replaced_hook :
    ((empty 1 : Cache Nat String).watch [.setHook "old" fun _ _ _ => none, .add 1 "a", .add 2 "b",
      .add 2 "c", .setHook "new" fun _ _ _ => none, .get 2, .clear]).map Sight.reports =
      [[], [], [⟨"old", 1, 1, "a"⟩], [], [], [], [⟨"new", 1, 2, "c"⟩]] := by
  rw [watch_eq_pairStore 1 _ (by simp [CacheOp.Calm])]
  rfl

end Cache

end PeerCache
