import PeerCache.Proofs.Cache.Conservation
import PeerCache.Proofs.Cache.Refinement

/-!
# The course of a cache

A cache and a store of pairs after a run of operations, each on what the one before it left. On
every run from nothing the store stays sound (`PairStore.sound_after`), and as long as hooks do not
fail the cache mirrors it (`Cache.mirrors_after`).
-/

namespace PeerCache

variable {κ ν : Type} [BEq κ]

/-! ## Stores of pairs -/

namespace PairStore

variable {store : PairStore κ ν}

/-- The store at the end of a run. -/
def after (store : PairStore κ ν) (ops : List (CacheOp κ ν)) : PairStore κ ν :=
  ops.foldl (fun store op => (store.apply op).store) store

@[simp] theorem after_nil (store : PairStore κ ν) : store.after [] = store := rfl

@[simp] theorem after_cons (store : PairStore κ ν) (op : CacheOp κ ν) (ops : List (CacheOp κ ν)) :
    store.after (op :: ops) = (store.apply op).store.after ops := rfl

/-- The last operation of a run is applied to what the ones before it leave. -/
theorem after_concat (store : PairStore κ ν) (ops : List (CacheOp κ ν)) (op : CacheOp κ ν) :
    store.after (ops ++ [op]) = ((store.after ops).apply op).store := by
  rw [after, List.foldl_append]
  rfl

/-- By induction on the operations, each of which keeps the store sound. -/
theorem Sound.after [EquivBEq κ] (sound : store.Sound) (ops : List (CacheOp κ ν)) :
    (store.after ops).Sound := by
  induction ops generalizing store with
  | nil => exact sound
  | cons op ops ih => exact ih (sound.apply op)

/-- A store is sound after any use from nothing on. -/
theorem sound_after [EquivBEq κ] (maxEntries : Nat) (ops : List (CacheOp κ ν)) :
    ((empty maxEntries).after ops).Sound :=
  (sound_empty maxEntries).after ops

/-- No operation changes the bound. -/
theorem maxEntries_after [EquivBEq κ] (sound : store.Sound) (ops : List (CacheOp κ ν)) :
    (store.after ops).maxEntries = store.maxEntries := by
  induction ops generalizing store with
  | nil => rfl
  | cons op ops ih => exact (ih (sound.apply op)).trans (sound.apply_eq op).2.1

end PairStore

/-! ## Caches -/

namespace Cache

variable [Hashable κ] {store : PairStore κ ν} {cache : Cache κ ν}

/-- The cache at the end of a run. -/
def after (cache : Cache κ ν) (ops : List (CacheOp κ ν)) : Cache κ ν :=
  ops.foldl (fun cache op => (cache.apply op).state) cache

@[simp] theorem after_nil (cache : Cache κ ν) : cache.after [] = cache := rfl

@[simp] theorem after_cons (cache : Cache κ ν) (op : CacheOp κ ν) (ops : List (CacheOp κ ν)) :
    cache.after (op :: ops) = (cache.apply op).state.after ops := rfl

theorem after_concat (cache : Cache κ ν) (ops : List (CacheOp κ ν)) (op : CacheOp κ ν) :
    cache.after (ops ++ [op]) = ((cache.after ops).apply op).state := by
  rw [after, List.foldl_append]
  rfl

variable [EquivBEq κ] [LawfulHashable κ]

/-- What a read or a removal finds in a cache is what is found in the store it mirrors. -/
theorem Mirrors.finds (mirrors : Mirrors store cache) (key : κ) :
    (cache.get key).answer = .ok ((store.find? key).map Prod.snd) ∧
      (cache.peek key).answer = .ok ((store.find? key).map Prod.snd) ∧
      cache.contains key = (store.find? key).isSome ∧
      (cache.remove key).answer = .ok ((store.find? key).map Prod.snd) := by
  obtain ⟨got, get, gotten⟩ := (mirrors.get key).answered
  obtain ⟨seen, peek, peeked⟩ := (mirrors.peek key).answered
  obtain ⟨removed, remove, gone⟩ := (mirrors.remove key).answered
  rw [get, peek, remove]
  refine ⟨?_, ?_, ?_, ?_⟩
  · rw [PairStore.apply] at gotten
    split at gotten
    all_goals next found => rw [found]; exact congrArg _ (CacheAnswer.value.inj gotten)
  · exact congrArg _ (CacheAnswer.value.inj peeked)
  · exact CacheAnswer.flag.inj (Except.ok.inj (mirrors.contains key).answer)
  · rw [PairStore.apply] at gone
    split at gone
    all_goals next found => rw [found]; exact congrArg _ (CacheAnswer.value.inj gone)

/-- By induction on the operations, each of which keeps the two related as long as it installs no
hook that could fail. -/
theorem Mirrors.after (mirrors : Mirrors store cache) {ops : List (CacheOp κ ν)}
    (calm : ∀ op ∈ ops, op.Calm) : Mirrors (store.after ops) (cache.after ops) := by
  induction ops generalizing store cache with
  | nil => exact mirrors
  | cons op ops ih =>
    rw [List.forall_mem_cons] at calm
    exact ih (mirrors.apply calm.1).mirrors calm.2

theorem mirrors_after (maxEntries : Nat) {ops : List (CacheOp κ ν)} (calm : ∀ op ∈ ops, op.Calm) :
    Mirrors ((PairStore.empty maxEntries).after ops) ((empty maxEntries).after ops) :=
  (mirrors_empty maxEntries).after calm

end Cache

end PeerCache
