import PeerCache.Cache.Shared
import PeerCache.Proofs.Cache.FailingHook

/-!
# A cache behind its lock

An operation on a shared cache is the same operation on the plain cache, run while the lock is held
(`SharedCache.apply_eq`), and the lock stays poisoned just when it ends in a fault
(`SharedCache.watch_cons`). Of a cache in use that is so just when a call of the hook fails
(`Cache.InUse.exists_fault_iff`). So what is seen of a shared cache is what is seen of the plain one
up to and including the first operation whose hook fails, and a refusal of everything after that
(`Cache.watch_eq_guarded`).
-/

namespace PeerCache

variable {κ ν α β γ : Type}

/-! ## Answers -/

namespace CacheStep

variable {σ : Type}

theorem mapAnswer_mapAnswer (step : CacheStep κ ν σ α) (f : α → β) (g : β → γ) :
    (step.mapAnswer f).mapAnswer g = step.mapAnswer (g ∘ f) := by
  obtain ⟨⟨state, _ | _, events⟩, reports⟩ := step
  · rfl
  · rfl

/-- A fault is passed on as it is, so a step ends in one before just when it does after. -/
theorem mapAnswer_eq_error_iff {step : CacheStep κ ν σ α} {f : α → β} {fault : Fault} :
    (step.mapAnswer f).answer = .error fault ↔ step.answer = .error fault := by
  rw [mapAnswer]
  cases step.answer with
  | ok answer => simp only [Except.map, reduceCtorEq]
  | error stopped => simp only [Except.map, Except.error.injEq]

end CacheStep

/-- The answer as a shared cache gives it; of a list of pairs it tells how many there are. -/
def CacheAnswer.shared : CacheAnswer κ ν → SharedCacheAnswer κ ν
  | .unit => .unit
  | .value held => .value held
  | .flag held => .flag held
  | .entry held => .entry held
  | .entries held => .number held.length

/-- The operation that does the same and is not only for shared caches. -/
def SharedCacheOp.plain? : SharedCacheOp κ ν → Option (CacheOp κ ν)
  | .add key value => some (.add key value)
  | .get key => some (.get key)
  | .contains key => some (.contains key)
  | .remove key => some (.remove key)
  | .removeOldest => some .removeOldest
  | .clear => some .clear
  | .setHook tag reaction => some (.setHook tag reaction)
  | .size | .isEmpty => none

variable [BEq κ] [Hashable κ]

/-! ## The plain cache, as far as it goes -/

namespace Cache

variable {cache : Cache κ ν} {op : SharedCacheOp κ ν}

/-- What can be done to a plain cache too is done in the same way, and only its answer is put
differently. -/
theorem applyShared_of_plain (cache : Cache κ ν) {plain : CacheOp κ ν}
    (same : op.plain? = some plain) :
    cache.applyShared op = (cache.apply plain).mapAnswer CacheAnswer.shared := by
  cases op with
  | size => cases same
  | isEmpty => cases same
  | _ =>
    obtain rfl := Option.some.inj same
    simp only [applyShared, Cache.apply, CacheStep.mapAnswer_mapAnswer]
    rfl

/-- What cannot be is a question that changes nothing and does not fail. -/
theorem applyShared_of_none (cache : Cache κ ν) (none : op.plain? = none) :
    ∃ answer, cache.applyShared op = cache.finish answer := by
  cases op with
  | size => exact ⟨_, rfl⟩
  | isEmpty => exact ⟨_, rfl⟩
  | _ => cases none

/-- Whether a call of the hook fails in the course of an operation. -/
def hookFails (cache : Cache κ ν) (op : SharedCacheOp κ ν) : Bool :=
  cache.hook.any fun hook =>
    (cache.applyShared op).reports.any fun report => (report.failure? hook.reaction).isSome

/-- A hook fails if one is installed and one of the calls that are made is one it fails in. -/
theorem hookFails_iff :
    cache.hookFails op ↔ ∃ hook text, cache.hook = some hook ∧
      ∃ report ∈ (cache.applyShared op).reports, report.failure? hook.reaction = some text := by
  simp only [hookFails, Option.any_eq_true, List.any_eq_true, Option.isSome_iff_exists]
  constructor
  · rintro ⟨hook, installed, report, told, text, fails⟩
    exact ⟨hook, text, installed, report, told, fails⟩
  · rintro ⟨hook, text, installed, report, told, fails⟩
    exact ⟨hook, installed, report, told, text, fails⟩

/-- An operation that is refused: the cache stays as it is, and nobody is told of anything. -/
def refusal (cache : Cache κ ν) : CacheStep κ ν (Cache κ ν) (SharedCacheAnswer κ ν) :=
  { state := cache, answer := .error (.poisoned .cache) }

/-- What is to be seen of operations one after the other: those on the plain cache, up to and
including the first one whose hook fails, and refusals from then on. -/
def guarded (cache : Cache κ ν) :
    List (SharedCacheOp κ ν) → List (CacheStep κ ν (Cache κ ν) (SharedCacheAnswer κ ν))
  | [] => []
  | op :: ops =>
    let step := cache.applyShared op
    step :: if cache.hookFails op then ops.map fun _ => step.state.refusal
      else step.state.guarded ops

end Cache

/-! ## The shared cache -/

namespace SharedCache

/-- What is done to an answer does not matter for the lock, which looks only at whether there is
one. -/
theorem mapAnswer_locked (shared : SharedCache κ ν)
    (run : Cache κ ν → CacheStep κ ν (Cache κ ν) α) (f : α → β) :
    (shared.locked run).mapAnswer f = shared.locked fun cache => (run cache).mapAnswer f := by
  obtain ⟨cache, _ | _⟩ := shared
  · simp only [locked, Bool.false_eq_true, if_false, CacheStep.mapAnswer]
    cases (run cache).answer <;> rfl
  · rfl

/-- Every operation is the one on the plain cache, under the lock. -/
theorem apply_eq (shared : SharedCache κ ν) (op : SharedCacheOp κ ν) :
    shared.apply op = shared.locked (·.applyShared op) := by
  cases op <;> exact mapAnswer_locked shared _ _

/-- What is seen of operations on a shared cache, one after the other: the cache that each of them
leaves behind the lock, what it answers, and of what the hook is told. -/
def watch (shared : SharedCache κ ν) :
    List (SharedCacheOp κ ν) → List (CacheStep κ ν (Cache κ ν) (SharedCacheAnswer κ ν))
  | [] => []
  | op :: ops =>
    let step := shared.apply op
    { state := step.state.cache
      answer := step.answer
      events := step.events
      reports := step.reports } :: step.state.watch ops

/-- Behind a poisoned lock everything is refused, by induction on what is still to be done: a
refusal leaves the cache and the lock as they are. -/
theorem watch_of_poisoned (cache : Cache κ ν) (ops : List (SharedCacheOp κ ν)) :
    (SharedCache.mk cache true).watch ops = ops.map fun _ => cache.refusal := by
  induction ops with
  | nil => rfl
  | cons op ops ih =>
    rw [watch, apply_eq, List.map_cons, ← ih]
    rfl

/-- Behind a good lock an operation runs on the plain cache, and the lock is poisoned if it has no
answer. -/
theorem watch_cons (cache : Cache κ ν) (op : SharedCacheOp κ ν) (ops : List (SharedCacheOp κ ν)) :
    (ofCache cache).watch (op :: ops) = cache.applyShared op ::
      (SharedCache.mk (cache.applyShared op).state
        !(cache.applyShared op).answer.isOk).watch ops := by
  rw [watch, apply_eq]
  simp only [locked, ofCache, Bool.false_eq_true, if_false]
  obtain ⟨⟨state, _ | _, events⟩, reports⟩ := cache.applyShared op
  · rfl
  · rfl

end SharedCache

namespace Cache

variable [EquivBEq κ] [LawfulHashable κ] {cache : Cache κ ν}

/-- Use has led to the cache: two others, used alike, stand abreast of it. -/
def InUse (cache : Cache κ ν) : Prop :=
  ∃ silent calm, Abreast cache silent calm

theorem inUse_after (maxEntries : Nat) (ops : List (CacheOp κ ν)) :
    ((empty maxEntries).after ops).InUse :=
  ⟨_, _, (abreast_empty maxEntries).after ops⟩

namespace InUse

/-- Operations on a shared cache are operations on the plain one or questions, so the cache stays in
use. -/
theorem applyShared (inUse : cache.InUse) (op : SharedCacheOp κ ν) :
    (cache.applyShared op).state.InUse := by
  cases plain : op.plain? with
  | none =>
    obtain ⟨answer, asked⟩ := cache.applyShared_of_none plain
    rw [asked]
    exact inUse
  | some op' =>
    obtain ⟨silent, calm, abreast⟩ := inUse
    rw [cache.applyShared_of_plain plain]
    exact ⟨_, _, abreast.apply op'⟩

/-- An operation ends in a fault just when its hook fails. -/
theorem exists_fault_iff (inUse : cache.InUse) (op : SharedCacheOp κ ν) :
    (∃ fault, (cache.applyShared op).answer = .error fault) ↔ cache.hookFails op := by
  rw [hookFails_iff]
  cases plain : op.plain? with
  | none =>
    -- a question neither fails nor calls the hook
    obtain ⟨answer, asked⟩ := cache.applyShared_of_none plain
    rw [asked]
    exact iff_of_false nofun fun ⟨_, _, _, _, told, _⟩ => nomatch told
  | some op' =>
    obtain ⟨silent, calm, abreast⟩ := inUse
    have faults := (abreast.contained op').faults
    rw [cache.applyShared_of_plain plain]
    simp only [CacheStep.mapAnswer_eq_error_iff]
    constructor
    · rintro ⟨fault, ended⟩
      obtain ⟨hook, text, installed, -, failing⟩ := (faults fault).mp ended
      exact ⟨hook, text, installed, failing⟩
    · rintro ⟨hook, text, installed, failing⟩
      exact ⟨_, (faults _).mpr ⟨hook, text, installed, rfl, failing⟩⟩

/-- By induction on the operations. One whose hook does not fail leaves a good lock and a cache in
use; after one whose hook fails only refusals come. -/
theorem watch_eq (inUse : cache.InUse) (ops : List (SharedCacheOp κ ν)) :
    (SharedCache.ofCache cache).watch ops = cache.guarded ops := by
  induction ops generalizing cache with
  | nil => rfl
  | cons op ops ih =>
    have fails := inUse.exists_fault_iff op
    rw [SharedCache.watch_cons, guarded]
    cases ended : (cache.applyShared op).answer with
    | ok answer =>
      rw [ended] at fails
      rw [if_neg fun failing => nomatch fails.mpr failing]
      exact congrArg _ (ih (inUse.applyShared op))
    | error fault =>
      rw [if_pos (fails.mp ⟨fault, ended⟩)]
      exact congrArg _ (SharedCache.watch_of_poisoned _ ops)

end InUse

/-- **A shared cache is the plain one until a hook fails, and refuses everything afterwards.** A new
cache of any bound is used in any way, with hooks that may fail, and then shared. Whatever is done
to it from then on, with hooks that may fail: its answers and faults, the calls of hooks and what it
holds are those of the plain cache, up to and including the first operation whose hook fails. Every
operation after that, reads too, ends in the fault of the poisoned lock, tells nobody, and leaves
everything as it is. -/
theorem watch_eq_guarded (maxEntries : Nat) (preload : List (CacheOp κ ν))
    (ops : List (SharedCacheOp κ ν)) :
    let cache := (empty maxEntries : Cache κ ν).after preload
    (SharedCache.ofCache cache).watch ops = cache.guarded ops ∧
      (Fault.poisoned .cache).message = "cache lock poisoned: PoisonError \x7b .. \x7d" :=
  ⟨(inUse_after maxEntries preload).watch_eq ops, by decide⟩

/-- The hook that came with the cache fails. What it was told of has left, and not even another hook
is installed after that. -/
theorem watch_eq_guarded_refuses :
    ((SharedCache.ofCache ((empty 0 : Cache Nat String).after
        [.setHook "first" fun _ _ _ => some "no", .add 1 "a"])).watch
      [.size, .removeOldest, .setHook "second" fun _ _ _ => none, .size]).map
        (fun step => (step.answer, step.reports, step.state.size)) =
      [(.ok (.number 1), [], 1), (.error (.raised "no"), [⟨"first", 1, 1, "a"⟩], 0),
        (.error (.poisoned .cache), [], 0), (.error (.poisoned .cache), [], 0)] := by
  rw [(watch_eq_guarded 0 _ _).1]
  have absent : (∅ : Std.HashMap Nat Nat)[1]? = none := Std.HashMap.getElem?_empty
  simp only [after_cons, after_nil, Cache.apply, Cache.add, setHook, finish, empty, absent]
  rfl

end Cache

end PeerCache
