import PeerCache.Cache.Basic

/-!
# A cache as a plain list of pairs

`PairStore` is what a bounded cache is meant to be: the pairs in a list, the most recently used one
first, with neither slots nor an index. A key is sought from the front, a pair that is used is put
before the others, and a pair that leaves is taken from the list and reported. `watch` shows all
that can be seen of a store, or of a cache, after every operation of a run.
-/

namespace PeerCache

variable {κ ν : Type}

/-- A bounded store of pairs, most recently used first. -/
structure PairStore (κ ν : Type) where
  /-- The most pairs held at a time; with 0 there is no bound. -/
  maxEntries : Nat
  pairs : List (κ × ν) := []
  /-- The tag of the hook and how often it has been called. -/
  hook : Option (String × Nat) := none

/-- A step on a store. It always has an answer. -/
structure PairStep (κ ν : Type) where
  store : PairStore κ ν
  answer : CacheAnswer κ ν
  reports : List (Report κ ν) := []

/-- What a hook is told of pairs that leave one after the other. -/
def tellings : Option (String × Nat) → List (κ × ν) → List (Report κ ν)
  | none, _ => []
  | some (tag, calls), gone =>
    (gone.zipIdx (calls + 1)).map fun ((key, value), count) => ⟨tag, count, key, value⟩

namespace PairStore

/-- A store that holds nothing and tells nobody. -/
def empty (maxEntries : Nat) : PairStore κ ν :=
  { maxEntries }

/-- Answers with the store as it is. -/
def rest (store : PairStore κ ν) (answer : CacheAnswer κ ν) : PairStep κ ν :=
  { store, answer }

/-- Keeps some pairs, tells the hook of those that are gone, and answers. -/
def keep (store : PairStore κ ν) (kept gone : List (κ × ν)) (answer : CacheAnswer κ ν) :
    PairStep κ ν :=
  { store :=
      { store with
        pairs := kept
        hook := store.hook.map fun (tag, calls) => (tag, calls + gone.length) }
    answer
    reports := tellings store.hook gone }

variable [BEq κ]

/-- The first pair with a key. -/
def find? (store : PairStore κ ν) (key : κ) : Option (κ × ν) :=
  store.pairs.find? (·.1 == key)

/-- The pairs without the first one with a key. -/
def others (store : PairStore κ ν) (key : κ) : List (κ × ν) :=
  store.pairs.eraseP (·.1 == key)

/-- Puts a pair before all others; the last one goes if there are then more than allowed. -/
def prepend (store : PairStore κ ν) (key : κ) (value : ν) : PairStep κ ν :=
  let grown := (key, value) :: store.pairs
  if store.maxEntries ≠ 0 ∧ store.maxEntries < grown.length then
    store.keep grown.dropLast grown.getLast?.toList .unit
  else
    store.keep grown [] .unit

def apply (store : PairStore κ ν) : CacheOp κ ν → PairStep κ ν
  | .add key value =>
    match store.find? key with
    | some (held, _) => store.keep ((held, value) :: store.others key) [] .unit
    | none => store.prepend key value
  | .get key =>
    match store.find? key with
    | some (held, value) => store.keep ((held, value) :: store.others key) [] (.value (some value))
    | none => store.rest (.value none)
  | .peek key => store.rest (.value ((store.find? key).map Prod.snd))
  | .contains key => store.rest (.flag (store.find? key).isSome)
  | .remove key =>
    match store.find? key with
    | some (held, value) => store.keep (store.others key) [(held, value)] (.value (some value))
    | none => store.rest (.value none)
  | .removeOldest =>
    store.keep store.pairs.dropLast store.pairs.getLast?.toList (.entry store.pairs.getLast?)
  | .clear => store.keep [] store.pairs .unit
  | .setHook tag _ => { store := { store with hook := some (tag, 0) }, answer := .unit }
  | .clearHook => { store := { store with hook := none }, answer := .unit }
  | .entries => store.rest (.entries store.pairs)

end PairStore

/-! ## What can be seen -/

/-- All that can be seen from outside after an operation: what it answered and told, and what is
held then. -/
structure Sight (κ ν : Type) where
  answer : Except Fault (CacheAnswer κ ν)
  reports : List (Report κ ν)
  size : Nat
  isEmpty : Bool
  pairs : Except SlotFault (List (κ × ν))

variable [BEq κ]

/-- What is seen after every operation of a run on a cache. -/
def Cache.watch [Hashable κ] (cache : Cache κ ν) : List (CacheOp κ ν) → List (Sight κ ν)
  | [] => []
  | op :: ops =>
    let step := cache.apply op
    ⟨step.answer, step.reports, step.state.size, step.state.isEmpty, step.state.toList⟩ ::
      step.state.watch ops

/-- What is to be seen after every operation of a run on a store of pairs. -/
def PairStore.watch (store : PairStore κ ν) : List (CacheOp κ ν) → List (Sight κ ν)
  | [] => []
  | op :: ops =>
    let step := store.apply op
    ⟨.ok step.answer, step.reports, step.store.pairs.length, step.store.pairs.isEmpty,
      .ok step.store.pairs⟩ :: step.store.watch ops

end PeerCache
