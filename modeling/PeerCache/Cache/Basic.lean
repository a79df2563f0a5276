import Std.Data.HashMap
import PeerCache.Step
import PeerCache.Cache.Recency

/-!
A store of at most `maxEntries` pairs that gives up the least recently used one to make room, and
a hook that is told of every pair that leaves.

An index maps each key to the slot of its pair in a recency list. The hook is told of a pair after
it has left; it may fail, and then the operation that told it ends in a fault while the cache stays
as that operation had made it. `Cache.apply` runs any operation given as a value.
-/

namespace PeerCache

/-- A function told of every pair that leaves a cache. It sees how many times it has been called,
this call included, and may fail with a text. -/
structure Hook (κ ν : Type) where
  tag : String
  reaction : Nat → κ → ν → Option String
  calls : Nat := 0

/-- One call of a hook: whose call it was, the how many-th, and the pair. -/
structure Report (κ ν : Type) where
  tag : String
  count : Nat
  key : κ
  value : ν
  deriving DecidableEq, Repr

/-- A step on a cache or on something that holds one, with the calls of the hook it made. -/
structure CacheStep (κ ν σ α : Type) extends Step σ α where
  reports : List (Report κ ν) := []

/-- A bounded store ordered by recency. -/
structure Cache (κ ν : Type) [BEq κ] [Hashable κ] where
  /-- The most pairs held at a time; with 0 there is no bound. -/
  maxEntries : Nat
  index : Std.HashMap κ Nat := ∅
  list : RecencyList κ ν := {}
  hook : Option (Hook κ ν) := none

namespace Cache

variable {κ ν α β : Type} [BEq κ] [Hashable κ]

/-- A cache that holds nothing and tells nobody. -/
def empty (maxEntries : Nat) : Cache κ ν :=
  { maxEntries }

@[simp] theorem toList_empty (maxEntries : Nat) :
    RecencyList.toList (empty maxEntries : Cache κ ν).list = .ok [] := rfl

/-- Puts a hook in place of any that was there. -/
def setHook (cache : Cache κ ν) (hook : Hook κ ν) : Cache κ ν :=
  { cache with hook := some hook }

/-- Takes the hook away. -/
def clearHook (cache : Cache κ ν) : Cache κ ν :=
  { cache with hook := none }

/-- How many pairs are held. -/
def size (cache : Cache κ ν) : Nat :=
  cache.list.size

def isEmpty (cache : Cache κ ν) : Bool :=
  cache.list.size == 0

/-- Whether a key is held. The order stays as it is. -/
def contains (cache : Cache κ ν) (key : κ) : Bool :=
  cache.index.contains key

/-- A walk over the pairs, most recently used first. -/
def iter (cache : Cache κ ν) : RecencyList.Iter κ ν :=
  cache.list.iter

/-- The pairs, most recently used first. -/
def toList (cache : Cache κ ν) : Except SlotFault (List (κ × ν)) :=
  cache.list.toList

/-- The settings and the size of a cache in one line. -/
def describe (cache : Cache κ ν) : String :=
  "BoundedCache \x7b max_entries: " ++ toString cache.maxEntries ++ ", len: " ++
    toString cache.size ++ ", has_on_evicted: " ++ toString cache.hook.isSome ++ ", .. \x7d"

/-- A step that answers `a` and tells nobody. -/
def finish (cache : Cache κ ν) (a : α) : CacheStep κ ν (Cache κ ν) α :=
  { state := cache, answer := .ok a }

/-- Changes the recency list and goes on. If a slot on the way does not hold what it should, nobody
can tell any more what the cache holds, and it is left without pairs. -/
@[inline] def relink (cache : Cache κ ν)
    (change : RecencyList κ ν → Except SlotFault (RecencyList κ ν × β))
    (next : Cache κ ν → β → CacheStep κ ν (Cache κ ν) α) : CacheStep κ ν (Cache κ ν) α :=
  match cache with
  | { maxEntries, index, list, hook } =>
    match change list with
    | .ok (list, b) => next { maxEntries, index, list, hook } b
    | .error fault => { state := { maxEntries, hook }, answer := .error (.slot fault) }

/-- Tells the hook, if there is one, of a pair that has left, then answers `a`. -/
def notify (cache : Cache κ ν) (key : κ) (value : ν) (a : α) : CacheStep κ ν (Cache κ ν) α :=
  match cache.hook with
  | none => cache.finish a
  | some hook =>
    let count := hook.calls + 1
    { state := { cache with hook := some { hook with calls := count } }
      answer := match hook.reaction count key value with
        | none => .ok a
        | some text => .error (.raised text)
      reports := [⟨hook.tag, count, key, value⟩] }

/-- Tells the hook of pairs one after the other, until it fails. -/
def notifyAll (cache : Cache κ ν) : List (κ × ν) → CacheStep κ ν (Cache κ ν) Unit
  | [] => cache.finish ()
  | (key, value) :: rest =>
    let told := cache.notify key value ()
    match told.answer with
    | .error _ => told
    | .ok () =>
      let later := told.state.notifyAll rest
      { later with reports := told.reports ++ later.reports }

/-- The value of a key, whose pair becomes the most recently used one. -/
def get (cache : Cache κ ν) (key : κ) : CacheStep κ ν (Cache κ ν) (Option ν) :=
  match cache.index[key]? with
  | none => cache.finish none
  | some slot =>
    cache.relink (fun list => do
      let list ← list.moveToFront slot
      let n ← list.node slot
      return (list, n.value)) fun cache value => cache.finish (some value)

/-- The value of a key. The order stays as it is. -/
def peek (cache : Cache κ ν) (key : κ) : CacheStep κ ν (Cache κ ν) (Option ν) :=
  match cache.index[key]? with
  | none => cache.finish none
  | some slot =>
    match cache.list.node slot with
    | .ok n => cache.finish (some n.value)
    | .error fault => { state := cache, answer := .error (.slot fault) }

/-- Takes a key's pair out, tells the hook, and answers the value. -/
def remove (cache : Cache κ ν) (key : κ) : CacheStep κ ν (Cache κ ν) (Option ν) :=
  match cache.index[key]? with
  | none => cache.finish none
  | some slot =>
    cache.relink (·.remove slot) fun cache (held, value) =>
      notify { cache with index := cache.index.erase key } held value (some value)

/-- Takes the least recently used pair out, tells the hook, and answers the pair. -/
def removeOldest (cache : Cache κ ν) : CacheStep κ ν (Cache κ ν) (Option (κ × ν)) :=
  match cache.list.back with
  | none => cache.finish none
  | some slot =>
    cache.relink (fun list => do
      let n ← list.node slot
      let (list, entry) ← list.remove slot
      return (list, n.key, entry)) fun cache (oldest, key, value) =>
        notify { cache with index := cache.index.erase oldest } key value (some (key, value))

/-- Gives up the least recently used pair if there are more than the bound allows. -/
def shrink (cache : Cache κ ν) : CacheStep κ ν (Cache κ ν) Unit :=
  if cache.maxEntries ≠ 0 ∧ cache.maxEntries < cache.size then
    let evicted := cache.removeOldest
    match evicted.answer with
    | .ok _ =>
      { evicted with
        answer := .ok ()
        events := evicted.events ++ [.entryEvicted cache.maxEntries] }
    | .error f => { evicted with answer := .error f }
  else
    cache.finish ()

/-- Gives a key a value and makes its pair the most recently used one. A new key may push the least
recently used pair out; the old value of a known key is overwritten and nobody is told. -/
def add (cache : Cache κ ν) (key : κ) (value : ν) : CacheStep κ ν (Cache κ ν) Unit :=
  match cache.index[key]? with
  | some slot =>
    cache.relink (fun list => do
      let list ← list.modify slot fun n => { n with value }
      let list ← list.moveToFront slot
      return (list, ())) fun cache () => cache.finish ()
  | none =>
    cache.relink (·.pushFront key value) fun cache slot =>
      shrink { cache with index := cache.index.insert key slot }

/-- Adds pairs one after the other, until an addition ends in a fault. -/
def addAll (cache : Cache κ ν) : List (κ × ν) → CacheStep κ ν (Cache κ ν) Unit
  | [] => cache.finish ()
  | (key, value) :: rest =>
    let added := cache.add key value
    match added.answer with
    | .error _ => added
    | .ok () =>
      let later := added.state.addAll rest
      { later with
        reports := added.reports ++ later.reports
        events := added.events ++ later.events }

/-- Takes every pair out, then tells the hook of them from front to back. -/
def clear (cache : Cache κ ν) : CacheStep κ ν (Cache κ ν) Unit :=
  cache.relink (·.drain) fun cache entries => notifyAll { cache with index := ∅ } entries

end Cache

/-! ### Operations as values -/

/-- An operation on a cache. -/
inductive CacheOp (κ ν : Type) where
  | add (key : κ) (value : ν)
  | get (key : κ)
  | peek (key : κ)
  | contains (key : κ)
  | remove (key : κ)
  | removeOldest
  | clear
  | setHook (tag : String) (reaction : Nat → κ → ν → Option String)
  | clearHook
  | entries

/-- What an operation on a cache answers. -/
inductive CacheAnswer (κ ν : Type) where
  | unit
  | value (held : Option ν)
  | flag (held : Bool)
  | entry (held : Option (κ × ν))
  | entries (held : List (κ × ν))
  deriving DecidableEq, Repr

/-- Changes the answer of a step, if there is one. -/
def CacheStep.mapAnswer {κ ν σ α β : Type} (step : CacheStep κ ν σ α) (f : α → β) :
    CacheStep κ ν σ β :=
  { state := step.state
    answer := step.answer.map f
    events := step.events
    reports := step.reports }

/-- Runs an operation. -/
def Cache.apply {κ ν : Type} [BEq κ] [Hashable κ] (cache : Cache κ ν) :
    CacheOp κ ν → CacheStep κ ν (Cache κ ν) (CacheAnswer κ ν)
  | .add key value => (cache.add key value).mapAnswer fun () => .unit
  | .get key => (cache.get key).mapAnswer .value
  | .peek key => (cache.peek key).mapAnswer .value
  | .contains key => cache.finish (.flag (cache.contains key))
  | .remove key => (cache.remove key).mapAnswer .value
  | .removeOldest => cache.removeOldest.mapAnswer .entry
  | .clear => cache.clear.mapAnswer fun () => .unit
  | .setHook tag reaction => (cache.setHook ⟨tag, reaction, 0⟩).finish .unit
  | .clearHook => cache.clearHook.finish .unit
  | .entries =>
    match cache.toList with
    | .ok entries => cache.finish (.entries entries)
    | .error fault => { state := cache, answer := .error (.slot fault) }

end PeerCache
