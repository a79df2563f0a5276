import PeerCache.Cache.Basic

/-!
A cache behind one lock. Every operation takes the lock, reads included; one that ends in a fault
leaves the lock poisoned, and from then on every operation ends in the fault that says so.
-/

namespace PeerCache

/-- A cache, and whether its lock is poisoned. -/
structure SharedCache (κ ν : Type) [BEq κ] [Hashable κ] where
  cache : Cache κ ν
  poisoned : Bool := false

namespace SharedCache

variable {κ ν α : Type} [BEq κ] [Hashable κ]

/-- Shares a cache with its pairs and its hook. -/
def ofCache (cache : Cache κ ν) : SharedCache κ ν :=
  ⟨cache, false⟩

/-- Shares a cache that holds nothing. -/
def empty (maxEntries : Nat) : SharedCache κ ν :=
  ofCache (.empty maxEntries)

/-- Runs a step on the cache while holding the lock. -/
def locked (shared : SharedCache κ ν) (run : Cache κ ν → CacheStep κ ν (Cache κ ν) α) :
    CacheStep κ ν (SharedCache κ ν) α :=
  if shared.poisoned then
    { state := shared, answer := .error (.poisoned .cache) }
  else
    let step := run shared.cache
    { state := ⟨step.state, match step.answer with | .ok _ => false | .error _ => true⟩
      answer := step.answer
      events := step.events
      reports := step.reports }

def setHook (shared : SharedCache κ ν) (hook : Hook κ ν) : CacheStep κ ν (SharedCache κ ν) Unit :=
  shared.locked fun cache => (cache.setHook hook).finish ()

def add (shared : SharedCache κ ν) (key : κ) (value : ν) :
    CacheStep κ ν (SharedCache κ ν) Unit :=
  shared.locked (·.add key value)

/-- Adds pairs one after the other, until an addition ends in a fault. -/
def addAll (shared : SharedCache κ ν) : List (κ × ν) → CacheStep κ ν (SharedCache κ ν) Unit
  | [] => { state := shared, answer := .ok () }
  | (key, value) :: rest =>
    let added := shared.add key value
    match added.answer with
    | .error _ => added
    | .ok () =>
      let later := added.state.addAll rest
      { later with
        reports := added.reports ++ later.reports
        events := added.events ++ later.events }

/-- The value of a key, whose pair becomes the most recently used one. -/
def get (shared : SharedCache κ ν) (key : κ) : CacheStep κ ν (SharedCache κ ν) (Option ν) :=
  shared.locked (·.get key)

/-- Whether a key is held. -/
def contains (shared : SharedCache κ ν) (key : κ) : CacheStep κ ν (SharedCache κ ν) Bool :=
  shared.locked fun cache => cache.finish (cache.contains key)

/-- Takes a key's pair out and tells the hook. -/
def remove (shared : SharedCache κ ν) (key : κ) : CacheStep κ ν (SharedCache κ ν) (Option ν) :=
  shared.locked (·.remove key)

/-- Takes the least recently used pair out and tells the hook. -/
def removeOldest (shared : SharedCache κ ν) :
    CacheStep κ ν (SharedCache κ ν) (Option (κ × ν)) :=
  shared.locked (·.removeOldest)

/-- Takes every pair out and tells the hook of each. -/
def clear (shared : SharedCache κ ν) : CacheStep κ ν (SharedCache κ ν) Unit :=
  shared.locked (·.clear)

/-- How many pairs are held. -/
def size (shared : SharedCache κ ν) : CacheStep κ ν (SharedCache κ ν) Nat :=
  shared.locked fun cache => cache.finish cache.size

def isEmpty (shared : SharedCache κ ν) : CacheStep κ ν (SharedCache κ ν) Bool :=
  shared.locked fun cache => cache.finish cache.isEmpty

end SharedCache

/-- An operation on a shared cache. -/
inductive SharedCacheOp (κ ν : Type) where
  | add (key : κ) (value : ν)
  | get (key : κ)
  | contains (key : κ)
  | remove (key : κ)
  | removeOldest
  | clear
  | setHook (tag : String) (reaction : Nat → κ → ν → Option String)
  | size
  | isEmpty

/-- What an operation on a shared cache answers. -/
inductive SharedCacheAnswer (κ ν : Type) where
  | unit
  | value (held : Option ν)
  | flag (held : Bool)
  | entry (held : Option (κ × ν))
  | number (held : Nat)
  deriving DecidableEq, Repr

/-- Runs an operation on a plain cache, as `SharedCache.apply` does under the lock. -/
def Cache.applyShared {κ ν : Type} [BEq κ] [Hashable κ] (cache : Cache κ ν) :
    SharedCacheOp κ ν → CacheStep κ ν (Cache κ ν) (SharedCacheAnswer κ ν)
  | .add key value => (cache.add key value).mapAnswer fun () => .unit
  | .get key => (cache.get key).mapAnswer .value
  | .contains key => cache.finish (.flag (cache.contains key))
  | .remove key => (cache.remove key).mapAnswer .value
  | .removeOldest => cache.removeOldest.mapAnswer .entry
  | .clear => cache.clear.mapAnswer fun () => .unit
  | .setHook tag reaction => (cache.setHook ⟨tag, reaction, 0⟩).finish .unit
  | .size => cache.finish (.number cache.size)
  | .isEmpty => cache.finish (.flag cache.isEmpty)

/-- Runs an operation. -/
def SharedCache.apply {κ ν : Type} [BEq κ] [Hashable κ] (shared : SharedCache κ ν) :
    SharedCacheOp κ ν → CacheStep κ ν (SharedCache κ ν) (SharedCacheAnswer κ ν)
  | .add key value => (shared.add key value).mapAnswer fun () => .unit
  | .get key => (shared.get key).mapAnswer .value
  | .contains key => (shared.contains key).mapAnswer .flag
  | .remove key => (shared.remove key).mapAnswer .value
  | .removeOldest => shared.removeOldest.mapAnswer .entry
  | .clear => shared.clear.mapAnswer fun () => .unit
  | .setHook tag reaction => (shared.setHook ⟨tag, reaction, 0⟩).mapAnswer fun () => .unit
  | .size => shared.size.mapAnswer .number
  | .isEmpty => shared.isEmpty.mapAnswer .flag

end PeerCache
