import PeerCache.Cache.Shared
import PeerCache.Flight.Poll

/-!
A peer: a cache in front of a slow store, with loads of the same key coalesced.

A read looks into the cache first. On a miss it becomes a task of the peer's flight, and either
waits for its own load or for the one under way. Whoever gets a value that way puts it into the
cache; a failed load is not remembered.
-/

namespace PeerCache

/-! ### The store -/

/-- The store holds nothing under this key. -/
structure LoadError where
  key : String
  deriving DecidableEq, Repr

def LoadError.message (e : LoadError) : String :=
  "no such key: " ++ e.key

namespace Store

/-- How keys begin that the store does not hold. -/
def missingMark : String := "missing-"

/-- Whether the store holds nothing under a key. -/
def lacks (key : String) : Bool :=
  missingMark.toList.isPrefixOf key.toList

/-- What the store holds under a key that it does not lack. -/
def expectedValue (key : String) : String :=
  "value-of-" ++ key

/-- What loading a key comes to. -/
def load (key : String) : Except LoadError String :=
  if lacks key then .error ⟨key⟩ else .ok (expectedValue key)

/-- The load of a key as the outcome of a computation. -/
def outcome (key : String) : Outcome String LoadError :=
  match load key with
  | .ok value => .ok value
  | .error e => .err e

end Store

/-! ### The peer -/

/-- A cache, the loads under way and how many were ever started. -/
structure Peer where
  id : String
  cache : SharedCache String String
  flight : Flight String LoadError := {}
  loads : Nat := 0

/-- How far a read has come. -/
inductive Progress where
  /-- It waits as this task of its peer's flight. -/
  | waiting (task : TaskId)
  | finished (answer : Except LoadError String)

namespace Peer

/-- A peer that has cached nothing yet. -/
def new (id : String) (maxEntries : Nat) : Peer :=
  { id, cache := .empty maxEntries }

/-- Whether a key is cached here. -/
def holds (peer : Peer) (key : String) : Except Fault Bool :=
  (peer.cache.contains key).answer

/-- How many pairs are cached here. -/
def cachedCount (peer : Peer) : Except Fault Nat :=
  peer.cache.size.answer

/-- Drops a key from the cache. -/
def evict (peer : Peer) (key : String) : Step Peer Unit :=
  let removed := peer.cache.remove key
  ⟨{ peer with cache := removed.state }, removed.answer.map fun _ => (), removed.events⟩

/-- Goes on with a read after its task was polled: a value is cached, a load that the task has
started is counted. -/
def receive (peer : Peer) (key : String) (task : TaskId) (polled : Polled String LoadError) :
    Step Peer Progress :=
  let peer := { peer with
    flight := polled.flight
    loads := if polled.started then peer.loads + 1 else peer.loads }
  match polled.answer with
  | .returned (.ok value) =>
    let added := peer.cache.add key value
    ⟨{ peer with cache := added.state }, added.answer.map fun () => .finished (.ok value),
      polled.events ++ added.events⟩
  | .returned (.error e) => ⟨peer, .ok (.finished (.error e)), polled.events⟩
  | .failed fault => ⟨peer, .error fault, polled.events⟩
  | .pending | .gone | .spinning => ⟨peer, .ok (.waiting task), polled.events⟩

/-- Starts a read: from the cache, or else as a new task, numbered on from the earlier ones. -/
def start (peer : Peer) (key : String) : Step Peer Progress :=
  let found := peer.cache.get key
  let peer := { peer with cache := found.state }
  match found.answer with
  | .error fault => ⟨peer, .error fault, found.events⟩
  | .ok (some value) => ⟨peer, .ok (.finished (.ok value)), found.events⟩
  | .ok none =>
    let task := peer.flight.tasks.size
    peer.receive key task ((peer.flight.spawn task key none none).poll task)

/-- Polls the task of a read once more. -/
def resume (peer : Peer) (key : String) (task : TaskId) : Step Peer Progress :=
  peer.receive key task (peer.flight.poll task)

/-- Lets time pass until every load under way is done. -/
def elapse (peer : Peer) : Peer :=
  { peer with
    flight := peer.flight.registry.foldl
      (fun flight key leader => flight.resolve leader (Store.outcome key)) peer.flight }

end Peer

end PeerCache
