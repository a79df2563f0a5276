/-!
What the library reports while it works. An event is a value: operations return the events they
caused, and a console decides later which of them become lines.
-/

namespace PeerCache.Log

/-- How loud an event is. -/
inductive Level where
  | error
  | warn
  | info
  | debug
  | trace
  deriving DecidableEq, Repr, Inhabited

/-- How much detail a level asks for: a listener at a level hears every event of no higher rank. -/
def Level.rank : Level → Nat
  | error => 1
  | warn => 2
  | info => 3
  | debug => 4
  | trace => 5

/-- The level as a line shows it. -/
def Level.name : Level → String
  | error => "ERROR"
  | warn => "WARN"
  | info => "INFO"
  | debug => "DEBUG"
  | trace => "TRACE"

/-- What a field of an event holds. -/
inductive FieldValue where
  | number (value : Nat)
  | text (value : String)
  deriving DecidableEq, Repr

/-- The events of the library. -/
inductive Event where
  /-- A node's positions were recorded on a ring. -/
  | nodePlaced (node : String) (replicas : Nat)
  /-- A ring with this many points is about to become current because nodes were added. -/
  | ringPublished (points : Nat)
  /-- A ring with this many points is about to become current in place of another. -/
  | ringReplaced (points : Nat)
  /-- A full cache gave up its least recently used entry. -/
  | entryEvicted (maxEntries : Nat)
  /-- A caller found a call for its key and waits for it. -/
  | callJoined (key : String)
  /-- A waiting caller saw its call end without a result. -/
  | callAbandoned (key : String)
  deriving DecidableEq, Repr

namespace Event

def level : Event → Level
  | nodePlaced .. | ringPublished .. | ringReplaced .. | callAbandoned .. => .debug
  | entryEvicted .. | callJoined .. => .trace

/-- The part of the library an event comes from, as filters and lines name it. -/
def target : Event → String
  | nodePlaced .. => "flock_placement::ring"
  | ringPublished .. | ringReplaced .. => "flock_placement::shared"
  | entryEvicted .. => "flock_cache::lru"
  | callJoined .. | callAbandoned .. => "flock_flight::group"

def message : Event → String
  | nodePlaced .. => "added node to ring"
  | ringPublished .. => "published new ring"
  | ringReplaced .. => "replaced ring"
  | entryEvicted .. => "evicted least recently used entry"
  | callJoined .. => "joining in-flight call"
  | callAbandoned .. => "in-flight call abandoned by its leader, retrying"

/-- The named values of an event, in the order a line shows them. -/
def fields : Event → List (String × FieldValue)
  | nodePlaced node replicas => [("node", .text node), ("replicas", .number replicas)]
  | ringPublished points | ringReplaced points => [("points", .number points)]
  | entryEvicted maxEntries => [("max_entries", .number maxEntries)]
  | callJoined key | callAbandoned key => [("key", .text key)]

end Event

end PeerCache.Log
