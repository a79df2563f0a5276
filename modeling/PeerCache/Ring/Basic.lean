import Std.Data.HashMap
import PeerCache.Ring.Ascending
import PeerCache.Step

/-!
A ring of 32-bit positions. A node sits at `replicas` positions, the hashes of its labels; a key
belongs to the node at the first occupied position at or after the key's own hash, and past the
last one to the node at the least.

`Ring.addNodes` records nodes, `Ring.lookup` finds the owner of a key, and `migrations` lists the
keys that two rings give to different owners. The positions are held sorted and distinct beside a
map from each of them to its owner; where two nodes share a position the one recorded last has it.
-/

namespace PeerCache

/-- A function from bytes to a position on the ring. -/
abbrev HashFn := List UInt8 → UInt32

/-- The bytes that a text is hashed as. -/
def utf8 (s : String) : List UInt8 :=
  s.toUTF8.data.toList

/-- The label of a node's `i`-th position. -/
def label (i : Nat) (id : String) : String :=
  toString i ++ id

/-- Why a ring cannot be made. -/
inductive RingError where
  /-- A node would have no position at all. -/
  | zeroReplicas
  deriving DecidableEq, Repr

def RingError.message : RingError → String
  | zeroReplicas => "replica count must be at least 1"

/-- A key that two rings give to different owners, `none` where a ring is empty. -/
structure Migration where
  key : String
  before : Option String
  after : Option String
  deriving DecidableEq, Repr

/-- Nodes at their positions. -/
structure Ring where
  hash : HashFn
  /-- How many positions every node gets. -/
  replicas : Nat
  replicas_pos : 0 < replicas
  /-- The occupied positions, ascending and distinct once the ring is settled. -/
  points : Array UInt32 := #[]
  /-- The node at each occupied position. -/
  owners : Std.HashMap UInt32 String := ∅

/-- Ids that arrive one after the other from a source that may fail once it has given them all. -/
structure IdSource where
  ids : List String
  failure : Option String := none

namespace Ring

/-- A ring without nodes. -/
def empty? (replicas : Nat) (hash : HashFn) : Except RingError Ring :=
  if h : 0 < replicas then .ok ⟨hash, replicas, h, #[], ∅⟩ else .error .zeroReplicas

/-- The positions of a node, in the order of its labels. -/
def positions (ring : Ring) (id : String) : List UInt32 :=
  (List.range ring.replicas).map fun i => ring.hash (utf8 (label i id))

/-- Puts a node at one position, over any node that was there. -/
def occupy (id : String) (ring : Ring) (point : UInt32) : Ring :=
  { ring with points := ring.points.push point, owners := ring.owners.insert point id }

/-- Records all positions of a node; the points are left as they come. -/
def place (ring : Ring) (id : String) : Ring :=
  (ring.positions id).foldl (occupy id) ring

/-- Brings the points into order and drops repetitions. -/
def settle (ring : Ring) : Ring :=
  { ring with points := (ascending ring.points.toList).toArray }

/-- Records nodes in order, then settles the points. -/
def addNodes (ring : Ring) (ids : List String) : Ring :=
  (ids.foldl place ring).settle

/-- Records nodes as they arrive. A source that fails does so before the points are settled. -/
def addFrom (ring : Ring) (source : IdSource) : Step Ring Unit :=
  let events := source.ids.map fun id => Log.Event.nodePlaced id ring.replicas
  match source.failure with
  | none => ⟨ring.addNodes source.ids, .ok (), events⟩
  | some text => ⟨source.ids.foldl place ring, .error (.raised text), events⟩

/-- Whether no position is occupied. -/
def isEmpty (ring : Ring) : Bool :=
  ring.points.isEmpty

/-- How many positions are occupied. -/
def pointCount (ring : Ring) : Nat :=
  ring.points.size

/-- Halves a stretch of `size` points from `base` on until one is left, and answers whether that
one or the next is the first at or after `h`. -/
def search (points : Array UInt32) (h : UInt32) (base size : Nat) : Nat :=
  if 1 < size then
    let middle := base + size / 2
    if points.getD middle 0 < h then search points h middle (size - size / 2)
    else search points h base (size - size / 2)
  else if points.getD base 0 < h then base + 1
  else base
  termination_by size

/-- The index of the first of the ascending `points` at or after `h`, their number if all come
before it. -/
def firstAtLeast (points : Array UInt32) (h : UInt32) : Nat :=
  if points.isEmpty then 0 else search points h 0 points.size

/-- The occupied position that a hash belongs to: the first at or after it, past the last one the
least. -/
def successor? (ring : Ring) (h : UInt32) : Option UInt32 :=
  let i := firstAtLeast ring.points h
  ring.points[if i = ring.points.size then 0 else i]?

/-- The node that owns a key, `none` if the ring is empty. -/
def lookup (ring : Ring) (key : String) : Option String :=
  (ring.successor? (ring.hash (utf8 key))).bind fun point => ring.owners[point]?

/-- The nodes that own at least one position, ascending, each once. -/
def nodeIds (ring : Ring) : List String :=
  ascending (ring.owners.toList.map Prod.snd)

/-- The keys that change hands from one ring to another, in the order given. -/
def migrations (before after : Ring) (keys : List String) : List Migration :=
  keys.filterMap fun key =>
    let old := before.lookup key
    let new := after.lookup key
    if old = new then none else some ⟨key, old, new⟩

/-! ### What recording a node does to the points -/

@[simp] theorem occupy_points (id : String) (ring : Ring) (point : UInt32) :
    (occupy id ring point).points = ring.points.push point := rfl

@[simp] theorem occupy_owners (id : String) (ring : Ring) (point : UInt32) :
    (occupy id ring point).owners = ring.owners.insert point id := rfl

/-- Positions are recorded behind the points that are there; the settings stay. -/
theorem foldl_occupy (id : String) (points : List UInt32) (ring : Ring) :
    (points.foldl (occupy id) ring).points = ring.points ++ points.toArray ∧
      (points.foldl (occupy id) ring).hash = ring.hash ∧
      (points.foldl (occupy id) ring).replicas = ring.replicas := by
  induction points generalizing ring with
  | nil => exact ⟨by simp, rfl, rfl⟩
  | cons point points ih =>
    obtain ⟨hpoints, hhash, hreplicas⟩ := ih (occupy id ring point)
    refine ⟨?_, hhash, hreplicas⟩
    rw [List.foldl_cons, hpoints, occupy_points]
    apply Array.ext'
    simp

@[simp] theorem place_points (ring : Ring) (id : String) :
    (ring.place id).points = ring.points ++ (ring.positions id).toArray :=
  (foldl_occupy id _ ring).1

@[simp] theorem place_hash (ring : Ring) (id : String) : (ring.place id).hash = ring.hash :=
  (foldl_occupy id _ ring).2.1

@[simp] theorem place_replicas (ring : Ring) (id : String) :
    (ring.place id).replicas = ring.replicas :=
  (foldl_occupy id _ ring).2.2

/-- Settling loses no point and adds none. -/
@[simp] theorem mem_settle_points {ring : Ring} {point : UInt32} :
    point ∈ ring.settle.points ↔ point ∈ ring.points := by
  rw [settle, List.mem_toArray, mem_ascending, Array.mem_toList_iff]

end Ring

/-- How many of the looked-up keys each owner has, and how many have none. -/
structure Tally where
  owned : Std.HashMap String Nat := ∅
  unowned : Nat := 0

namespace Tally

/-- Counts one more key for its owner. -/
def count (tally : Tally) : Option String → Tally
  | some owner => { tally with owned := tally.owned.insert owner (tally.owned.getD owner 0 + 1) }
  | none => { tally with unowned := tally.unowned + 1 }

/-- Counts a list of owners. -/
def ofOwners (owners : List (Option String)) : Tally :=
  owners.foldl count {}

end Tally

end PeerCache
