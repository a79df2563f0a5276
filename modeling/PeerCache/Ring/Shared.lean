import PeerCache.Ring.Basic

/-!
A ring that many read while writers take turns to publish new ones.

A publication is a value with a number of its own: a reader that holds one keeps it, and two
readers hold the same publication exactly when the numbers agree. A writer works on a copy. If
the ids it is given fail on the way, the copy is lost, the current ring stays as it was, and the
writers' lock is poisoned, so that nobody publishes any more.
-/

namespace PeerCache

/-- A published ring. No two publications of one shared ring have the same version. -/
structure Snapshot where
  version : Nat
  ring : Ring

/-- Whether two snapshots are one publication. -/
def Snapshot.same (a b : Snapshot) : Bool :=
  a.version == b.version

/-- The current publication, and whether the writers' lock is poisoned. -/
structure SharedRing where
  current : Snapshot
  writerPoisoned : Bool := false

namespace SharedRing

/-- Shares a ring as the first publication. -/
def ofRing (ring : Ring) : SharedRing :=
  ⟨⟨0, ring⟩, false⟩

/-- The ring as of now; nothing done to the shared ring later changes it. -/
def snapshot (shared : SharedRing) : Snapshot :=
  shared.current

/-- The node that owns a key in the current ring. -/
def lookup (shared : SharedRing) (key : String) : Option String :=
  shared.snapshot.ring.lookup key

/-- Makes a ring the current one, under the next version. -/
def publish (shared : SharedRing) (ring : Ring) : SharedRing :=
  { shared with current := ⟨shared.current.version + 1, ring⟩ }

/-- Records nodes as they arrive and publishes the outcome. -/
def addFrom (shared : SharedRing) (source : IdSource) : Step SharedRing Unit :=
  if shared.writerPoisoned then
    .stop shared (.poisoned .ringWriter)
  else
    let added := shared.snapshot.ring.addFrom source
    match added.answer with
    | .ok () =>
      ⟨shared.publish added.state, .ok (),
        added.events ++ [.ringPublished added.state.pointCount]⟩
    | .error fault => ⟨{ shared with writerPoisoned := true }, .error fault, added.events⟩

/-- Records nodes and publishes the outcome. -/
def addNodes (shared : SharedRing) (ids : List String) : Step SharedRing Unit :=
  shared.addFrom ⟨ids, none⟩

/-- Publishes a ring in place of the current one. -/
def replace (shared : SharedRing) (ring : Ring) : Step SharedRing Unit :=
  if shared.writerPoisoned then
    .stop shared (.poisoned .ringWriter)
  else
    ⟨shared.publish ring, .ok (), [.ringReplaced ring.pointCount]⟩

end SharedRing

/-- Something a writer does to a shared ring. -/
inductive RingWrite where
  | add (source : IdSource)
  | replace (ring : Ring)

namespace SharedRing

/-- Carries out a write. -/
def write (shared : SharedRing) : RingWrite → Step SharedRing Unit
  | .add source => shared.addFrom source
  | .replace ring => shared.replace ring

@[simp] theorem publish_ring (shared : SharedRing) (ring : Ring) :
    (shared.publish ring).current.ring = ring := rfl

@[simp] theorem publish_version (shared : SharedRing) (ring : Ring) :
    (shared.publish ring).current.version = shared.current.version + 1 := rfl

/-- A shared ring that can be written takes nodes in. -/
theorem addNodes_of_writable {shared : SharedRing} (writable : shared.writerPoisoned = false)
    (ids : List String) :
    (shared.addNodes ids).answer = .ok () ∧
      (shared.addNodes ids).state = shared.publish (shared.current.ring.addNodes ids) := by
  simp [addNodes, addFrom, writable, Ring.addFrom, snapshot]

end SharedRing

end PeerCache
