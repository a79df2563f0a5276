import PeerCache.Cluster.Peer
import PeerCache.Checksum.Crc32
import PeerCache.Ring.Shared

/-!
A cluster: peers that share a ring, which says who owns a key. A read goes to the owner and is
answered there. When a peer joins, the keys it takes over are dropped from the peers that owned
them.
-/

namespace PeerCache

/-- Peers behind one ring. -/
structure Cluster where
  ring : SharedRing
  /-- The peers, no two with the same id. -/
  peers : List Peer
  /-- The bound of every peer's cache. -/
  maxEntries : Nat

/-- A read of a key at the peer that owned it when the read began. -/
structure Read where
  key : String
  owner : String
  progress : Progress

/-- The answer of a read that has come to its end. -/
def Read.answer? (read : Read) : Option (Except LoadError String) :=
  match read.progress with
  | .waiting _ => none
  | .finished answer => some answer

namespace Cluster

/-! ### Peers -/

/-- A list of peers with one put in place of the peer of its id, or at the end. -/
def putPeer (peers : List Peer) (peer : Peer) : List Peer :=
  if peers.any (·.id = peer.id) then peers.map fun p => if p.id = peer.id then peer else p
  else peers ++ [peer]

/-- A cluster of empty peers, placed on the ring by CRC-32. -/
def create (ids : List String) (replicas maxEntries : Nat) : Except Fault Cluster :=
  match Ring.empty? replicas Checksum.crc32 with
  | .error .zeroReplicas => .error .zeroReplicas
  | .ok ring =>
    .ok {
      ring := ((SharedRing.ofRing ring).addNodes ids).state
      peers := ids.foldl (fun peers id => putPeer peers (.new id maxEntries)) []
      maxEntries }

/-- The id of the peer that owns a key. -/
def owner (cluster : Cluster) (key : String) : Except Fault String :=
  match cluster.ring.lookup key with
  | some id => .ok id
  | none => .error .noPeers

/-- Runs a step on the peer of an id among some peers, and leaves it in its place. -/
def runAt {α : Type} (id : String) (run : Peer → Step Peer α) : List Peer → Step (List Peer) α
  | [] => .stop [] .unknownPeer
  | p :: rest =>
    if p.id = id then (run p).within (· :: rest) else (runAt id run rest).within (p :: ·)

/-- Runs a step on the peer of an id. -/
def atPeer {α : Type} (cluster : Cluster) (id : String) (run : Peer → Step Peer α) :
    Step Cluster α :=
  match cluster with
  | ⟨ring, peers, maxEntries⟩ => (runAt id run peers).within fun peers => ⟨ring, peers, maxEntries⟩

/-- Drops a key from the cache of a peer. -/
def evict (cluster : Cluster) (id key : String) : Step Cluster Unit :=
  cluster.atPeer id (·.evict key)

/-- The ids of the peers that hold a key, ascending. -/
def holders (cluster : Cluster) (key : String) : Except Fault (List String) := do
  let holding ← cluster.peers.filterMapM fun p => do
    return if ← p.holds key then some p.id else none
  return holding.mergeSort fun a b => a ≤ b

/-- How many loads the peers have started. -/
def totalLoads (cluster : Cluster) : Nat :=
  cluster.peers.foldr (fun p loads => p.loads + loads) 0

/-- The peers by ascending id. -/
def sortedPeers (cluster : Cluster) : List Peer :=
  cluster.peers.mergeSort fun a b => a.id ≤ b.id

/-! ### Joining -/

/-- Drops the keys that changed hands from the peers that owned them before. -/
def handOver (cluster : Cluster) (migrations : List Migration) : Step Cluster Unit :=
  (Step.forEach migrations (fun m cluster =>
    match m.before with
    | some former => cluster.evict former m.key
    | none => .done cluster ()) cluster).map fun _ => ()

/-- Places a peer on the ring, with nothing cached, and drops the keys among `known` that it takes
over from the peers that owned them. Answers those keys. -/
def addPeer (cluster : Cluster) (id : String) (known : List String) :
    Step Cluster (List Migration) :=
  let before := cluster.ring.snapshot
  ((cluster.ring.addNodes [id]).within fun ring => { cluster with ring }).andThen
    fun () cluster =>
      let migrations := before.ring.migrations cluster.ring.snapshot.ring known
      let cluster := { cluster with peers := putPeer cluster.peers (.new id cluster.maxEntries) }
      (cluster.handOver migrations).map fun () => migrations

/-! ### Reading -/

/-- Starts a read at the owner of its key. -/
def start (cluster : Cluster) (key : String) : Step Cluster Read :=
  match cluster.owner key with
  | .error fault => .stop cluster fault
  | .ok id =>
    (cluster.atPeer id (·.start key)).map fun progress => { key, owner := id, progress }

/-- Polls a read once more, unless it has come to its end. -/
def resume (cluster : Cluster) (read : Read) : Step Cluster Read :=
  match read.progress with
  | .finished _ => .done cluster read
  | .waiting task =>
    (cluster.atPeer read.owner (·.resume read.key task)).map fun progress => { read with progress }

/-- Lets time pass until every load under way is done. -/
def elapse (cluster : Cluster) : Cluster :=
  { cluster with peers := cluster.peers.map Peer.elapse }

end Cluster

end PeerCache
