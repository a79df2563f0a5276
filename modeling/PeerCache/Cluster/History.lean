import PeerCache.Cluster.Batch

/-!
Histories of a cluster: everything that can be done to it and to the reads begun on it, as values,
and what of it can be done at a moment. Peers join between reads, not while one is under way; keys
are evicted at any time, and loads get done one by one or all together.
-/

namespace PeerCache

/-- The pairs cached at a peer, most recently used first. -/
def Peer.cached (peer : Peer) : Except Fault (List (String × String)) :=
  if peer.cache.poisoned then .error (.poisoned .cache)
  else peer.cache.cache.toList.mapError .slot

/-- The load of a key gets done, if one is under way here. -/
def Peer.finish (peer : Peer) (key : String) : Peer :=
  match peer.flight.leader? key with
  | some leader => { peer with flight := peer.flight.resolve leader (Store.outcome key) }
  | none => peer

/-- Something done to a cluster with reads. -/
inductive ClusterOp where
  | turn (turn : Turn)
  /-- The load of a key at one peer gets done, whatever becomes of the others. -/
  | finish (id key : String)
  | addPeer (id : String) (known : List String)
  | evict (id key : String)

namespace Batch

/-- Whether no read is under way. -/
def Settled (batch : Batch) : Prop :=
  ∀ read ∈ batch.reads, read.answer?.isSome

/-- Does something to a cluster with reads. -/
def apply (batch : Batch) : ClusterOp → Step Batch Unit
  | .turn turn => batch.take turn
  | .addPeer id known =>
    ((batch.cluster.addPeer id known).map fun _ => ()).within (⟨·, batch.reads⟩)
  | .evict id key => (batch.cluster.evict id key).within (⟨·, batch.reads⟩)
  | .finish id key =>
    (batch.cluster.atPeer id fun peer => .done (peer.finish key) ()).within (⟨·, batch.reads⟩)

/-- What is left at the end of a history. -/
def after (batch : Batch) (ops : List ClusterOp) : Batch :=
  ops.foldl (fun batch op => (batch.apply op).state) batch

/-- What can be done at a moment: a read begins where there is a peer, a peer joins while no read is
under way, and loads get done and keys are evicted at peers. -/
def Allows (batch : Batch) : ClusterOp → Prop
  | .turn (.start _) => batch.cluster.peers ≠ []
  | .turn _ => True
  | .addPeer _ _ => batch.Settled
  | .evict id _ | .finish id _ => ∃ peer ∈ batch.cluster.peers, peer.id = id

/-- Whether a peer that joins is told of every key that is cached anywhere. -/
def Covers (batch : Batch) : ClusterOp → Prop
  | .turn _ | .evict _ _ | .finish _ _ => True
  | .addPeer _ known => ∀ peer ∈ batch.cluster.peers, ∀ key, peer.holds key = .ok true → key ∈ known

/-- A history of which each thing done is allowed at its moment. -/
def Admits (allowed : Batch → ClusterOp → Prop) (batch : Batch) : List ClusterOp → Prop
  | [] => True
  | op :: ops => allowed batch op ∧ (batch.apply op).state.Admits allowed ops

end Batch

end PeerCache
