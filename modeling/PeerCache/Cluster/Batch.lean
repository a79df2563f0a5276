import PeerCache.Cluster.Basic

/-!
Reads that run at the same time. A batch is a cluster with the reads begun on it, and a schedule is
a list of turns: begin a read, let the loads under way finish, poll one read again. Any schedule
can be run; `Cluster.readAll` runs the one that begins all reads before any load is done and then
polls each read once, in order.
-/

namespace PeerCache

/-- A cluster and the reads begun on it, in the order they began. -/
structure Batch where
  cluster : Cluster
  reads : Array Read := #[]

/-- What can happen next to a batch. -/
inductive Turn where
  | start (key : String)
  /-- Every load under way gets done. -/
  | elapse
  /-- The read that began as the `index`-th is polled. -/
  | resume (index : Nat)
  deriving DecidableEq, Repr

namespace Batch

/-- Takes a turn. -/
def take (turn : Turn) : Batch → Step Batch Unit
  | ⟨cluster, reads⟩ =>
    match turn with
    | .start key =>
      let begun := cluster.start key
      match begun.answer with
      | .ok read => ⟨⟨begun.state, reads.push read⟩, .ok (), begun.events⟩
      | .error fault => ⟨⟨begun.state, reads⟩, .error fault, begun.events⟩
    | .elapse => .done ⟨cluster.elapse, reads⟩ ()
    | .resume index =>
      match reads[index]? with
      | none => .done ⟨cluster, reads⟩ ()
      | some read =>
        let resumed := cluster.resume read
        match resumed.answer with
        | .ok read => ⟨⟨resumed.state, reads.setIfInBounds index read⟩, .ok (), resumed.events⟩
        | .error fault => ⟨⟨resumed.state, reads⟩, .error fault, resumed.events⟩

/-- Takes turns one after the other, until one ends in a fault. -/
def run (turns : List Turn) (batch : Batch) : Step Batch Unit :=
  (Step.forEach turns take batch).map fun _ => ()

/-- The answers of the reads, `none` for one that still waits. -/
def answers (batch : Batch) : List (Option (Except LoadError String)) :=
  batch.reads.toList.map Read.answer?

end Batch

namespace Cluster

/-- The turns that begin all reads, let their loads finish, and poll each read once, in order. -/
def lockstep (keys : List String) : List Turn :=
  keys.map .start ++ [.elapse] ++ (List.range keys.length).map .resume

/-- Reads keys at the same time. -/
def readAll (cluster : Cluster) (keys : List String) :
    Step Cluster (List (Option (Except LoadError String))) :=
  let ran := Batch.run (lockstep keys) ⟨cluster, #[]⟩
  ⟨ran.state.cluster, ran.answer.map fun () => ran.state.answers, ran.events⟩

/-- Reads keys one after the other, each as a batch of its own. -/
def readEach (cluster : Cluster) (keys : List String) :
    Step Cluster (List (Option (Except LoadError String))) :=
  (Step.forEach keys (fun key cluster => cluster.readAll [key]) cluster).map List.flatten

end Cluster

end PeerCache
