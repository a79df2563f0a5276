import PeerCache.Proofs.Cluster.Reading

/-!
# The course of a cluster

Whatever is done to a cluster with reads, at a moment when it can be done, ends without a fault and
leaves the reads in order (`Sound.apply`). So it goes on for whole histories, from a new cluster on
(`Sound.after`, `sound_create`), and the peers are those the cluster began with and those
that joined.
-/

namespace PeerCache

/-- The ids of the peers that join by something done to a cluster. -/
def ClusterOp.joins : ClusterOp → List String
  | .addPeer id _ => [id]
  | .turn _ | .evict _ _ | .finish _ _ => []

/-- The keys of the reads that begin by it. -/
def ClusterOp.begins : ClusterOp → List String
  | .turn taken => taken.begins
  | .addPeer _ _ | .evict _ _ | .finish _ _ => []

namespace Batch

variable {batch : Batch} {members : List String} {allowed : Batch → ClusterOp → Prop}
  {op : ClusterOp} {ops : List ClusterOp}

/-! ## A peer joins -/

/-- While no read is under way every read that has begun is done. -/
theorem Sound.done_of_settled {i : Nat} {read : Read} (sound : batch.Sound members)
    (settled : batch.Settled) (found : batch.reads[i]? = some read) : read.Done := by
  rcases sound.reads found with done | ⟨task, waits⟩
  · exact done
  · have ended := settled read (Array.mem_of_getElem? found)
    rw [Read.answer?, waits.progress] at ended
    cases ended

/-- Nobody leads while no read is under way. -/
theorem Sound.idle {peer : Peer} {task : TaskId} {key : String} (sound : batch.Sound members)
    (settled : batch.Settled) (mem : peer ∈ batch.cluster.peers) :
    peer.flight.standing? task ≠ some (key, .leading) := by
  intro leads
  obtain ⟨i, read, found, -, waits⟩ := sound.leaders peer mem leads
  cases waits.symm.trans (sound.done_of_settled settled found)

/-- A peer that joins while no read is under way leaves the reads in order: they are all done, so
none waits at a peer that might be replaced. -/
theorem Sound.addPeer (sound : batch.Sound members) (settled : batch.Settled) (id : String)
    (known : List String) :
    Sound ⟨(batch.cluster.addPeer id known).state, batch.reads⟩ (members ++ [id]) := by
  obtain ⟨-, cluster, state⟩ := sound.cluster.addPeer id known
  have done := fun {i read} => @Sound.done_of_settled batch members i read sound settled
  constructor
  case cluster => exact cluster
  case reads => exact fun found => .inl (done found)
  case leaders =>
    intro other mem task key leads
    rw [state] at mem
    obtain ⟨peer, there, rfl⟩ := Cluster.mem_mapPeers.mp mem
    rw [Peer.flight_evictAll] at leads
    -- the peer that has joined leads nothing either
    rcases Cluster.mem_putPeer.mp there with rfl | ⟨old, -⟩
    · cases Flight.standing?_empty.symm.trans leads
    · exact absurd leads (sound.idle settled old)
  case ordered =>
    intro i j earlier later task task' _ found _ _ waits _
    cases (done found).symm.trans waits

/-! ## One thing done -/

/-- What is done at one peer without a task feeling it, and caches nothing anew. -/
theorem Sound.atPeer {id : String} {run : Peer → Step Peer Unit} (sound : batch.Sound members)
    (there : ∃ peer ∈ batch.cluster.peers, peer.id = id)
    (ids : ∀ peer, (run peer).state.id = peer.id)
    (quiet : ∀ peer pairs, peer.Sound pairs → (run peer).answer = .ok () ∧
      (∃ pairs', (run peer).state.Sound pairs' ∧ pairs' ⊆ pairs) ∧
        ∀ task, (run peer).state.flight.standing? task = peer.flight.standing? task) :
    (batch.cluster.atPeer id run).answer = .ok () ∧
      Sound ⟨(batch.cluster.atPeer id run).state, batch.reads⟩ members ∧
      batch.cluster.Fills (fun _ => False) (batch.cluster.atPeer id run).state := by
  obtain ⟨peer, mem, rfl⟩ := there
  obtain ⟨pairs, peerSound⟩ := sound.cluster.peers peer mem
  obtain ⟨answer, ⟨pairs', after, -⟩, same⟩ := quiet peer pairs peerSound
  rw [Cluster.atPeer_eq sound.cluster.distinct mem]
  refine ⟨answer, sound.steady_onlyAt mem ids ⟨pairs', after⟩ same, ?_⟩
  refine sound.cluster.fills_onlyAt mem ids fun pairs before => ?_
  obtain ⟨-, ⟨pairs', after, fewer⟩, -⟩ := quiet peer pairs before
  exact ⟨pairs', after, fun key held => .inl (List.map_subset Prod.fst fewer held)⟩

/-- To evict a key at a peer that is there leaves the reads in order and caches nothing. -/
theorem Sound.evict {id : String} (sound : batch.Sound members)
    (there : ∃ peer ∈ batch.cluster.peers, peer.id = id) (key : String) :
    (batch.cluster.evict id key).answer = .ok () ∧
      Sound ⟨(batch.cluster.evict id key).state, batch.reads⟩ members ∧
      batch.cluster.Fills (fun _ => False) (batch.cluster.evict id key).state :=
  sound.atPeer there (fun _ => rfl) fun _ pairs before =>
    ⟨(before.evict key).1, ⟨_, (before.evict key).2, List.filter_subset_self pairs⟩, fun _ => rfl⟩

/-- That a load gets done at a peer leaves the reads in order and caches nothing: its value is
cached by the polls of those who wait for it. -/
theorem Sound.finish {id : String} (sound : batch.Sound members)
    (there : ∃ peer ∈ batch.cluster.peers, peer.id = id) (key : String) :
    let finished := batch.cluster.atPeer id fun peer => .done (peer.finish key) ()
    finished.answer = .ok () ∧ Sound ⟨finished.state, batch.reads⟩ members ∧
      batch.cluster.Fills (fun _ => False) finished.state :=
  sound.atPeer there (fun _ => Peer.id_finish) fun _ pairs before =>
    ⟨rfl, ⟨pairs, (before.finish key).1, List.Subset.refl pairs⟩, (before.finish key).2⟩

/-- **What can be done ends without a fault** and leaves the reads in order. -/
theorem Sound.apply (sound : batch.Sound members) (allowed : batch.Allows op) :
    (batch.apply op).answer = .ok () ∧ (batch.apply op).state.Sound (members ++ op.joins) ∧
      (batch.apply op).state.keys = batch.keys ++ op.begins := by
  cases op with
  | turn turn =>
    obtain ⟨answer, sound', -, keys⟩ := sound.take turn allowed
    exact ⟨answer, (List.append_nil members).symm ▸ sound', keys⟩
  | addPeer id known =>
    obtain ⟨answer, -⟩ := sound.cluster.addPeer id known
    exact ⟨congrArg (Except.map fun _ => ()) answer, sound.addPeer allowed id known,
      (List.append_nil _).symm⟩
  | evict id key =>
    obtain ⟨answer, sound', -⟩ := sound.evict allowed key
    exact ⟨answer, (List.append_nil members).symm ▸ sound', (List.append_nil _).symm⟩
  | finish id key =>
    obtain ⟨answer, sound', -⟩ := sound.finish allowed key
    exact ⟨answer, (List.append_nil members).symm ▸ sound', (List.append_nil _).symm⟩

/-! ## Histories -/

@[simp] theorem after_nil : batch.after [] = batch := rfl

@[simp] theorem after_cons : batch.after (op :: ops) = (batch.apply op).state.after ops := rfl

/-- A history may be cut in two, and the second part starts from what the first has left. -/
theorem after_append {more : List ClusterOp} :
    batch.after (ops ++ more) = (batch.after ops).after more :=
  List.foldl_append

/-- What is allowed by a stricter rule is allowed by a weaker one, through the whole history. -/
theorem Admits.imp {allowed' : Batch → ClusterOp → Prop} (admits : batch.Admits allowed ops)
    (weaker : ∀ batch op, allowed batch op → allowed' batch op) : batch.Admits allowed' ops := by
  induction ops generalizing batch with
  | nil => trivial
  | cons op ops ih => exact ⟨weaker _ _ admits.1, ih admits.2⟩

/-- A history that two rules allow is allowed by both at once. -/
theorem Admits.and {allowed' : Batch → ClusterOp → Prop} (admits : batch.Admits allowed ops)
    (admits' : batch.Admits allowed' ops) :
    batch.Admits (fun batch op => allowed batch op ∧ allowed' batch op) ops := by
  induction ops generalizing batch with
  | nil => trivial
  | cons op ops ih => exact ⟨⟨admits.1, admits'.1⟩, ih admits.2 admits'.2⟩

/-- A history is allowed if its front is, and its rest from what the front has left. -/
theorem admits_append {more : List ClusterOp} :
    batch.Admits allowed (ops ++ more) ↔
      batch.Admits allowed ops ∧ (batch.after ops).Admits allowed more := by
  induction ops generalizing batch with
  | nil => exact (and_iff_right trivial).symm
  | cons op ops ih => rw [List.cons_append, Admits, ih, Admits, and_assoc, after_cons]

/-- **So it goes on for whole histories.** -/
theorem Sound.after (sound : batch.Sound members) (admits : batch.Admits Allows ops) :
    (batch.after ops).Sound (members ++ ops.flatMap ClusterOp.joins) ∧
      (batch.after ops).keys = batch.keys ++ ops.flatMap ClusterOp.begins := by
  induction ops generalizing batch members with
  | nil => exact ⟨(List.append_nil members).symm ▸ sound, (List.append_nil _).symm⟩
  | cons op ops ih =>
    obtain ⟨-, sound', keys⟩ := sound.apply admits.1
    obtain ⟨later, keys'⟩ := ih sound' admits.2
    rw [List.flatMap_cons, List.flatMap_cons, ← List.append_assoc, ← List.append_assoc, ← keys]
    exact ⟨later, keys'⟩

/-- What nothing done spoils, a history of such things does not spoil. -/
theorem Sound.after_of_apply {kept : Batch → Prop} (sound : batch.Sound members)
    (admits : batch.Admits allowed ops) (start : kept batch)
    (step : ∀ {batch : Batch} {members : List String} {op : ClusterOp}, batch.Sound members →
      allowed batch op → op ∈ ops → kept batch → batch.Allows op ∧ kept (batch.apply op).state) :
    kept (batch.after ops) := by
  induction ops generalizing batch members with
  | nil => exact start
  | cons op ops ih =>
    obtain ⟨allows, start'⟩ := step sound admits.1 List.mem_cons_self start
    exact ih (sound.apply allows).2.1 admits.2 start' fun sound' allowed' mem =>
      step sound' allowed' (List.mem_cons_of_mem op mem)

/-- Where there is a peer, reads can begin one after the other. -/
theorem Sound.admits_starts (sound : batch.Sound members) (ne : batch.cluster.peers ≠ [])
    (begins : ∀ batch key, batch.cluster.peers ≠ [] → allowed batch (.turn (.start key)))
    (keys : List String) : batch.Admits allowed (keys.map fun key => .turn (.start key)) := by
  induction keys generalizing batch with
  | nil => trivial
  | cons key keys ih =>
    have later := (sound.take_start ne key).sound
    have ne' := later.cluster.members_ne_nil_iff.mpr (sound.cluster.members_ne_nil_iff.mp ne)
    exact ⟨begins batch key ne, ih later ne'⟩

/-- A new cluster, no read begun. -/
theorem sound_create (ids : List String) {replicas : Nat} (maxEntries : Nat)
    (positive : 0 < replicas) :
    ∃ new, Cluster.create ids replicas maxEntries = .ok new ∧ Sound ⟨new, #[]⟩ ids ∧
      ∀ peer ∈ new.peers, ∃ id, peer = .new id maxEntries := by
  obtain ⟨new, created, sound, fresh⟩ := Cluster.create_sound ids maxEntries positive
  refine ⟨new, created, ?_, fresh⟩
  constructor
  case cluster => exact sound
  case reads => intro i read found; cases found
  case leaders =>
    intro peer mem task key leads
    obtain ⟨id, rfl⟩ := fresh peer mem
    cases Flight.standing?_empty.symm.trans leads
  case ordered => intro i j earlier later task task' _ found; cases found

end Batch

end PeerCache
