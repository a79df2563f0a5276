import PeerCache.Proofs.Cluster.Routing

/-!
# Reads under way

`Batch.Sound` ties the reads that have begun to the peers they began at. A read has ended with what
loading its key comes to, or it waits as a task of its own at the owner of its key; every leader
there is belongs to a read, and of two reads that wait at one peer the earlier one has the earlier
task. `Sound.take` says that each turn keeps this, that it ends without a fault, and what it can do
to the caches: at most one key is cached anew, by its owner.
-/

namespace PeerCache

open Flight (Awaits)

/-! ## One read -/

/-- The read has ended with what loading its key comes to. -/
def Read.Done (read : Read) : Prop :=
  read.progress = .finished (Store.load read.key)

/-- The read waits as a task of the peer that owns its key. -/
structure Read.WaitsAs (read : Read) (cluster : Cluster) (task : TaskId) : Prop where
  progress : read.progress = .waiting task
  owned : cluster.ring.lookup read.key = some read.owner
  awaited : ∃ peer ∈ cluster.peers, peer.id = read.owner ∧ peer.flight.Awaits task read.key

variable {cluster : Cluster} {reads : Array Read} {members : List String} {peer other : Peer}
  {read : Read} {task : TaskId} {key id : String} {change : Peer → Peer}

/-- Whether a task is under way is a matter of its standing. -/
theorem Flight.Awaits.congr {flight flight' : Flight String LoadError}
    (awaits : flight.Awaits task key) (same : flight'.standing? task = flight.standing? task) :
    flight'.Awaits task key := by
  obtain ⟨phase, standing, underWay⟩ := awaits
  exact ⟨phase, same.trans standing, underWay⟩

/-- The read waits on if its task is not felt to change. -/
theorem Read.WaitsAs.mapPeers (waits : read.WaitsAs cluster task)
    (ids : ∀ peer, (change peer).id = peer.id)
    (same : ∀ peer ∈ cluster.peers, peer.id = read.owner →
      (change peer).flight.standing? task = peer.flight.standing? task) :
    read.WaitsAs (cluster.mapPeers change) task := by
  obtain ⟨progress, owned, peer, mem, mine, awaits⟩ := waits
  exact ⟨progress, owned, change peer, Cluster.mem_mapPeers.mpr ⟨peer, mem, rfl⟩,
    (ids peer).trans mine, awaits.congr (same peer mem mine)⟩

namespace Batch

/-! ## The invariant -/

/-- The cluster is sound, and the reads that have begun on it stand as its peers have them. -/
structure Sound (batch : Batch) (members : List String) : Prop where
  cluster : batch.cluster.Sound members
  reads : ∀ {i : Nat} {read : Read}, batch.reads[i]? = some read →
    read.Done ∨ ∃ task, read.WaitsAs batch.cluster task
  /-- Whoever leads is the task of a read that waits. -/
  leaders : ∀ peer ∈ batch.cluster.peers, ∀ {task : TaskId} {key : String},
    peer.flight.standing? task = some (key, .leading) →
      ∃ (i : Nat) (read : Read), batch.reads[i]? = some read ∧ read.owner = peer.id ∧
        read.progress = .waiting task
  /-- Of two reads that wait at one peer the earlier one has the earlier task. -/
  ordered : ∀ {i j : Nat} {earlier later : Read} {task task' : TaskId}, i < j →
    batch.reads[i]? = some earlier → batch.reads[j]? = some later →
      earlier.owner = later.owner → earlier.progress = .waiting task →
        later.progress = .waiting task' → task < task'

/-- A read that waits does so at the owner of its key, as a task of that peer which is under way. -/
theorem Sound.waitsAs {batch : Batch} {i : Nat} (sound : batch.Sound members)
    (found : batch.reads[i]? = some read) (waits : read.progress = .waiting task) :
    read.WaitsAs batch.cluster task := by
  rcases sound.reads found with done | ⟨task', waitsAs⟩
  · cases done.symm.trans waits
  · obtain rfl := Progress.waiting.inj (waitsAs.progress.symm.trans waits)
    exact waitsAs

/-- Two reads do not wait as one task. -/
theorem Sound.task_ne {batch : Batch} {i j : Nat} {read read' : Read} {task' : TaskId}
    (sound : batch.Sound members) (apart : i ≠ j) (found : batch.reads[i]? = some read)
    (found' : batch.reads[j]? = some read') (owner : read.owner = read'.owner)
    (waits : read.progress = .waiting task) (waits' : read'.progress = .waiting task') :
    task ≠ task' := by
  rcases Nat.lt_or_gt_of_ne apart with before | behind
  · exact Nat.ne_of_lt (sound.ordered before found found' owner waits waits')
  · exact Nat.ne_of_gt (sound.ordered behind found' found owner.symm waits' waits)

/-! ## What keeps it -/

/-- A change that no task feels. -/
theorem Sound.steady (sound : Sound ⟨cluster, reads⟩ members)
    (ids : ∀ peer, (change peer).id = peer.id)
    (sounds : ∀ peer ∈ cluster.peers, ∃ pairs, (change peer).Sound pairs)
    (same : ∀ peer ∈ cluster.peers, ∀ task,
      (change peer).flight.standing? task = peer.flight.standing? task) :
    Sound ⟨cluster.mapPeers change, reads⟩ members where
  cluster := sound.cluster.mapPeers ids sounds
  reads found := (sound.reads found).imp_right fun ⟨task, waits⟩ =>
    ⟨task, waits.mapPeers ids fun peer mem _ => same peer mem task⟩
  leaders := by
    intro other mem task key leads
    obtain ⟨peer, there, rfl⟩ := Cluster.mem_mapPeers.mp mem
    rw [same peer there] at leads
    rw [ids]
    exact sound.leaders peer there leads
  ordered := sound.ordered

/-- The same of a change at one peer, where only its tasks have to be looked at. -/
theorem Sound.steady_onlyAt (sound : Sound ⟨cluster, reads⟩ members) (mem : peer ∈ cluster.peers)
    (ids : ∀ peer, (change peer).id = peer.id) (changed : ∃ pairs, (change peer).Sound pairs)
    (same : ∀ task, (change peer).flight.standing? task = peer.flight.standing? task) :
    Sound ⟨cluster.mapPeers (Cluster.onlyAt peer.id change), reads⟩ members := by
  have sounds := sound.cluster.forall_onlyAt (P := fun _ later => ∃ pairs, later.Sound pairs) mem
    changed fun other there _ => sound.cluster.peers other there
  have steady := sound.cluster.forall_onlyAt
    (P := fun other later => ∀ task, later.flight.standing? task = other.flight.standing? task) mem
    same fun _ _ _ _ => rfl
  exact sound.steady (fun _ => Cluster.id_onlyAt ids) sounds steady

/-- A read that begins comes after all others. -/
theorem Sound.ordered_push {batch : Batch} (sound : batch.Sound members)
    (latest : ∀ {i : Nat} {earlier : Read} {task task' : TaskId}, batch.reads[i]? = some earlier →
      earlier.owner = read.owner → earlier.progress = .waiting task →
        read.progress = .waiting task' → task < task')
    {i j : Nat} {earlier later : Read} {task task' : TaskId} (before : i < j)
    (found : (batch.reads.push read)[i]? = some earlier)
    (found' : (batch.reads.push read)[j]? = some later) (owner : earlier.owner = later.owner)
    (waits : earlier.progress = .waiting task) (waits' : later.progress = .waiting task') :
    task < task' := by
  rw [Array.getElem?_push] at found found'
  split at found'
  · next last =>
    obtain rfl := Option.some.inj found'
    rw [if_neg (last ▸ Nat.ne_of_lt before)] at found
    exact latest found owner waits waits'
  · have inside := (Array.getElem?_eq_some_iff.mp found').1
    rw [if_neg (Nat.ne_of_lt (before.trans inside))] at found
    exact sound.ordered before found found' owner waits waits'

/-- A new read leaves those that have begun in their places. -/
theorem getElem?_push_of_some {i : Nat} {old : Read} (found : reads[i]? = some old) (new : Read) :
    (reads.push new)[i]? = some old := by
  rw [Array.getElem?_push, if_neg (Nat.ne_of_lt (Array.getElem?_eq_some_iff.mp found).1), found]

/-- A read that has ended as it begins. -/
theorem Sound.push_done (sound : Sound ⟨cluster, reads⟩ members) (done : read.Done) :
    Sound ⟨cluster, reads.push read⟩ members where
  cluster := sound.cluster
  reads := by
    intro i other found
    rw [Array.getElem?_push] at found
    split at found
    · obtain rfl := Option.some.inj found
      exact .inl done
    · exact sound.reads found
  leaders := by
    intro peer mem task key leads
    obtain ⟨i, other, found, rest⟩ := sound.leaders peer mem leads
    exact ⟨i, other, getElem?_push_of_some found read, rest⟩
  ordered := sound.ordered_push fun _ _ _ waits => nomatch done.symm.trans waits

/-- A read that begins and waits as a new task of the peer that owns its key. -/
theorem Sound.begun (sound : Sound ⟨cluster, reads⟩ members) (mem : peer ∈ cluster.peers)
    (ids : ∀ peer, (change peer).id = peer.id) (changed : ∃ pairs, (change peer).Sound pairs)
    (owned : cluster.ring.lookup key = some peer.id)
    (newest : ∀ {other standing}, peer.flight.standing? other = some standing → other < task)
    (awaits : (change peer).flight.Awaits task key)
    (same : ∀ other, task ≠ other →
      (change peer).flight.standing? other = peer.flight.standing? other) :
    Sound ⟨cluster.mapPeers (Cluster.onlyAt peer.id change),
      reads.push { key, owner := peer.id, progress := .waiting task }⟩ members := by
  have ids' : ∀ p, (Cluster.onlyAt peer.id change p).id = p.id := fun _ => Cluster.id_onlyAt ids
  -- a task that was there is an earlier one, and it does not feel the new one
  have kept : ∀ p ∈ cluster.peers, ∀ {other standing}, p.flight.standing? other = some standing →
      (Cluster.onlyAt peer.id change p).flight.standing? other = some standing := by
    intro p there other standing before
    by_cases mine : p.id = peer.id
    · obtain rfl := sound.cluster.eq_of_id_eq there mem mine
      rw [Cluster.onlyAt_of_eq rfl, same other (Nat.ne_of_gt (newest before)), before]
    · rw [Cluster.onlyAt_of_ne mine, before]
  constructor
  case cluster => exact sound.cluster.onlyAt ids mem changed
  case reads =>
    intro i read found
    rw [Array.getElem?_push] at found
    split at found
    · obtain rfl := Option.some.inj found
      refine .inr ⟨task, rfl, owned, change peer, ?_, ids peer, awaits⟩
      exact Cluster.mem_mapPeers.mpr ⟨peer, mem, Cluster.onlyAt_of_eq rfl⟩
    · refine (sound.reads found).imp_right fun ⟨task, waits⟩ => ⟨task, ?_⟩
      obtain ⟨progress, owned, p, there, mine, phase, standing, underWay⟩ := waits
      exact ⟨progress, owned, _, Cluster.mem_mapPeers.mpr ⟨p, there, rfl⟩, (ids' p).trans mine,
        phase, kept p there standing, underWay⟩
  case leaders =>
    intro _ mem' other wanted leads
    obtain ⟨p, there, rfl⟩ := Cluster.mem_mapPeers.mp mem'
    rw [ids']
    by_cases mine : p.id = peer.id ∧ task = other
    · obtain ⟨mine, rfl⟩ := mine
      exact ⟨reads.size, _, Array.getElem?_push_size, mine.symm, rfl⟩
    · have before : p.flight.standing? other = some (wanted, .leading) := by
        by_cases here : p.id = peer.id
        · obtain rfl := sound.cluster.eq_of_id_eq there mem here
          rwa [Cluster.onlyAt_of_eq rfl, same other fun eq => mine ⟨rfl, eq⟩] at leads
        · rwa [Cluster.onlyAt_of_ne here] at leads
      obtain ⟨i, read, found, rest⟩ := sound.leaders p there before
      exact ⟨i, read, getElem?_push_of_some found _, rest⟩
  case ordered =>
    refine sound.ordered_push fun {i earlier task' _} found owner waits new => ?_
    obtain rfl := Progress.waiting.inj new
    obtain ⟨p, there, mine, _, standing, -⟩ := (sound.waitsAs found waits).awaited
    obtain rfl := sound.cluster.eq_of_id_eq there mem (mine.trans owner)
    exact newest standing

/-- A read that ends, and with it its task. -/
theorem Sound.ended {i : Nat} (sound : Sound ⟨cluster, reads⟩ members) (mem : peer ∈ cluster.peers)
    (ids : ∀ peer, (change peer).id = peer.id) (changed : ∃ pairs, (change peer).Sound pairs)
    (found : reads[i]? = some read) (owner : read.owner = peer.id)
    (waits : read.progress = .waiting task)
    (ended : ∀ other, (change peer).flight.standing? other =
      if task = other then some (read.key, .ended) else peer.flight.standing? other) :
    Sound ⟨cluster.mapPeers (Cluster.onlyAt peer.id change),
      reads.setIfInBounds i { read with progress := .finished (Store.load read.key) }⟩ members := by
  have ids' : ∀ p, (Cluster.onlyAt peer.id change p).id = p.id := fun _ => Cluster.id_onlyAt ids
  have inside := (Array.getElem?_eq_some_iff.mp found).1
  -- the other reads are as they were
  have others : ∀ {j old}, i ≠ j → ((reads.setIfInBounds i
      { read with progress := .finished (Store.load read.key) })[j]? = some old ↔
        reads[j]? = some old) := by
    intro j old apart
    rw [Array.getElem?_setIfInBounds_ne apart]
  constructor
  case cluster => exact sound.cluster.onlyAt ids mem changed
  case reads =>
    intro j old found'
    by_cases same : i = j
    · rw [Array.getElem?_setIfInBounds, if_pos same, if_pos inside] at found'
      obtain rfl := Option.some.inj found'
      exact .inl rfl
    · have found'' := (others same).mp found'
      refine (sound.reads found'').imp_right fun ⟨task', waits'⟩ => ⟨task', ?_⟩
      refine waits'.mapPeers ids' fun p there mine => ?_
      by_cases here : p.id = peer.id
      · -- no other read waits as the task that is over
        obtain rfl := sound.cluster.eq_of_id_eq there mem here
        have apart := sound.task_ne same found found'' (owner.trans mine) waits waits'.progress
        rw [Cluster.onlyAt_of_eq rfl, ended, if_neg apart]
      · rw [Cluster.onlyAt_of_ne here]
  case leaders =>
    intro _ mem' other wanted leads
    obtain ⟨p, there, rfl⟩ := Cluster.mem_mapPeers.mp mem'
    rw [ids']
    have before : p.flight.standing? other = some (wanted, .leading) ∧
        (p.id = peer.id → task ≠ other) := by
      by_cases here : p.id = peer.id
      · obtain rfl := sound.cluster.eq_of_id_eq there mem here
        rw [Cluster.onlyAt_of_eq rfl, ended] at leads
        split at leads
        · cases leads
        · next apart => exact ⟨leads, fun _ => apart⟩
      · rw [Cluster.onlyAt_of_ne here] at leads
        exact ⟨leads, fun same => absurd same here⟩
    obtain ⟨j, old, found', owner', waits'⟩ := sound.leaders p there before.1
    refine ⟨j, old, (others ?_).mpr found', owner', waits'⟩
    rintro rfl
    obtain rfl := Option.some.inj (found.symm.trans found')
    exact before.2 (owner'.symm.trans owner) (Progress.waiting.inj (waits.symm.trans waits'))
  case ordered =>
    intro j k earlier later task task' before found' found'' owner waits waits'
    by_cases same : i = j
    · rw [Array.getElem?_setIfInBounds, if_pos same, if_pos inside] at found'
      obtain rfl := Option.some.inj found'
      cases waits
    · by_cases same' : i = k
      · rw [Array.getElem?_setIfInBounds, if_pos same', if_pos inside] at found''
        obtain rfl := Option.some.inj found''
        cases waits'
      · exact sound.ordered before ((others same).mp found') ((others same').mp found'') owner waits
          waits'

end Batch

/-! ## What comes to be cached -/

namespace Cluster

variable {cluster' : Cluster} {works : String → Prop}

/-- A read starts at the peer that owns its key. -/
theorem Sound.start_eq (sound : cluster.Sound members) (mem : peer ∈ cluster.peers)
    (owned : cluster.ring.lookup key = some peer.id) :
    cluster.start key =
      ⟨cluster.mapPeers (Cluster.onlyAt peer.id fun p => (p.start key).state),
        (peer.start key).answer.map fun progress => { key, owner := peer.id, progress },
        (peer.start key).events⟩ := by
  rw [Cluster.start, Cluster.owner, owned]
  simp only [Cluster.atPeer_eq sound.distinct mem]
  rfl

/-- The peer of that id has the key cached. -/
def Holds (cluster : Cluster) (id key : String) : Prop :=
  ∃ peer ∈ cluster.peers, peer.id = id ∧ peer.holds key = .ok true

/-- What was done here at most cached some of these keys anew, each at its owner. -/
structure Fills (cluster : Cluster) (works : String → Prop) (cluster' : Cluster) : Prop where
  ring : cluster'.ring = cluster.ring
  held : ∀ {id key : String}, cluster'.Holds id key →
    cluster.Holds id key ∨ works key ∧ cluster.ring.lookup key = some id

theorem Fills.refl : cluster.Fills works cluster :=
  ⟨rfl, .inl⟩

/-- Nothing has been cached anew. -/
theorem Fills.held_before {id key : String} (fills : cluster.Fills (fun _ => False) cluster')
    (holds : cluster'.Holds id key) : cluster.Holds id key :=
  (fills.held holds).resolve_right fun never => never.1

/-- What a change of the peers may cache anew is seen peer by peer. That the peers are sound says
what they held before. -/
theorem Sound.fills_mapPeers (sound : cluster.Sound members)
    (ids : ∀ peer, (change peer).id = peer.id)
    (caches : ∀ peer ∈ cluster.peers, ∀ pairs, peer.Sound pairs → ∃ pairs',
      (change peer).Sound pairs' ∧ ∀ key ∈ pairs'.map Prod.fst,
        key ∈ pairs.map Prod.fst ∨ works key ∧ cluster.ring.lookup key = some peer.id) :
    cluster.Fills works (cluster.mapPeers change) := by
  refine ⟨rfl, fun {id key} holds => ?_⟩
  obtain ⟨_, mem, rfl, held⟩ := holds
  obtain ⟨peer, there, rfl⟩ := mem_mapPeers.mp mem
  obtain ⟨pairs, before⟩ := sound.peers peer there
  obtain ⟨pairs', after, fewer⟩ := caches peer there pairs before
  rw [ids]
  refine (fewer key (after.holds_iff.mp held)).imp_left fun old => ?_
  exact ⟨peer, there, rfl, before.holds_iff.mpr old⟩

/-- What one peer may cache anew, the cluster may. -/
theorem Sound.fills_onlyAt (sound : cluster.Sound members) (mem : peer ∈ cluster.peers)
    (ids : ∀ peer, (change peer).id = peer.id)
    (caches : ∀ pairs, peer.Sound pairs → ∃ pairs',
      (change peer).Sound pairs' ∧ ∀ key ∈ pairs'.map Prod.fst,
        key ∈ pairs.map Prod.fst ∨ works key ∧ cluster.ring.lookup key = some peer.id) :
    cluster.Fills works (cluster.mapPeers (Cluster.onlyAt peer.id change)) := by
  refine sound.fills_mapPeers (fun _ => id_onlyAt ids) fun other there pairs before => ?_
  by_cases same : other.id = peer.id
  · obtain rfl := sound.eq_of_id_eq there mem same
    rw [onlyAt_of_eq rfl]
    exact caches pairs before
  · rw [onlyAt_of_ne same]
    exact ⟨pairs, before, fun _ => .inl⟩

end Cluster

/-! ## One turn -/

/-- The keys of the reads that a turn begins. -/
def Turn.begins : Turn → List String
  | .start key => [key]
  | .elapse | .resume _ => []

namespace Batch

/-- The key of the read that a turn goes on with. -/
def WorksFor (batch : Batch) (key : String) : Turn → Prop
  | .start begun => begun = key
  | .elapse => False
  | .resume i => ∃ read, batch.reads[i]? = some read ∧ read.answer? = none ∧ read.key = key

/-- The keys of the reads that have begun, in order. -/
def keys (batch : Batch) : List String :=
  batch.reads.toList.map Read.key

/-- Every read counts with its key, also if another one has the same. -/
theorem length_keys {batch : Batch} : batch.keys.length = batch.reads.size :=
  List.length_map _

/-- What is left behind by a turn that ends well. -/
structure Took (batch : Batch) (members : List String) (turn : Turn) (step : Step Batch Unit) :
    Prop where
  answer : step.answer = .ok ()
  sound : step.state.Sound members
  fills : batch.cluster.Fills (batch.WorksFor · turn) step.state.cluster
  keys : step.state.keys = batch.keys ++ turn.begins

/-- A read that begins is answered from the cache of its owner or waits there as a new task. It
caches nothing yet, though the look into the cache may change the order there. -/
theorem Sound.take_start {batch : Batch} (sound : batch.Sound members)
    (ne : batch.cluster.peers ≠ []) (key : String) :
    batch.Took members (.start key) (batch.take (.start key)) := by
  obtain ⟨cluster, reads⟩ := batch
  obtain ⟨peer, mem, owned⟩ := sound.cluster.exists_owner ne key
  obtain ⟨pairs, peerSound⟩ := sound.cluster.peers peer mem
  have started := sound.cluster.start_eq mem owned
  obtain ⟨⟨pairs', after, same⟩, way⟩ := peerSound.start key
  have fills : cluster.Fills (Batch.WorksFor ⟨cluster, reads⟩ · (.start key))
      (cluster.mapPeers (Cluster.onlyAt peer.id fun p => (p.start key).state)) :=
    sound.cluster.fills_onlyAt mem (fun _ => Peer.id_start) fun pairs before =>
      let ⟨⟨pairs', after, same⟩, _⟩ := before.start key
      ⟨pairs', after, fun other mem => .inl ((same other).mp mem)⟩
  have keys : ∀ progress, (reads.push { key, owner := peer.id, progress }).toList.map Read.key =
      reads.toList.map Read.key ++ [key] := by
    intro progress
    rw [Array.toList_push, List.map_append, List.map_singleton]
  rcases way with ⟨answer, flight⟩ | ⟨task, answer, newest, awaits, others⟩
  · simp only [take, started, answer, Except.map]
    refine ⟨rfl, ?_, fills, keys _⟩
    refine Sound.push_done (sound.steady_onlyAt mem (fun _ => Peer.id_start) ⟨pairs', after⟩ ?_) rfl
    intro task
    rw [flight]
  · simp only [take, started, answer, Except.map]
    refine ⟨rfl, ?_, fills, keys _⟩
    exact sound.begun mem (fun _ => Peer.id_start) ⟨pairs', after⟩ owned newest awaits others

/-- That time passes is felt by no task and changes no cache. -/
theorem Sound.take_elapse {batch : Batch} (sound : batch.Sound members) :
    batch.Took members .elapse (batch.take .elapse) := by
  obtain ⟨cluster, reads⟩ := batch
  have sounds : ∀ peer ∈ cluster.peers, ∃ pairs, peer.elapse.Sound pairs := fun peer mem =>
    (sound.cluster.peers peer mem).imp fun _ before => before.elapse
  refine ⟨rfl, sound.steady (fun _ => rfl) sounds fun peer mem task => ?_, ?_, ?_⟩
  · obtain ⟨pairs, before⟩ := sound.cluster.peers peer mem
    exact before.loads.elapse.2.1 task
  · exact sound.cluster.fills_mapPeers (fun _ => rfl) fun peer mem pairs before =>
      ⟨pairs, before.elapse, fun _ => .inl⟩
  · exact (List.append_nil _).symm

/-- To put a read where it is already changes nothing. -/
theorem setIfInBounds_of_getElem? {i : Nat} (found : reads[i]? = some read) :
    reads.setIfInBounds i read = reads := by
  refine Array.ext_getElem? fun j => ?_
  rw [Array.getElem?_setIfInBounds]
  split
  · next same => rw [← same, found, if_pos (Array.getElem?_eq_some_iff.mp found).1]
  · rfl

/-- What polling a read makes of a batch: nothing if the read has ended, else the next step of its
task. -/
inductive Resumed (batch : Batch) (k : Nat) : Batch → Prop where
  | idle (ended : ∀ {read}, batch.reads[k]? = some read → read.Done) : Resumed batch k batch
  | went {read : Read} {task : TaskId} {peer : Peer} {progress : Progress}
      (found : batch.reads[k]? = some read) (waits : read.progress = .waiting task)
      (mem : peer ∈ batch.cluster.peers) (owner : peer.id = read.owner)
      (awaits : peer.flight.Awaits task read.key)
      (answer : (peer.resume read.key task).answer = .ok progress) :
      Resumed batch k
        ⟨batch.cluster.mapPeers (Cluster.onlyAt peer.id fun p => (p.resume read.key task).state),
          batch.reads.setIfInBounds k { read with progress }⟩

/-- A poll of a read cannot fail, and it is one of the two things `Resumed` lists: either the read
has ended, or its task is there and moves. -/
theorem Sound.resumed {batch : Batch} (sound : batch.Sound members) (k : Nat) :
    (batch.take (.resume k)).answer = .ok () ∧ Resumed batch k (batch.take (.resume k)).state := by
  obtain ⟨cluster, reads⟩ := batch
  cases found : reads[k]? with
  | none =>
    have same : Batch.take (.resume k) ⟨cluster, reads⟩ = .done ⟨cluster, reads⟩ () := by
      simp only [Batch.take, found]
    rw [same]
    exact ⟨rfl, .idle fun there => nomatch found.symm.trans there⟩
  | some read =>
    rcases sound.reads found with done | ⟨task, waits, owned, peer, mem, owner, awaits⟩
    · have progress : read.progress = _ := done
      have same : Batch.take (.resume k) ⟨cluster, reads⟩ = .done ⟨cluster, reads⟩ () := by
        simp only [Batch.take, found, Cluster.resume, progress, Step.done,
          setIfInBounds_of_getElem? found]
      rw [same]
      exact ⟨rfl, .idle fun there => Option.some.inj (found.symm.trans there) ▸ done⟩
    · obtain ⟨pairs, peerSound⟩ := sound.cluster.peers peer mem
      obtain ⟨progress, answer⟩ :
          ∃ progress, (peer.resume read.key task).answer = .ok progress := by
        obtain ⟨-, ⟨answer, -⟩ | ⟨answer, -⟩⟩ := peerSound.resume awaits
        · exact ⟨_, answer⟩
        · exact ⟨_, answer⟩
      have resumed : cluster.resume read =
          ⟨cluster.mapPeers (Cluster.onlyAt peer.id fun p => (p.resume read.key task).state),
            .ok { read with progress }, (peer.resume read.key task).events⟩ := by
        rw [Cluster.resume]
        simp only [waits, ← owner, Cluster.atPeer_eq sound.cluster.distinct mem, answer]
        rfl
      simp only [Batch.take, found, resumed, true_and]
      exact .went found waits mem owner awaits answer

/-- A poll of a read caches at most the key of this read, at the peer where it began. This peer owns
the key, for peers join only while no read waits. -/
theorem Sound.take_resume {batch : Batch} (sound : batch.Sound members) (k : Nat) :
    batch.Took members (.resume k) (batch.take (.resume k)) := by
  obtain ⟨ok, resumed⟩ := sound.resumed k
  suffices (Batch.take (.resume k) batch).state.Sound members ∧
      batch.cluster.Fills (batch.WorksFor · (.resume k)) (batch.take (.resume k)).state.cluster ∧
      (batch.take (.resume k)).state.keys = batch.keys ++ [] from ⟨ok, this.1, this.2.1, this.2.2⟩
  generalize (batch.take (.resume k)).state = later at resumed ⊢
  cases resumed with
  | idle => exact ⟨sound, .refl, (List.append_nil _).symm⟩
  | @went read task peer progress found waits mem owner awaits answer =>
    obtain ⟨cluster, reads⟩ := batch
    have owned := (sound.waitsAs found waits).owned
    obtain ⟨pairs, peerSound⟩ := sound.cluster.peers peer mem
    obtain ⟨⟨pairs', after, -⟩, way⟩ := peerSound.resume awaits
    refine ⟨?_, ?_, ?_⟩
    · rcases way with ⟨answer', same⟩ | ⟨answer', ended⟩
      · obtain rfl := Except.ok.inj (answer.symm.trans answer')
        have unchanged : { read with progress := .waiting task } = read := by rw [← waits]
        rw [unchanged, setIfInBounds_of_getElem? found]
        exact sound.steady_onlyAt mem (fun _ => Peer.id_resume) ⟨pairs', after⟩ same
      · obtain rfl := Except.ok.inj (answer.symm.trans answer')
        exact sound.ended mem (fun _ => Peer.id_resume) ⟨pairs', after⟩ found owner.symm waits ended
    · refine sound.cluster.fills_onlyAt mem (fun _ => Peer.id_resume) fun pairs before => ?_
      obtain ⟨⟨pairs', after, fewer⟩, -⟩ := before.resume awaits
      refine ⟨pairs', after, fun other there => ?_⟩
      rcases fewer other there with rfl | old
      · exact .inr ⟨⟨read, found, by rw [Read.answer?, waits], rfl⟩, owner ▸ owned⟩
      · exact .inl old
    · have same := congrArg (fun reads => reads.toList.map Read.key)
        (setIfInBounds_of_getElem? found)
      simp only [Batch.keys, Array.toList_setIfInBounds, List.map_set, List.append_nil] at same ⊢
      exact same

/-- **A turn ends well and leaves the reads in order**, if a read begins only where there is a
peer. -/
theorem Sound.take {batch : Batch} (sound : batch.Sound members) (turn : Turn)
    (allowed : batch.Allows (.turn turn)) : batch.Took members turn (batch.take turn) := by
  cases turn with
  | start key => exact sound.take_start allowed key
  | elapse => exact sound.take_elapse
  | resume i => exact sound.take_resume i

end Batch

end PeerCache
