import PeerCache.Proofs.Cluster.Counting
import PeerCache.Proofs.Cluster.Ownership

/-!
# What a cluster without a bound loads again

Without a bound a peer gives up no key for another one, so that a key is cached at its owner from
the first read there on. It leaves that peer when another one joins and takes it over, and it does
not come back, since a peer that joins is a new one. `Remembers` says so of a key that the store has
and that no owner drops, in terms of the peers where its reads began (`Batch.askedAt`): the owner
holds the key just if its last read began there (`Remembers.holds_iff`). With what a batch loads
this says which keys are loaded (`load_accounting`).
-/

namespace PeerCache

/-! ## Peers without a bound -/

namespace Peer

variable {peer : Peer} {pairs : List (String × String)} {key wanted : String} {task : TaskId}

/-- The most pairs that the peer caches; with 0 there is no bound. -/
def bound (peer : Peer) : Nat :=
  peer.cache.cache.maxEntries

/-- Whatever a poll brings, the peer keeps the bound of its cache. -/
@[simp] theorem bound_receive {polled : Polled String LoadError} :
    (peer.receive key task polled).state.bound = peer.bound := by
  unfold receive
  cases polled.answer with
  | returned result =>
    cases result with
    | ok value => exact SharedCache.maxEntries_locked fun _ => Cache.maxEntries_add
    | error e => rfl
  | _ => rfl

/-- The look into the cache and the poll behind it keep the bound, one after the other. -/
@[simp] theorem bound_start : (peer.start key).state.bound = peer.bound := by
  have looked : (peer.cache.get key).state.cache.maxEntries = peer.bound :=
    SharedCache.maxEntries_locked fun _ => Cache.maxEntries_get
  unfold start
  simp only
  split
  · exact looked
  · exact looked
  · exact bound_receive.trans looked

@[simp] theorem bound_resume : (peer.resume key task).state.bound = peer.bound := bound_receive

@[simp] theorem bound_evict : (peer.evict key).state.bound = peer.bound :=
  SharedCache.maxEntries_locked fun _ => Cache.maxEntries_remove

@[simp] theorem bound_evictAll {keys : List String} : (peer.evictAll keys).bound = peer.bound := by
  induction keys generalizing peer with
  | nil => rfl
  | cons key keys ih => rw [evictAll_cons, ih, bound_evict]

@[simp] theorem bound_finish : (peer.finish key).bound = peer.bound := by
  unfold finish
  split <;> rfl

/-- A read that ends as it starts is one of a cached key. -/
theorem Sound.held_of_finished {answer : Except LoadError String} (sound : peer.Sound pairs)
    (finished : (peer.start key).answer = .ok (.finished answer)) : peer.holds key = .ok true := by
  cases held : decide (key ∈ pairs.map Prod.fst) with
  | true => rw [sound.holds, held]
  | false =>
    have missing : peer.holds key = .ok false := by rw [sound.holds, held]
    obtain ⟨pending, -⟩ := sound.loads.begin key
    simp only [Peer.start, sound.get_of_missing missing, Peer.receive, pending] at finished
    cases finished

/-- A key that is cached after another one was evicted was so before. -/
theorem Sound.held_of_evict (sound : peer.Sound pairs)
    (held : (peer.evict key).state.holds wanted = .ok true) : peer.holds wanted = .ok true := by
  rw [(sound.evict key).2.holds_iff] at held
  obtain ⟨pair, mem, rfl⟩ := List.mem_map.mp held
  exact sound.holds_iff.mpr (List.mem_map_of_mem (List.mem_of_mem_filter mem))

/-- To evict a key leaves every other one cached. -/
theorem Sound.held_evict (sound : peer.Sound pairs) (apart : wanted ≠ key)
    (held : peer.holds wanted = .ok true) : (peer.evict key).state.holds wanted = .ok true := by
  obtain ⟨pair, mem, rfl⟩ := List.mem_map.mp (sound.holds_iff.mp held)
  refine (sound.evict key).2.holds_iff.mpr (List.mem_map_of_mem (List.mem_filter.mpr ⟨mem, ?_⟩))
  exact bne_iff_ne.mpr apart

/-- **A peer without a bound gives up no key when a read goes on**, and holds the key of one that
ends with a value. -/
theorem Sound.holds_resume (sound : peer.Sound pairs) (unbounded : peer.bound = 0)
    (awaits : peer.flight.Awaits task key) :
    (∀ wanted, peer.holds wanted = .ok true →
        (peer.resume key task).state.holds wanted = .ok true) ∧
      ((peer.resume key task).answer = .ok (.finished (Store.load key)) →
        Store.lacks key = false → (peer.resume key task).state.holds key = .ok true) := by
  obtain ⟨loads, ⟨pending, -⟩ | ⟨returned, -⟩⟩ := sound.loads.continue awaits
  · obtain ⟨waits, after⟩ := sound.receive_pending loads pending
    refine ⟨fun wanted held => ?_, fun finished => nomatch waits.symm.trans finished⟩
    rw [Peer.resume, after.holds, ← sound.holds, held]
  · cases loaded : Store.load key with
    | error e =>
      rw [loaded] at returned
      simp only [Peer.resume, Peer.receive, returned]
      refine ⟨fun _ held => held, fun _ has => ?_⟩
      rw [Store.load, if_neg (by rw [has]; exact Bool.false_ne_true)] at loaded
      cases loaded
    | ok value =>
      rw [loaded] at returned
      obtain ⟨pairs', keeps, all⟩ := sound.keeps.add_unbounded unbounded key value
      have holds : ∀ wanted, wanted ∈ pairs'.map Prod.fst →
          (peer.resume key task).state.holds wanted = .ok true := by
        intro wanted mem
        obtain ⟨pair, there, rfl⟩ := List.mem_map.mp mem
        simp only [Peer.resume, Peer.receive, returned, Peer.holds, keeps.contains]
        refine congrArg Except.ok (List.any_eq_true.mpr ⟨pair, there, beq_self_eq_true pair.1⟩)
      refine ⟨fun wanted held => holds wanted ?_, fun _ _ => holds key ?_⟩
      · exact (all wanted).mpr (.inr (sound.holds_iff.mp held))
      · exact (all key).mpr (.inl rfl)

end Peer

/-! ## Clusters without a bound -/

namespace Cluster

variable {cluster : Cluster} {members known : List String} {peer : Peer} {change : Peer → Peer}
  {id former key : String} {bound : Nat}

/-- Every peer caches as many pairs at most as a peer that joins would. -/
structure Bounded (cluster : Cluster) (bound : Nat) : Prop where
  own : cluster.maxEntries = bound
  peers : ∀ peer ∈ cluster.peers, peer.bound = bound

/-- Peers that keep their bounds are bounded as before. -/
theorem Bounded.mapPeers (bounded : cluster.Bounded bound)
    (same : ∀ peer, (change peer).bound = peer.bound) :
    (cluster.mapPeers change).Bounded bound := by
  refine ⟨bounded.own, fun other mem => ?_⟩
  obtain ⟨peer, there, rfl⟩ := mem_mapPeers.mp mem
  exact (same peer).trans (bounded.peers peer there)

theorem bound_onlyAt (same : ∀ peer, (change peer).bound = peer.bound) :
    (onlyAt id change peer).bound = peer.bound := by
  unfold onlyAt
  split
  · exact same peer
  · rfl

/-- A peer that joins has the bound of the cluster, and the others keep theirs when keys are taken
from them. -/
theorem Sound.bounded_addPeer (sound : cluster.Sound members) (bounded : cluster.Bounded bound) :
    (cluster.addPeer id known).state.Bounded bound := by
  have joined : (cluster.withPeer id).Bounded bound := by
    refine ⟨bounded.own, fun peer mem => ?_⟩
    rcases mem_putPeer.mp mem with rfl | ⟨old, -⟩
    · exact bounded.own
    · exact bounded.peers peer old
  rw [(sound.addPeer id known).2.2]
  exact joined.mapPeers fun _ => Peer.bound_evictAll

/-- A cluster gives the peers that join later the bound it was created with. -/
theorem maxEntries_create {ids : List String} {replicas : Nat} {new : Cluster}
    (created : create ids replicas bound = .ok new) : new.maxEntries = bound := by
  unfold create at created
  split at created
  · cases created
  · obtain rfl := Except.ok.inj created
    rfl

/-! ## Who holds a key still -/

/-- A change of all peers leaves a peer under each id. -/
theorem exists_mapPeers (ids : ∀ peer, (change peer).id = peer.id)
    (there : ∃ peer ∈ cluster.peers, peer.id = id) :
    ∃ peer ∈ (cluster.mapPeers change).peers, peer.id = id := by
  obtain ⟨peer, mem, rfl⟩ := there
  exact ⟨_, mem_mapPeers.mpr ⟨peer, mem, rfl⟩, ids peer⟩

/-- A key stays held where the change of that peer keeps it. -/
theorem Holds.mapPeers (holds : cluster.Holds id key) (ids : ∀ peer, (change peer).id = peer.id)
    (kept : ∀ peer ∈ cluster.peers, peer.id = id → peer.holds key = .ok true →
      (change peer).holds key = .ok true) : (cluster.mapPeers change).Holds id key := by
  obtain ⟨peer, mem, same, held⟩ := holds
  exact ⟨_, mem_mapPeers.mpr ⟨peer, mem, rfl⟩, (ids peer).trans same, kept peer mem same held⟩

/-- If a change brings no peer the key, it was held before where it is held after. -/
theorem Holds.of_mapPeers (holds : (cluster.mapPeers change).Holds id key)
    (ids : ∀ peer, (change peer).id = peer.id)
    (fewer : ∀ peer ∈ cluster.peers, (change peer).holds key = .ok true →
      peer.holds key = .ok true) : cluster.Holds id key := by
  obtain ⟨_, mem, rfl, held⟩ := holds
  obtain ⟨peer, there, rfl⟩ := mem_mapPeers.mp mem
  exact ⟨peer, there, (ids peer).symm, fewer peer there held⟩

/-- A key that has a peer as owner that was there before has had it all the time. -/
theorem Sound.lookup_of_addPeer (sound : cluster.Sound members)
    (owned : (cluster.addPeer id known).state.ring.lookup key = some former) (apart : former ≠ id) :
    cluster.ring.lookup key = some former := by
  rw [sound.ring_addPeer] at owned
  by_contra moved
  obtain ⟨replicas, records⟩ := sound.records
  have moves : (cluster.ring.current.ring.addNodes [id]).lookup key ≠
      cluster.ring.current.ring.lookup key := fun same => moved (same.symm.trans owned)
  obtain ⟨owner, mem, found⟩ := records.mem_of_lookup_addNodes_ne moves
  rw [List.mem_singleton] at mem
  exact apart (Option.some.inj (owned.symm.trans (mem ▸ found)))

end Cluster

namespace Batch

variable {batch : Batch} {cluster : Cluster} {reads : Array Read} {members known : List String}
  {peer : Peer} {read : Read} {change : Peer → Peer} {id key : String} {op : ClusterOp}
  {ops : List ClusterOp}

/-! ## Where reads began -/

/-- The keys of the reads that have begun and the peers where they began, in order. -/
def visits (batch : Batch) : List (String × String) :=
  batch.reads.toList.map fun read => (read.key, read.owner)

/-- The peers where reads of a key began, in order. -/
def askedAt (batch : Batch) (key : String) : List String :=
  (batch.visits.filter (·.1 = key)).map Prod.snd

/-- A peer was asked for a key if a read of this key began there. -/
theorem mem_askedAt :
    id ∈ batch.askedAt key ↔ ∃ read ∈ batch.reads, read.key = key ∧ read.owner = id := by
  simp only [askedAt, visits, List.mem_map, List.mem_filter, decide_eq_true_iff,
    Array.mem_toList_iff]
  constructor
  · rintro ⟨_, ⟨⟨read, mem, rfl⟩, same⟩, rfl⟩
    exact ⟨read, mem, same, rfl⟩
  · rintro ⟨read, mem, same, rfl⟩
    exact ⟨_, ⟨⟨read, mem, rfl⟩, same⟩, rfl⟩

/-- A key was read if it was read somewhere. -/
theorem mem_keys_iff : key ∈ batch.keys ↔ batch.askedAt key ≠ [] := by
  constructor
  · intro mem
    obtain ⟨read, there, rfl⟩ := List.mem_map.mp mem
    exact List.ne_nil_of_mem (mem_askedAt.mpr ⟨read, Array.mem_toList_iff.mp there, rfl, rfl⟩)
  · intro ne
    obtain ⟨id, mem⟩ := List.exists_mem_of_ne_nil _ ne
    obtain ⟨read, there, rfl, -⟩ := mem_askedAt.mp mem
    exact List.mem_map_of_mem (Array.mem_toList_iff.mpr there)

/-- A new read adds the peer where it began to those asked for its key, in the last place. -/
theorem askedAt_push :
    Batch.askedAt ⟨cluster, reads.push read⟩ key =
      if read.key = key then Batch.askedAt ⟨cluster, reads⟩ key ++ [read.owner]
      else Batch.askedAt ⟨cluster, reads⟩ key := by
  simp only [askedAt, visits, Array.toList_push, List.map_append, List.filter_append,
    List.map_singleton, List.filter_singleton]
  split
  · next same => simp [same]
  · next apart => simp [apart]

/-- A read that goes on has begun where it has begun. -/
theorem Resumed.visits_eq {k : Nat} {later : Batch} (resumed : Resumed batch k later) :
    later.visits = batch.visits := by
  cases resumed with
  | idle => rfl
  | went found =>
    have same := congrArg (fun reads => reads.toList.map fun read => (read.key, read.owner))
      (setIfInBounds_of_getElem? found)
    simp only [visits, Array.toList_setIfInBounds, List.map_set] at same ⊢
    exact same

/-! ## The invariant -/

/-- What is held of a key is what was read of it, and the owner holds it from the first read there
on. -/
structure Remembers (batch : Batch) (key : String) : Prop where
  bounded : batch.cluster.Bounded 0
  there : ∀ id ∈ batch.askedAt key, ∃ peer ∈ batch.cluster.peers, peer.id = id
  asked : ∀ id, batch.cluster.Holds id key → id ∈ batch.askedAt key
  /-- Once the key has come to its owner it is read there and nowhere else. -/
  last : ∀ id ∈ batch.askedAt key, batch.cluster.ring.lookup key = some id →
    (batch.askedAt key).getLast? = some id
  kept : ∀ read ∈ batch.reads, read.key = key → read.Done →
    batch.cluster.ring.lookup key = some read.owner → batch.cluster.Holds read.owner key

/-- **The owner holds the key just if its last read began there.** -/
theorem Remembers.holds_iff (remembers : batch.Remembers key) (sound : batch.Sound members)
    (settled : batch.Settled) (owned : batch.cluster.ring.lookup key = some id) :
    batch.cluster.Holds id key ↔ (batch.askedAt key).getLast? = some id := by
  constructor
  · exact fun holds => remembers.last id (remembers.asked id holds) owned
  · intro last
    obtain ⟨read, mem, same, rfl⟩ := mem_askedAt.mp (List.mem_of_getLast? last)
    obtain ⟨i, inside, rfl⟩ := Array.mem_iff_getElem.mp mem
    have done := sound.done_of_settled settled (Array.getElem?_eq_getElem inside)
    exact remembers.kept _ mem same done owned

/-- Peers may change as long as none holds the key anew and the owner does not give it up. -/
theorem Remembers.mapPeers (remembers : Remembers ⟨cluster, reads⟩ key)
    (ids : ∀ peer, (change peer).id = peer.id) (bounds : ∀ peer, (change peer).bound = peer.bound)
    (fewer : ∀ peer ∈ cluster.peers, (change peer).holds key = .ok true →
      peer.holds key = .ok true)
    (kept : ∀ peer ∈ cluster.peers, cluster.ring.lookup key = some peer.id →
      peer.holds key = .ok true → (change peer).holds key = .ok true) :
    Remembers ⟨cluster.mapPeers change, reads⟩ key where
  bounded := remembers.bounded.mapPeers bounds
  there id mem := Cluster.exists_mapPeers ids (remembers.there id mem)
  asked id holds := remembers.asked id (holds.of_mapPeers ids fewer)
  last := remembers.last
  kept read mem mine done owned :=
    (remembers.kept read mem mine done owned).mapPeers ids fun peer there same =>
      kept peer there (owned.trans (congrArg some same.symm))

/-- The same for a change at one peer, of which only this one has to be looked at. -/
theorem Sound.remembers_onlyAt (sound : Sound ⟨cluster, reads⟩ members)
    (remembers : Remembers ⟨cluster, reads⟩ key) (mem : peer ∈ cluster.peers)
    (ids : ∀ peer, (change peer).id = peer.id) (bounds : ∀ peer, (change peer).bound = peer.bound)
    (fewer : (change peer).holds key = .ok true → peer.holds key = .ok true)
    (kept : cluster.ring.lookup key = some peer.id → peer.holds key = .ok true →
      (change peer).holds key = .ok true) :
    Remembers ⟨cluster.mapPeers (Cluster.onlyAt peer.id change), reads⟩ key := by
  refine remembers.mapPeers (fun _ => Cluster.id_onlyAt ids)
    (fun _ => Cluster.bound_onlyAt bounds) ?_ ?_
  · exact sound.cluster.forall_onlyAt
      (P := fun other later => later.holds key = .ok true → other.holds key = .ok true) mem fewer
      fun _ _ _ held => held
  · exact sound.cluster.forall_onlyAt
      (P := fun other later => cluster.ring.lookup key = some other.id →
        other.holds key = .ok true → later.holds key = .ok true) mem kept
      fun _ _ _ _ held => held

/-- A read begins at the owner of its key. -/
theorem Remembers.push (remembers : Remembers ⟨cluster, reads⟩ key)
    (owned : cluster.ring.lookup read.key = some read.owner)
    (there : ∃ peer ∈ cluster.peers, peer.id = read.owner)
    (held : read.Done → cluster.Holds read.owner read.key) :
    Remembers ⟨cluster, reads.push read⟩ key where
  bounded := remembers.bounded
  there := by
    intro id mem
    rw [askedAt_push] at mem
    split at mem
    · rcases List.mem_append.mp mem with before | new
      · exact remembers.there id before
      · rw [List.mem_singleton] at new
        exact new ▸ there
    · exact remembers.there id mem
  asked := by
    intro id holds
    have before := remembers.asked id holds
    rw [askedAt_push]
    split
    · exact List.mem_append_left _ before
    · exact before
  last := by
    intro id mem owns
    rw [askedAt_push] at mem ⊢
    split at mem
    · next mine =>
      rw [if_pos mine, List.getLast?_concat]
      exact owned.symm.trans (mine ▸ owns)
    · next other =>
      rw [if_neg other]
      exact remembers.last id mem owns
  kept := by
    intro old mem mine done owns
    rcases Array.mem_push.mp mem with before | rfl
    · exact remembers.kept old before mine done owns
    · exact mine ▸ held done

/-! ## What keeps it -/

/-- A read that begins is answered from the cache of the owner, which keeps the key, or waits there;
either way it is noted where it began. -/
theorem Sound.remembers_start (sound : batch.Sound members) (remembers : batch.Remembers key)
    (ne : batch.cluster.peers ≠ []) (begun : String) :
    (batch.take (.start begun)).state.Remembers key := by
  obtain ⟨cluster, reads⟩ := batch
  obtain ⟨peer, mem, owned⟩ := sound.cluster.exists_owner ne begun
  obtain ⟨pairs, peerSound⟩ := sound.cluster.peers peer mem
  have started := sound.cluster.start_eq mem owned
  have same := peerSound.holds_start begun key
  have looked := sound.remembers_onlyAt remembers mem (fun _ => Peer.id_start)
    (fun _ => Peer.bound_start) (fun held => same.symm.trans held) fun _ held => same.trans held
  have there : (peer.start begun).state ∈ (cluster.mapPeers
      (Cluster.onlyAt peer.id fun p => (p.start begun).state)).peers :=
    Cluster.mem_mapPeers.mpr ⟨peer, mem, Cluster.onlyAt_of_eq rfl⟩
  obtain ⟨-, ⟨answer, -⟩ | ⟨task, answer, -⟩⟩ := peerSound.start begun
  · simp only [Batch.take, started, answer, Except.map]
    refine looked.push owned ⟨_, there, Peer.id_start⟩ fun _ => ⟨_, there, Peer.id_start, ?_⟩
    rw [peerSound.holds_start]
    exact peerSound.held_of_finished answer
  · simp only [Batch.take, started, answer, Except.map]
    refine looked.push owned ⟨_, there, Peer.id_start⟩ fun done => ?_
    cases done

/-- **A read that ends leaves its key at the owner.** -/
theorem Sound.remembers_resume (sound : batch.Sound members) (remembers : batch.Remembers key)
    (has : Store.lacks key = false) (k : Nat) :
    (batch.take (.resume k)).state.Remembers key := by
  have fills := (sound.take_resume k).fills
  obtain ⟨-, resumed⟩ := sound.resumed k
  generalize (batch.take (.resume k)).state = later at resumed fills ⊢
  have visits : later.askedAt key = batch.askedAt key := by
    rw [askedAt, resumed.visits_eq]
    rfl
  cases resumed with
  | idle => exact remembers
  | @went read task peer progress found waits mem owner awaits answer =>
    obtain ⟨pairs, peerSound⟩ := sound.cluster.peers peer mem
    have unbounded := remembers.bounded.peers peer mem
    obtain ⟨keeps, ends⟩ := peerSound.holds_resume unbounded awaits
    have ids : ∀ p,
        (Cluster.onlyAt peer.id (fun p => (p.resume read.key task).state) p).id = p.id :=
      fun _ => Cluster.id_onlyAt fun _ => Peer.id_resume
    constructor
    case bounded =>
      exact remembers.bounded.mapPeers fun _ => Cluster.bound_onlyAt fun _ => Peer.bound_resume
    case there =>
      exact fun id asked => Cluster.exists_mapPeers ids (remembers.there id (visits ▸ asked))
    case asked =>
      intro id held
      rw [visits]
      rcases fills.held held with before | ⟨⟨_, found', -, rfl⟩, owned⟩
      · exact remembers.asked id before
      · -- the read that is polled began at the owner
        obtain rfl := Option.some.inj (found.symm.trans found')
        have mine := Option.some.inj ((sound.waitsAs found waits).owned.symm.trans owned)
        exact mem_askedAt.mpr ⟨read, Array.mem_of_getElem? found, rfl, mine⟩
    case last =>
      intro id asked owned
      rw [visits] at asked ⊢
      exact remembers.last id asked owned
    case kept =>
      intro other mem' mine done owned
      rcases Array.mem_or_eq_of_mem_setIfInBounds mem' with before | rfl
      · refine (remembers.kept other before mine done owned).mapPeers ids fun p there _ => ?_
        exact sound.cluster.forall_onlyAt
          (P := fun other later => other.holds key = .ok true → later.holds key = .ok true) mem
          (keeps key) (fun _ _ _ held => held) p there
      · -- the read has ended with a value, which is cached now
        have progress : progress = .finished (Store.load read.key) := done
        subst mine progress
        refine ⟨_, Cluster.mem_mapPeers.mpr ⟨peer, mem, Cluster.onlyAt_of_eq rfl⟩,
          Peer.id_resume.trans owner, ends answer has⟩

/-- Whether a peer that joins is one that was not there, and a peer that drops the key is one that
does not own it. -/
def Spares (key : String) (batch : Batch) : ClusterOp → Prop
  | .turn _ | .finish _ _ => True
  | .addPeer id _ => ∀ peer ∈ batch.cluster.peers, peer.id ≠ id
  | .evict id dropped => dropped = key → batch.cluster.owner key ≠ .ok id

/-- **A key that stays with its owner stays there as another peer joins.** -/
theorem Sound.remembers_addPeer (sound : batch.Sound members) (remembers : batch.Remembers key)
    (fresh : ∀ peer ∈ batch.cluster.peers, peer.id ≠ id) :
    Remembers ⟨(batch.cluster.addPeer id known).state, batch.reads⟩ key where
  bounded := sound.cluster.bounded_addPeer remembers.bounded
  there := by
    intro former asked
    obtain ⟨peer, mem, rfl⟩ := remembers.there former asked
    obtain ⟨later, there, same, -⟩ := sound.cluster.exists_addPeer mem (fresh peer mem)
    exact ⟨later, there, same⟩
  asked former holds := remembers.asked former (sound.cluster.held_addPeer holds).1
  last := by
    intro former asked owned
    obtain ⟨peer, mem, rfl⟩ := remembers.there former asked
    exact remembers.last _ asked (sound.cluster.lookup_of_addPeer owned (fresh peer mem))
  kept := by
    intro read mem mine done owned
    obtain ⟨peer, there, id⟩ := remembers.there read.owner (mem_askedAt.mpr ⟨read, mem, mine, rfl⟩)
    have owned' := sound.cluster.lookup_of_addPeer owned (id ▸ fresh peer there)
    obtain ⟨holder, there', id', held⟩ := remembers.kept read mem mine done owned'
    obtain ⟨pairs, before⟩ := sound.cluster.peers holder there'
    obtain ⟨later, mem', same, lost⟩ := sound.cluster.exists_addPeer there' (fresh holder there')
    refine ⟨later, mem', same.trans id', ?_⟩
    obtain ⟨pair, cached, rfl⟩ := List.mem_map.mp (before.holds_iff.mp held)
    refine (lost pairs before).holds_iff.mpr (List.mem_map_of_mem ?_)
    rw [List.mem_filter, decide_eq_true_iff, Cluster.mem_takenFrom_moved]
    -- it is not taken from there, since it has its owner still
    refine ⟨cached, fun taken => taken.2.1 ?_⟩
    rw [← sound.cluster.ring_addPeer, owned, owned']

/-- **Every step that spares the key keeps what is remembered of it.** A peer that joins spares it
by being a new one, a peer that drops it by not being its owner. -/
theorem Sound.remembers_apply (sound : batch.Sound members) (remembers : batch.Remembers key)
    (has : Store.lacks key = false) (allowed : batch.Allows op) (spares : batch.Spares key op) :
    (batch.apply op).state.Remembers key := by
  cases op with
  | turn turn =>
    cases turn with
    | start begun => exact sound.remembers_start remembers allowed begun
    | elapse =>
      show Remembers ⟨batch.cluster.mapPeers Peer.elapse, batch.reads⟩ key
      exact remembers.mapPeers (fun _ => rfl) (fun _ => rfl) (fun _ _ held => held)
        fun _ _ _ held => held
    | resume k => exact sound.remembers_resume remembers has k
  | finish id done =>
    obtain ⟨peer, mem, rfl⟩ := allowed
    have same : (peer.finish done).holds key = peer.holds key := Peer.alike_finish.holds key
    simp only [Batch.apply, Step.within, Cluster.atPeer_eq sound.cluster.distinct mem]
    exact sound.remembers_onlyAt remembers mem (fun _ => Peer.id_finish)
      (fun _ => Peer.bound_finish) (fun held => same.symm.trans held) fun _ held => same.trans held
  | addPeer id known => exact sound.remembers_addPeer remembers spares
  | evict id dropped =>
    obtain ⟨peer, mem, rfl⟩ := allowed
    obtain ⟨pairs, peerSound⟩ := sound.cluster.peers peer mem
    simp only [Batch.apply, Step.within, (sound.cluster.evict mem dropped).2.2]
    refine sound.remembers_onlyAt remembers mem (fun _ => rfl) (fun _ => Peer.bound_evict)
      peerSound.held_of_evict fun owned => peerSound.held_evict ?_
    -- the owner drops other keys only
    exact fun same => spares same.symm (Cluster.owner_eq_ok_iff.mpr owned)

/-- What is remembered of a key is so after every history that spares it. -/
theorem Sound.remembers_after (sound : batch.Sound members) (remembers : batch.Remembers key)
    (has : Store.lacks key = false)
    (admits : batch.Admits (fun batch op => batch.Allows op ∧ batch.Spares key op) ops) :
    (batch.after ops).Remembers key :=
  sound.after_of_apply admits remembers fun sound' allowed _ remembers' =>
    ⟨allowed.1, sound'.remembers_apply remembers' has allowed.1 allowed.2⟩

/-- Nothing is remembered of a new cluster. -/
theorem remembers_new {new : Cluster} (fresh : ∀ peer ∈ new.peers, ∃ id, peer = .new id 0)
    (bound : new.maxEntries = 0) : Remembers ⟨new, #[]⟩ key where
  bounded := by
    refine ⟨bound, fun peer mem => ?_⟩
    obtain ⟨id, rfl⟩ := fresh peer mem
    rfl
  there := nofun
  asked id holds := absurd holds (not_holds_of_fresh fresh)
  last := nofun
  kept := nofun

/-! ## From the creation on -/

/-- A read begins only where there is a peer. -/
theorem Sound.peers_ne_nil_of_begins {opening : List ClusterOp} (sound : batch.Sound members)
    (opens : batch.Admits Opens opening) (begun : key ∈ opening.flatMap ClusterOp.begins) :
    batch.cluster.peers ≠ [] := by
  induction opening generalizing batch with
  | nil => cases begun
  | cons op ops ih =>
    rw [List.flatMap_cons, List.mem_append] at begun
    rcases begun with now | later
    · cases op with
      | turn turn =>
        cases turn with
        | start key => exact opens.1
        | elapse => cases now
        | resume i => cases now
      | _ => cases now
    · have sound' := sound.opens_apply opens.1
      have ne := ih sound' opens.2 later
      exact sound.cluster.members_ne_nil_iff.mpr (sound'.cluster.members_ne_nil_iff.mp ne)

/-- **A key that is remembered is missing** if it was never read, or was last read at another peer
than its owner. -/
theorem Remembers.uncached_iff (remembers : batch.Remembers key) (sound : batch.Sound members)
    (settled : batch.Settled) (ne : batch.cluster.peers ≠ []) :
    batch.cluster.Uncached key ↔ key ∉ batch.keys ∨ ∃ former,
      (batch.askedAt key).getLast? = some former ∧ batch.cluster.owner key ≠ .ok former := by
  obtain ⟨owner, mem, owned⟩ := sound.cluster.exists_owner ne key
  obtain ⟨pairs, ownerSound⟩ := sound.cluster.peers owner mem
  have owns := Cluster.owner_eq_ok_iff.mpr owned
  have missing : batch.cluster.Uncached key ↔ ¬ batch.cluster.Holds owner.id key := by
    constructor
    · rintro ⟨peer, there, owns', missing⟩ ⟨holder, there', id, held⟩
      obtain rfl := sound.cluster.eq_of_id_eq there there' <|
        (Except.ok.inj (owns'.symm.trans owns)).trans id.symm
      cases missing.symm.trans held
    · intro nowhere
      refine ⟨owner, mem, owns, ?_⟩
      rw [ownerSound.holds]
      refine congrArg Except.ok (decide_eq_false fun held => nowhere ⟨owner, mem, rfl, ?_⟩)
      exact ownerSound.holds_iff.mpr held
  rw [missing, remembers.holds_iff sound settled owned, mem_keys_iff, owns]
  cases last : (batch.askedAt key).getLast? with
  | none => simp [List.getLast?_eq_none_iff.mp last]
  | some former =>
    have asked : batch.askedAt key ≠ [] := List.ne_nil_of_mem (List.mem_of_getLast? last)
    simp [asked, eq_comm]

/-- **Loads are accounted for** from the creation of a cluster on. Reads that begin while no other
is under way, and before one of their loads is felt to be done, load every key once that its owner
has not cached at that moment, in whatever order their loads get done and they are polled. Without a
bound, if the peers that have joined were new ones and no owner has been told to drop the key, these
are the keys that were never read before or have come to another owner since they were last read. -/
theorem load_accounting (ids : List String) {replicas : Nat} (maxEntries : Nat)
    (positive : 0 < replicas) :
    ∃ new, Cluster.create ids replicas maxEntries = .ok new ∧
      ∀ ops, Batch.Admits Allows ⟨new, #[]⟩ ops →
        let batch := Batch.after ⟨new, #[]⟩ ops
        batch.Settled → ∀ opening closing, batch.Admits Opens opening →
          (batch.after opening).Admits Closes closing →
            let begun := opening.flatMap ClusterOp.begins
            (∀ peer ∈ batch.cluster.peers,
              ∃ later ∈ (batch.after (opening ++ closing)).cluster.peers, later.id = peer.id ∧
                later.loads = peer.loads + (batch.cluster.missing begun peer).card) ∧
            (∀ key, batch.LoadsIn key (opening ++ closing) ↔
              key ∈ begun ∧ batch.cluster.Uncached key) ∧
            (maxEntries = 0 → ∀ key, Store.lacks key = false →
              Batch.Admits (Spares key) ⟨new, #[]⟩ ops →
                (batch.LoadsIn key (opening ++ closing) ↔ key ∈ begun ∧
                  (key ∉ batch.keys ∨ ∃ former, (batch.askedAt key).getLast? = some former ∧
                    batch.cluster.owner key ≠ .ok former))) := by
  obtain ⟨new, created, sound, fresh⟩ := sound_create ids maxEntries positive
  refine ⟨new, created, ?_⟩
  intro ops admits batch settled opening closing opens closes begun
  have later := (sound.after admits).1
  obtain ⟨counts, loaded⟩ := later.loads_of_batch settled opens closes
  refine ⟨counts, loaded, ?_⟩
  rintro rfl key has spares
  rw [loaded]
  refine and_congr_right fun read => ?_
  have remembers := sound.remembers_after (remembers_new fresh (Cluster.maxEntries_create created))
    has (admits.and spares)
  exact remembers.uncached_iff later settled (later.peers_ne_nil_of_begins opens read)

/-- A key is read, and then once more together with two reads of a key that the store lacks. These
two share a load, and it is the only one. -/
theorem load_accounting_reread :
    ∃ new, Cluster.create ["a"] 3 0 = .ok new ∧
      let ops := .turn (.start "k") :: .turn .elapse :: polls [0]
      let batch := Batch.after ⟨new, #[]⟩ ops
      let opening := ["missing-k", "k", "missing-k"].map fun key => ClusterOp.turn (.start key)
      let closing := .turn .elapse :: polls [1, 2, 3]
      Batch.Admits Allows ⟨new, #[]⟩ ops ∧ batch.Settled ∧ batch.Admits Opens opening ∧
        (batch.after opening).Admits Closes closing ∧ ¬ batch.LoadsIn "k" (opening ++ closing) ∧
          ∀ peer ∈ batch.cluster.peers,
            ∃ later ∈ (batch.after (opening ++ closing)).cluster.peers,
              later.id = peer.id ∧ later.loads = peer.loads + 1 := by
  obtain ⟨new, created, sound, fresh⟩ := sound_create ["a"] 0 (by decide : 0 < 3)
  obtain ⟨new', created', account⟩ := load_accounting ["a"] 0 (by decide : 0 < 3)
  obtain rfl := Except.ok.inj (created.symm.trans created')
  refine ⟨new, created, ?_⟩
  intro ops batch opening closing
  have ne : new.peers ≠ [] := sound.cluster.members_ne_nil_iff.mpr (List.cons_ne_nil "a" [])
  have admits : Batch.Admits Allows ⟨new, #[]⟩ ops := ⟨ne, trivial, trivial, trivial⟩
  have spares : Batch.Admits (Spares "k") ⟨new, #[]⟩ ops := ⟨trivial, trivial, trivial, trivial⟩
  obtain ⟨later, keys⟩ : batch.Sound ["a"] ∧ batch.keys = ["k"] := sound.after admits
  have settled : batch.Settled := by
    have began := sound.take_start ne "k"
    have size : (Batch.take (.start "k") ⟨new, #[]⟩).state.reads.size = 1 :=
      length_keys.symm.trans (congrArg List.length began.keys)
    intro read mem
    rw [Read.answer?, began.sound.done_of_pollsAll (size ▸ pollsAll_range 1) read mem]
    rfl
  have ne' := later.cluster.members_ne_nil_iff.mpr (List.cons_ne_nil "a" [])
  have opens : batch.Admits Opens opening := later.admits_starts ne' (fun _ _ there => there) _
  have closes : (batch.after opening).Admits Closes closing :=
    ⟨trivial, trivial, trivial, trivial, trivial⟩
  have remembers : batch.Remembers "k" :=
    sound.remembers_after (remembers_new fresh (Cluster.maxEntries_create created)) (by decide)
      (admits.and spares)
  obtain ⟨counts, loaded, unbounded⟩ := account ops admits settled opening closing opens closes
  have again := unbounded rfl "k" (by decide) spares
  -- how the batch has come about does not matter any more
  have past : batch = Batch.after ⟨new, #[]⟩ ops := rfl
  clear_value batch
  rw [← past] at counts loaded again
  -- there is but one peer
  have single : ∀ peer ∈ batch.cluster.peers, peer.id = "a" := fun peer mem =>
    List.mem_singleton.mp ((later.cluster.mem_iff _).mp ⟨peer, mem, rfl⟩)
  have owned : ∀ key, batch.cluster.owner key = .ok "a" := by
    intro key
    obtain ⟨owner, mem, found⟩ := later.cluster.exists_owner ne' key
    exact Cluster.owner_eq_ok_iff.mpr (single owner mem ▸ found)
  have again : ¬ batch.LoadsIn "k" (opening ++ closing) := by
    rw [again]
    rintro ⟨-, unread | ⟨former, last, elsewhere⟩⟩
    · exact unread (keys ▸ List.mem_singleton.mpr rfl)
    · obtain ⟨peer, mem, rfl⟩ := remembers.there former (List.mem_of_getLast? last)
      exact elsewhere (single peer mem ▸ owned "k")
  refine ⟨admits, settled, opens, closes, again, fun peer mem => ?_⟩
  obtain ⟨last, there, id, loads⟩ := counts peer mem
  refine ⟨last, there, id, loads.trans (congrArg (peer.loads + ·) (Finset.card_eq_one.mpr ?_))⟩
  have begins : opening.flatMap ClusterOp.begins = ["missing-k", "k", "missing-k"] := rfl
  have owns : ∀ key, batch.cluster.owner key = .ok peer.id := fun key => by
    rw [owned, single peer mem]
  obtain ⟨pairs, peerSound⟩ := later.cluster.peers peer mem
  refine ⟨"missing-k", Finset.ext fun key => ?_⟩
  rw [Cluster.mem_missing, Finset.mem_singleton, begins]
  constructor
  · rintro ⟨begun, -, uncached⟩
    have other : key ≠ "k" := by
      rintro rfl
      exact again ((loaded "k").mpr ⟨begins ▸ begun, peer, mem, owns "k", uncached⟩)
    simpa [other] using begun
  · rintro rfl
    refine ⟨by simp, owns _, ?_⟩
    rw [peerSound.holds]
    refine congrArg Except.ok (decide_eq_false fun held => ?_)
    obtain ⟨pair, cached, same⟩ := List.mem_map.mp held
    have has := (Store.load_eq_ok_iff.mp (peerSound.truthful pair cached)).1
    rw [same] at has
    revert has
    decide

end Batch

end PeerCache
