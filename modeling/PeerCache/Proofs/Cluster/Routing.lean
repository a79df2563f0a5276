import PeerCache.Proofs.Cluster.Serving
import PeerCache.Proofs.Ring.Remapping

/-!
# Peers behind the ring

`Cluster.Sound cluster members` says that the ring records just the ids of the peers, that no two
peers share one, and that every peer is sound. So every key is owned by a peer that is there
(`Sound.exists_owner`), a step at one peer is a change of that peer and of nothing else
(`atPeer_eq`), and a peer that joins takes the keys that changed hands from the peers that owned
them (`Sound.addPeer`).
-/

namespace PeerCache

/-! ## Losing several keys -/

namespace Peer

variable {peer : Peer} {pairs : List (String × String)} {keys : List String}

/-- The peer without some keys. -/
def evictAll (peer : Peer) (keys : List String) : Peer :=
  keys.foldl (fun peer key => (peer.evict key).state) peer

@[simp] theorem evictAll_nil : peer.evictAll [] = peer := rfl

@[simp] theorem evictAll_cons {key : String} :
    peer.evictAll (key :: keys) = (peer.evict key).state.evictAll keys := rfl

/-- Keys may be evicted in two goes, one after the other. -/
theorem evictAll_append {more : List String} :
    peer.evictAll (keys ++ more) = (peer.evictAll keys).evictAll more :=
  List.foldl_append

@[simp] theorem id_evictAll : (peer.evictAll keys).id = peer.id := by
  induction keys generalizing peer with
  | nil => rfl
  | cons key keys ih => exact ih

@[simp] theorem flight_evictAll : (peer.evictAll keys).flight = peer.flight := by
  induction keys generalizing peer with
  | nil => rfl
  | cons key keys ih => exact ih

/-- A sound peer loses the pairs of the keys it is told to evict. Keys that are told twice or were
not cached make no difference. -/
theorem Sound.evictAll (sound : peer.Sound pairs) (keys : List String) :
    (peer.evictAll keys).Sound (pairs.filter fun pair => pair.1 ∉ keys) := by
  induction keys generalizing peer pairs with
  | nil => simpa using sound
  | cons key keys ih =>
    have later := ih (sound.evict key).2
    rw [List.filter_filter] at later
    have same : (pairs.filter fun pair => decide (pair.1 ∉ keys) && (pair.1 != key)) =
        pairs.filter fun pair => pair.1 ∉ key :: keys := by
      congr 1
      funext pair
      by_cases mine : pair.1 = key <;> simp [mine]
    exact same ▸ later

end Peer

namespace Cluster

variable {α : Type} {cluster : Cluster} {members : List String} {peer other : Peer}
  {id key : String}

/-! ## A step at one peer -/

/-- The peer of an id changed, any other one as it is. -/
def onlyAt (id : String) (change : Peer → Peer) (peer : Peer) : Peer :=
  if peer.id = id then change peer else peer

section

variable {change : Peer → Peer}

theorem onlyAt_of_eq (same : peer.id = id) : onlyAt id change peer = change peer := if_pos same

theorem onlyAt_of_ne (apart : peer.id ≠ id) : onlyAt id change peer = peer := if_neg apart

/-- A change that keeps ids keeps them also where it is made at one peer only. -/
theorem id_onlyAt (keeps : ∀ peer, (change peer).id = peer.id) :
    (onlyAt id change peer).id = peer.id := by
  unfold onlyAt
  split
  · exact keeps peer
  · rfl

end

/-- Every peer changed in its place. -/
def mapPeers (cluster : Cluster) (change : Peer → Peer) : Cluster :=
  { cluster with peers := cluster.peers.map change }

theorem mapPeers_id : cluster.mapPeers (fun peer => peer) = cluster := by
  rw [mapPeers, List.map_id']

/-- Two changes of all peers, one after the other, are one. -/
theorem mapPeers_mapPeers {first second : Peer → Peer} :
    (cluster.mapPeers first).mapPeers second =
      cluster.mapPeers fun peer => second (first peer) := by
  rw [mapPeers, mapPeers, List.map_map]
  rfl

/-- The peers after a change are those before, each changed. -/
theorem mem_mapPeers {change : Peer → Peer} :
    other ∈ (cluster.mapPeers change).peers ↔ ∃ peer ∈ cluster.peers, change peer = other :=
  List.mem_map

/-- To run a step at an id goes through the list up to the first peer of this id. As ids are
different, that changes the one peer and leaves all others, those behind it included. -/
theorem runAt_eq {peers : List Peer} (distinct : (peers.map Peer.id).Nodup) (mem : peer ∈ peers)
    (run : Peer → Step Peer α) :
    runAt peer.id run peers =
      ⟨peers.map (onlyAt peer.id fun p => (run p).state), (run peer).answer,
        (run peer).events⟩ := by
  induction peers with
  | nil => cases mem
  | cons head rest ih =>
    rw [List.map_cons, List.nodup_cons] at distinct
    rw [runAt, List.map_cons]
    rcases List.mem_cons.mp mem with rfl | later
    · -- nobody behind it has its id
      have kept : rest.map (onlyAt peer.id fun p => (run p).state) = rest.map id :=
        List.map_congr_left fun p there =>
          onlyAt_of_ne fun same => distinct.1 (same ▸ List.mem_map_of_mem there)
      rw [List.map_id] at kept
      rw [if_pos rfl, kept, onlyAt_of_eq rfl]
      rfl
    · have apart : head.id ≠ peer.id := fun same =>
        distinct.1 (same ▸ List.mem_map_of_mem later)
      rw [if_neg apart, ih distinct.2 later, onlyAt_of_ne apart]
      rfl

/-- A step at a peer changes that peer, and is answered by it. -/
theorem atPeer_eq (distinct : (cluster.peers.map Peer.id).Nodup) (mem : peer ∈ cluster.peers)
    (run : Peer → Step Peer α) :
    cluster.atPeer peer.id run =
      ⟨cluster.mapPeers (onlyAt peer.id fun p => (run p).state), (run peer).answer,
        (run peer).events⟩ := by
  obtain ⟨ring, peers, maxEntries⟩ := cluster
  rw [atPeer, runAt_eq distinct mem]
  rfl

/-! ## A sound cluster -/

/-- The ring records the ids of the peers, in the order of `members`; no two peers share one, and
each peer is sound. -/
structure Sound (cluster : Cluster) (members : List String) : Prop where
  writable : cluster.ring.writerPoisoned = false
  records : ∃ replicas, cluster.ring.current.ring.Records Checksum.crc32 replicas members
  mem_iff : ∀ id, (∃ peer ∈ cluster.peers, peer.id = id) ↔ id ∈ members
  distinct : (cluster.peers.map Peer.id).Nodup
  peers : ∀ peer ∈ cluster.peers, ∃ pairs, peer.Sound pairs

namespace Sound

/-- Two peers with one id are one. -/
theorem eq_of_id_eq (sound : cluster.Sound members) (mem : peer ∈ cluster.peers)
    (mem' : other ∈ cluster.peers) (same : peer.id = other.id) : peer = other :=
  List.inj_on_of_nodup_map sound.distinct mem mem' same

/-- What holds of the one peer that is changed, and of all others as they are, holds of every
peer. -/
theorem forall_onlyAt {P : Peer → Peer → Prop} {change : Peer → Peer}
    (sound : cluster.Sound members) (mem : peer ∈ cluster.peers) (changed : P peer (change peer))
    (untouched : ∀ other ∈ cluster.peers, other ≠ peer → P other other) :
    ∀ other ∈ cluster.peers, P other (Cluster.onlyAt peer.id change other) := by
  intro other there
  by_cases same : other.id = peer.id
  · obtain rfl := sound.eq_of_id_eq there mem same
    rwa [onlyAt_of_eq rfl]
  · rw [onlyAt_of_ne same]
    exact untouched other there fun eq => same (congrArg Peer.id eq)

/-- A sound cluster has peers if, and only if, its ring records members. -/
theorem members_ne_nil_iff (sound : cluster.Sound members) :
    cluster.peers ≠ [] ↔ members ≠ [] := by
  constructor
  · intro ne
    obtain ⟨peer, mem⟩ := List.exists_mem_of_ne_nil _ ne
    exact List.ne_nil_of_mem ((sound.mem_iff peer.id).mp ⟨peer, mem, rfl⟩)
  · intro ne
    obtain ⟨id, mem⟩ := List.exists_mem_of_ne_nil _ ne
    obtain ⟨peer, there, -⟩ := (sound.mem_iff id).mpr mem
    exact List.ne_nil_of_mem there

/-- **Every key is owned by a peer that is there.** -/
theorem exists_owner (sound : cluster.Sound members) (ne : cluster.peers ≠ []) (key : String) :
    ∃ peer ∈ cluster.peers, cluster.ring.lookup key = some peer.id := by
  obtain ⟨replicas, records⟩ := sound.records
  obtain ⟨owner, mem, found⟩ := records.exists_lookup (sound.members_ne_nil_iff.mp ne) key
  obtain ⟨peer, there, rfl⟩ := (sound.mem_iff owner).mpr mem
  exact ⟨peer, there, found⟩

/-- A change that leaves each peer sound under its id leaves the cluster sound. -/
theorem mapPeers {change : Peer → Peer} (sound : cluster.Sound members)
    (ids : ∀ peer, (change peer).id = peer.id)
    (sounds : ∀ peer ∈ cluster.peers, ∃ pairs, (change peer).Sound pairs) :
    (cluster.mapPeers change).Sound members where
  writable := sound.writable
  records := sound.records
  mem_iff id := by
    rw [← sound.mem_iff]
    simp [Cluster.mapPeers, ids]
  distinct := by
    have same : (cluster.peers.map change).map Peer.id = cluster.peers.map Peer.id := by
      rw [List.map_map]
      exact List.map_congr_left fun peer _ => ids peer
    rw [Cluster.mapPeers, same]
    exact sound.distinct
  peers := by
    intro other mem
    obtain ⟨peer, there, rfl⟩ := mem_mapPeers.mp mem
    exact sounds peer there

/-- A step at one peer that leaves it sound leaves the cluster sound. -/
theorem onlyAt {change : Peer → Peer} (sound : cluster.Sound members)
    (ids : ∀ peer, (change peer).id = peer.id) (mem : peer ∈ cluster.peers)
    (changed : ∃ pairs, (change peer).Sound pairs) :
    (cluster.mapPeers (Cluster.onlyAt peer.id change)).Sound members := by
  have sounds := sound.forall_onlyAt (P := fun _ later => ∃ pairs, later.Sound pairs) mem changed
    fun other there _ => sound.peers other there
  exact sound.mapPeers (fun other => id_onlyAt ids) sounds

/-! ## Evicting -/

/-- A key can be evicted at every peer that is there, which loses just this key and leaves the
cluster sound. -/
theorem evict (sound : cluster.Sound members) (mem : peer ∈ cluster.peers) (key : String) :
    (cluster.evict peer.id key).answer = .ok () ∧ (cluster.evict peer.id key).state.Sound members ∧
      (cluster.evict peer.id key).state =
        cluster.mapPeers (Cluster.onlyAt peer.id fun p => (p.evict key).state) := by
  obtain ⟨pairs, peerSound⟩ := sound.peers peer mem
  obtain ⟨answer, evicted⟩ := peerSound.evict key
  rw [Cluster.evict, atPeer_eq sound.distinct mem]
  exact ⟨answer, sound.onlyAt (fun _ => rfl) mem ⟨_, evicted⟩, rfl⟩

end Sound

/-! ## Joining -/

/-- The keys that migrations take from a node, in order. -/
def takenFrom (migrations : List Migration) (id : String) : List String :=
  (migrations.filter fun m => m.before = some id).map (·.key)

/-- A key is taken from a node if a migration of the key starts there. -/
theorem mem_takenFrom {migrations : List Migration} :
    key ∈ takenFrom migrations id ↔ ∃ m ∈ migrations, m.key = key ∧ m.before = some id := by
  simp only [takenFrom, List.mem_map, List.mem_filter, decide_eq_true_iff, and_assoc]
  exact exists_congr fun _ => and_congr_right fun _ => and_comm

/-- Migrations in two goes take the keys of both, in order. -/
theorem takenFrom_append {front back : List Migration} :
    takenFrom (front ++ back) id = takenFrom front id ++ takenFrom back id := by
  rw [takenFrom, List.filter_append, List.map_append]
  rfl

/-- Drops a key that changed hands where it was. -/
def takeAway (m : Migration) (cluster : Cluster) : Step Cluster Unit :=
  match m.before with
  | some former => cluster.evict former m.key
  | none => .done cluster ()

/-- One migration drops its key at the peer it starts from, if there is one. Its former owner must
be a member: to evict at a peer that is not there would fail. -/
theorem Sound.takeAway {m : Migration} (sound : cluster.Sound members)
    (former : ∀ id, m.before = some id → id ∈ members) :
    (takeAway m cluster).answer = .ok () ∧ (takeAway m cluster).state.Sound members ∧
      (takeAway m cluster).state =
        cluster.mapPeers fun peer => peer.evictAll (takenFrom [m] peer.id) := by
  unfold Cluster.takeAway
  cases before : m.before with
  | none =>
    have nothing : ∀ id, takenFrom [m] id = [] := fun id => by simp [takenFrom, before]
    simp only [nothing, Peer.evictAll_nil, mapPeers_id]
    exact ⟨rfl, sound, rfl⟩
  | some id =>
    obtain ⟨peer, mem, rfl⟩ := (sound.mem_iff id).mpr (former id before)
    obtain ⟨answer, sound', state⟩ := sound.evict mem m.key
    refine ⟨answer, sound', state.trans ?_⟩
    congr 1
    funext other
    by_cases same : other.id = peer.id
    · simp [onlyAt_of_eq same, takenFrom, before, same]
    · simp [onlyAt_of_ne same, takenFrom, before, Ne.symm same]

/-- One migration after the other takes its key away. -/
theorem Sound.forEach_takeAway (sound : cluster.Sound members) (migrations : List Migration)
    (formers : ∀ m ∈ migrations, ∀ id, m.before = some id → id ∈ members) :
    let took := Step.forEach migrations Cluster.takeAway cluster
    (∃ units, took.answer = .ok units) ∧ took.state.Sound members ∧
      took.state = cluster.mapPeers fun peer => peer.evictAll (takenFrom migrations peer.id) := by
  induction migrations generalizing cluster with
  | nil => exact ⟨⟨[], rfl⟩, sound, mapPeers_id.symm⟩
  | cons m migrations ih =>
    rw [List.forall_mem_cons] at formers
    obtain ⟨answer, sound', state⟩ := sound.takeAway formers.1
    obtain ⟨⟨units, answers⟩, sound'', state'⟩ := ih sound' formers.2
    obtain ⟨hstate, hanswer⟩ := Step.forEach_cons_of_ok answer migrations
    refine ⟨⟨_, hanswer.trans (congrArg (Except.map _) answers)⟩, hstate ▸ sound'',
      hstate.trans (state'.trans ?_)⟩
    rw [state, mapPeers_mapPeers]
    congr 1
    funext peer
    rw [Peer.id_evictAll, ← Peer.evictAll_append, ← takenFrom_append, List.singleton_append]

/-- **The keys that changed hands are dropped where they were**, and nothing else is. -/
theorem Sound.handOver (sound : cluster.Sound members) (migrations : List Migration)
    (formers : ∀ m ∈ migrations, ∀ id, m.before = some id → id ∈ members) :
    (cluster.handOver migrations).answer = .ok () ∧
      (cluster.handOver migrations).state.Sound members ∧
      (cluster.handOver migrations).state =
        cluster.mapPeers fun peer => peer.evictAll (takenFrom migrations peer.id) := by
  obtain ⟨⟨units, answer⟩, sound', state⟩ := sound.forEach_takeAway migrations formers
  exact ⟨congrArg (Except.map fun _ => ()) answer, sound', state⟩

/-! ## Peers by id -/

section

variable {peers : List Peer}

/-- A peer that is put replaces the one of its id and no other. -/
theorem mem_putPeer :
    other ∈ putPeer peers peer ↔ other = peer ∨ other ∈ peers ∧ other.id ≠ peer.id := by
  unfold putPeer
  split
  · next there =>
    obtain ⟨former, mem, same⟩ := List.any_eq_true.mp there
    rw [decide_eq_true_iff] at same
    rw [List.mem_map]
    constructor
    · rintro ⟨p, hp, rfl⟩
      split
      · exact .inl rfl
      · next apart => exact .inr ⟨hp, apart⟩
    · rintro (rfl | ⟨hp, apart⟩)
      · exact ⟨former, mem, if_pos same⟩
      · exact ⟨other, hp, if_neg apart⟩
  · next absent =>
    rw [List.mem_append, List.mem_singleton, or_comm]
    refine or_congr_right (iff_self_and.mpr fun mem same => absent ?_)
    exact List.any_eq_true.mpr ⟨other, mem, decide_eq_true same⟩

/-- Putting a peer keeps the ids different, as it replaces the peer of its id. -/
theorem distinct_putPeer (distinct : (peers.map Peer.id).Nodup) :
    ((putPeer peers peer).map Peer.id).Nodup := by
  unfold putPeer
  split
  · have same : (peers.map fun p => if p.id = peer.id then peer else p).map Peer.id =
        peers.map Peer.id := by
      rw [List.map_map]
      refine List.map_congr_left fun p _ => ?_
      by_cases mine : p.id = peer.id <;> simp [mine]
    rw [same]
    exact distinct
  · next absent =>
    rw [List.map_append, List.map_singleton, List.nodup_append_comm, List.singleton_append,
      List.nodup_cons]
    refine ⟨fun mem => absent ?_, distinct⟩
    obtain ⟨p, hp, same⟩ := List.mem_map.mp mem
    exact List.any_eq_true.mpr ⟨p, hp, decide_eq_true same⟩

/-- Putting a peer adds its id to those that are there, if it was missing. -/
theorem exists_id_putPeer :
    (∃ other ∈ putPeer peers peer, other.id = id) ↔
      (∃ other ∈ peers, other.id = id) ∨ id = peer.id := by
  simp only [mem_putPeer]
  constructor
  · rintro ⟨other, rfl | ⟨mem, -⟩, rfl⟩
    · exact .inr rfl
    · exact .inl ⟨other, mem, rfl⟩
  · rintro (⟨other, mem, rfl⟩ | rfl)
    · by_cases same : other.id = peer.id
      · exact ⟨peer, .inl rfl, same.symm⟩
      · exact ⟨other, .inr ⟨mem, same⟩, rfl⟩
    · exact ⟨peer, .inl rfl, rfl⟩

end

/-! ## Beginnings -/

/-- New peers are put one after the other. -/
theorem foldl_putPeer (ids : List String) (maxEntries : Nat) {peers : List Peer}
    (distinct : (peers.map Peer.id).Nodup) :
    let put := ids.foldl (fun peers id => putPeer peers (.new id maxEntries)) peers
    (put.map Peer.id).Nodup ∧
      (∀ id, (∃ peer ∈ put, peer.id = id) ↔ (∃ peer ∈ peers, peer.id = id) ∨ id ∈ ids) ∧
      ∀ peer ∈ put, peer ∈ peers ∨ ∃ id, peer = .new id maxEntries := by
  induction ids generalizing peers with
  | nil => exact ⟨distinct, by simp, fun _ => .inl⟩
  | cons id ids ih =>
    obtain ⟨hdistinct, hids, hpeers⟩ := ih (distinct_putPeer distinct)
    refine ⟨hdistinct, fun other => ?_, fun peer mem => ?_⟩
    · rw [List.foldl_cons, hids, exists_id_putPeer, List.mem_cons, or_assoc]
      rfl
    · rcases hpeers peer mem with put | new
      · rcases mem_putPeer.mp put with rfl | ⟨there, -⟩
        · exact .inr ⟨id, rfl⟩
        · exact .inl there
      · exact .inr new

/-- **A new cluster is sound**, and nothing is cached or under way in it. -/
theorem create_sound (ids : List String) {replicas : Nat} (maxEntries : Nat)
    (positive : 0 < replicas) :
    ∃ new, create ids replicas maxEntries = .ok new ∧ new.Sound ids ∧
      ∀ peer ∈ new.peers, ∃ id, peer = .new id maxEntries := by
  have placed := @Ring.records_empty Checksum.crc32 replicas positive
  obtain ⟨-, published⟩ := @SharedRing.addNodes_of_writable
    (.ofRing ⟨Checksum.crc32, replicas, positive, #[], ∅⟩) rfl ids
  obtain ⟨distinct, mem_iff, fresh⟩ := @foldl_putPeer ids maxEntries [] List.nodup_nil
  have fresh' : ∀ peer ∈ ids.foldl (fun peers id => putPeer peers (.new id maxEntries)) [],
      ∃ id, peer = .new id maxEntries := fun peer mem => (fresh peer mem).resolve_left nofun
  refine ⟨_, by rw [create, Ring.empty?, dif_pos positive], ?_, fresh'⟩
  constructor
  case writable => rw [published]; rfl
  case records =>
    refine ⟨replicas, ?_⟩
    rw [published]
    exact placed.addNodes ids
  case mem_iff =>
    intro id
    rw [mem_iff]
    simp
  case distinct => exact distinct
  case peers =>
    intro peer mem
    obtain ⟨id, rfl⟩ := fresh' peer mem
    exact ⟨[], Peer.sound_new id maxEntries⟩

/-- The cluster with a new peer on the ring, before any key is dropped. -/
def withPeer (cluster : Cluster) (id : String) : Cluster :=
  { cluster with
    ring := cluster.ring.publish (cluster.ring.current.ring.addNodes [id])
    peers := putPeer cluster.peers (.new id cluster.maxEntries) }

/-- The keys that change hands as a peer joins, among those it is told of. -/
def moved (cluster : Cluster) (id : String) (known : List String) : List Migration :=
  cluster.ring.current.ring.migrations (cluster.withPeer id).ring.current.ring known

/-- As a peer joins, a node loses those keys it owned that have come to another owner, among the
ones that the join is told of. -/
theorem mem_takenFrom_moved {known : List String} {former : String} :
    key ∈ takenFrom (cluster.moved id known) former ↔
      key ∈ known ∧ (cluster.withPeer id).ring.lookup key ≠ cluster.ring.lookup key ∧
        cluster.ring.lookup key = some former := by
  rw [mem_takenFrom]
  constructor
  · rintro ⟨m, mem, rfl, before⟩
    obtain ⟨known, moves, hbefore, -⟩ := Ring.mem_migrations.mp mem
    exact ⟨known, moves, hbefore.symm.trans before⟩
  · rintro ⟨known, moves, owned⟩
    exact ⟨⟨key, some former, (cluster.withPeer id).ring.lookup key⟩,
      Ring.mem_migrations.mpr ⟨known, moves, owned.symm, rfl⟩, rfl, rfl⟩

/-- To join is to be placed on the ring and in the list, and then to hand over what has moved. The
ring that is asked first is the one before, of which a snapshot was kept. -/
theorem addPeer_eq (writable : cluster.ring.writerPoisoned = false) (id : String)
    (known : List String) :
    let handed := (cluster.withPeer id).handOver (cluster.moved id known)
    (cluster.addPeer id known).answer = handed.answer.map (fun () => cluster.moved id known) ∧
      (cluster.addPeer id known).state = handed.state := by
  obtain ⟨placed, published⟩ := SharedRing.addNodes_of_writable writable [id]
  simp only [addPeer, Step.andThen, Step.within, placed, published]
  exact ⟨rfl, rfl⟩

/-- With the new peer placed, but nothing handed over yet, the cluster is sound already: it is not
part of being sound who holds which keys. -/
theorem Sound.withPeer (sound : cluster.Sound members) (id : String) :
    (cluster.withPeer id).Sound (members ++ [id]) := by
  obtain ⟨replicas, records⟩ := sound.records
  constructor
  case writable => exact sound.writable
  case records => exact ⟨replicas, records.addNodes [id]⟩
  case mem_iff =>
    intro other
    rw [Cluster.withPeer, exists_id_putPeer, sound.mem_iff, List.mem_append, List.mem_singleton]
    rfl
  case distinct => exact distinct_putPeer sound.distinct
  case peers =>
    intro peer mem
    rcases mem_putPeer.mp mem with rfl | ⟨there, -⟩
    · exact ⟨[], Peer.sound_new id cluster.maxEntries⟩
    · exact sound.peers peer there

/-- **A peer that joins** comes in the place of the one of its id, if there was one, with nothing
cached; the keys that changed hands are dropped where they were. -/
theorem Sound.addPeer (sound : cluster.Sound members) (id : String) (known : List String) :
    let joined := cluster.addPeer id known
    joined.answer = .ok (cluster.moved id known) ∧ joined.state.Sound (members ++ [id]) ∧
      joined.state = (cluster.withPeer id).mapPeers fun peer =>
        peer.evictAll (takenFrom (cluster.moved id known) peer.id) := by
  intro joined
  obtain ⟨replicas, records⟩ := sound.records
  have formers : ∀ m ∈ cluster.moved id known, ∀ former, m.before = some former →
      former ∈ members ++ [id] := by
    intro m mem former found
    rw [(Ring.mem_migrations.mp mem).2.2.1] at found
    exact List.mem_append_left _ (records.mem_of_lookup found)
  obtain ⟨answer, sound', state⟩ := (sound.withPeer id).handOver (cluster.moved id known) formers
  obtain ⟨hanswer, hstate⟩ := addPeer_eq sound.writable id known
  exact ⟨hanswer.trans (congrArg (Except.map _) answer), hstate ▸ sound', hstate.trans state⟩

/-- Who is there after a peer has joined: that peer, and those that are not in its place, without
what it took from them. -/
theorem Sound.mem_addPeer (sound : cluster.Sound members) {known : List String}
    (mem : other ∈ (cluster.addPeer id known).state.peers) :
    other.id = id ∧ other.Sound [] ∨
      ∃ peer ∈ cluster.peers, peer.id ≠ id ∧ other.id = peer.id ∧ ∀ pairs, peer.Sound pairs →
        other.Sound (pairs.filter fun pair =>
          pair.1 ∉ takenFrom (cluster.moved id known) peer.id) := by
  obtain ⟨-, -, state⟩ := sound.addPeer id known
  rw [state] at mem
  obtain ⟨peer, there, rfl⟩ := mem_mapPeers.mp mem
  rcases mem_putPeer.mp there with rfl | ⟨old, apart⟩
  · exact .inl ⟨Peer.id_evictAll, (Peer.sound_new id cluster.maxEntries).evictAll _⟩
  · exact .inr ⟨peer, old, apart, Peer.id_evictAll, fun pairs before => before.evictAll _⟩

/-- A peer that is not replaced is still there. -/
theorem Sound.exists_addPeer (sound : cluster.Sound members) {known : List String}
    (mem : peer ∈ cluster.peers) (apart : peer.id ≠ id) :
    ∃ later ∈ (cluster.addPeer id known).state.peers, later.id = peer.id ∧
      ∀ pairs, peer.Sound pairs → later.Sound (pairs.filter fun pair =>
        pair.1 ∉ takenFrom (cluster.moved id known) peer.id) := by
  obtain ⟨-, -, state⟩ := sound.addPeer id known
  rw [state]
  exact ⟨_, mem_mapPeers.mpr ⟨peer, mem_putPeer.mpr (.inr ⟨mem, apart⟩), rfl⟩, Peer.id_evictAll,
    fun pairs before => before.evictAll _⟩

end Cluster

end PeerCache
