import PeerCache.Proofs.Cluster.Progress

/-!
# Keys are cached by their owners alone

A cluster is `Placed` if every key that a peer holds is owned by that peer. Reads keep this, since a
read caches its key at the owner. A peer that joins keeps it if it is told of every key that is
cached: then a key whose owner changes is among those that changed hands, and the peer it is dropped
from is the one that holds it. Only keys that were read are ever cached (`Asked`), so that it is
enough to tell the peer of those. A key that is held nowhere and not being read `Rests`, and stays
so until a read of it begins.
-/

namespace PeerCache

variable {cluster cluster' : Cluster} {members known : List String} {peer other : Peer}
  {id former key : String}

/-! ## Who holds a key -/

namespace Cluster

/-- Whatever a peer holds it owns. -/
def Placed (cluster : Cluster) : Prop :=
  ∀ ⦃id key : String⦄, cluster.Holds id key → cluster.ring.lookup key = some id

/-- Keys are cached by their owners alone. -/
structure CachedByOwners (cluster : Cluster) : Prop where
  owned : ∀ peer ∈ cluster.peers, ∀ key, ∃ held, peer.holds key = .ok held ∧
    (held = true → cluster.owner key = .ok peer.id)
  /-- No key is cached by two peers. -/
  alone : ∀ peer ∈ cluster.peers, ∀ other ∈ cluster.peers, ∀ key,
    peer.holds key = .ok true → other.holds key = .ok true → peer = other

/-- Where whatever is held is owned by its holder, no two peers hold one key, since a key has one
owner. -/
theorem Sound.cachedByOwners (sound : cluster.Sound members) (placed : cluster.Placed) :
    cluster.CachedByOwners where
  owned := by
    intro peer mem key
    obtain ⟨pairs, peerSound⟩ := sound.peers peer mem
    refine ⟨_, peerSound.holds key, fun held => ?_⟩
    have owned := placed ⟨peer, mem, rfl, (peerSound.holds key).trans (congrArg Except.ok held)⟩
    rw [Cluster.owner, owned]
  alone := by
    intro peer mem other mem' key held held'
    have owned := placed ⟨peer, mem, rfl, held⟩
    have owned' := placed ⟨other, mem', rfl, held'⟩
    exact sound.eq_of_id_eq mem mem' (Option.some.inj (owned.symm.trans owned'))

/-- What a turn caches anew it caches at the owner, so the keys stay in their places. -/
theorem Placed.fills {works : String → Prop} (placed : cluster.Placed)
    (fills : cluster.Fills works cluster') : cluster'.Placed := by
  intro id key holds
  rw [fills.ring]
  rcases fills.held holds with before | ⟨-, owned⟩
  · exact placed before
  · exact owned

/-- **A peer that joins holds nothing**, and nobody holds what it took from them. -/
theorem Sound.held_addPeer (sound : cluster.Sound members)
    (holds : (cluster.addPeer id known).state.Holds former key) :
    cluster.Holds former key ∧ key ∉ takenFrom (cluster.moved id known) former := by
  obtain ⟨later, mem, rfl, held⟩ := holds
  rcases sound.mem_addPeer mem with ⟨-, empty⟩ | ⟨peer, there, -, same, lost⟩
  · cases empty.holds_iff.mp held
  · obtain ⟨pairs, before⟩ := sound.peers peer there
    obtain ⟨pair, left, rfl⟩ := List.mem_map.mp ((lost pairs before).holds_iff.mp held)
    rw [List.mem_filter, decide_eq_true_iff] at left
    rw [same]
    exact ⟨⟨peer, there, rfl, before.holds_iff.mpr (List.mem_map_of_mem left.1)⟩, left.2⟩

/-- The keys that are dropped as a peer joins do not touch the ring. -/
theorem Sound.ring_addPeer (sound : cluster.Sound members) :
    (cluster.addPeer id known).state.ring = (cluster.withPeer id).ring := by
  rw [(sound.addPeer id known).2.2]
  rfl

/-- What a peer holds is taken from that peer if it changes hands. -/
theorem Placed.mem_takenFrom_iff (placed : cluster.Placed) (holds : cluster.Holds former key) :
    key ∈ takenFrom (cluster.moved id known) former ↔
      key ∈ (cluster.moved id known).map Migration.key := by
  rw [mem_takenFrom, List.mem_map]
  refine exists_congr fun m => and_congr_right fun mem => and_iff_left_of_imp ?_
  rintro rfl
  exact (Ring.mem_migrations.mp mem).2.2.1.trans (placed holds)

/-- What a peer holds changes its owner only if it is taken from that peer. -/
theorem Placed.lookup_addPeer (placed : cluster.Placed) (sound : cluster.Sound members)
    (holds : cluster.Holds former key) (covered : key ∈ known)
    (left : key ∉ takenFrom (cluster.moved id known) former) :
    (cluster.addPeer id known).state.ring.lookup key = cluster.ring.lookup key := by
  rw [sound.ring_addPeer]
  by_contra moves
  exact left (mem_takenFrom_moved.mpr ⟨covered, moves, placed holds⟩)

/-- As a peer joins, the keys stay in their places if it is told of every key that is held: then
each key whose owner changes is dropped, and those that are not dropped have their owner still. -/
theorem Placed.addPeer (placed : cluster.Placed) (sound : cluster.Sound members)
    (covers : ∀ {former key}, cluster.Holds former key → key ∈ known) :
    (cluster.addPeer id known).state.Placed := by
  intro former key holds
  obtain ⟨before, left⟩ := sound.held_addPeer holds
  exact (placed.lookup_addPeer sound before (covers before) left).trans (placed before)

/-- A key that changed hands is held by nobody. -/
theorem Placed.not_holds_of_moved {m : Migration} (placed : cluster.Placed)
    (sound : cluster.Sound members) (mem : m ∈ cluster.moved id known) :
    ¬ (cluster.addPeer id known).state.Holds former m.key := by
  intro holds
  obtain ⟨before, left⟩ := sound.held_addPeer holds
  exact left ((placed.mem_takenFrom_iff before).mpr (List.mem_map_of_mem mem))

end Cluster

namespace Batch

variable {batch : Batch} {op : ClusterOp} {ops : List ClusterOp}

/-- A peer that joins is told of every key that is held by anybody. -/
theorem covers_addPeer_iff :
    batch.Covers (.addPeer id known) ↔
      ∀ {former key}, batch.cluster.Holds former key → key ∈ known :=
  ⟨fun covers {_ key} ⟨peer, mem, _, held⟩ => covers peer mem key held,
    fun covers peer mem _ held => covers ⟨peer, mem, rfl, held⟩⟩

/-- **Whatever is done, every key that is held stays with its owner.** -/
theorem Sound.placed_apply (sound : batch.Sound members) (placed : batch.cluster.Placed)
    (allowed : batch.Allows op) (covers : batch.Covers op) :
    (batch.apply op).state.cluster.Placed := by
  cases op with
  | turn turn => exact placed.fills (sound.take turn allowed).fills
  | addPeer id known => exact placed.addPeer sound.cluster (covers_addPeer_iff.mp covers)
  | evict id key => exact placed.fills (sound.evict allowed key).2.2
  | finish id key => exact placed.fills (sound.finish allowed key).2.2

/-- **Every key that is held stays with its owner, in every history** in which peers that join are
told of all of them. -/
theorem Sound.placed_after (sound : batch.Sound members) (placed : batch.cluster.Placed)
    (admits : batch.Admits (fun batch op => batch.Allows op ∧ batch.Covers op) ops) :
    (batch.after ops).cluster.Placed :=
  sound.after_of_apply admits placed fun sound' allowed _ placed' =>
    ⟨allowed.1, sound'.placed_apply placed' allowed.1 allowed.2⟩

/-! ## What is cached was read -/

/-- Every key that is cached is the key of a read that has begun. -/
def Asked (batch : Batch) : Prop :=
  ∀ ⦃id key : String⦄, batch.cluster.Holds id key → key ∈ batch.keys

/-- A turn goes on with a read that has begun, or begins it. -/
theorem mem_keys_of_worksFor {key : String} {turn : Turn} (works : batch.WorksFor key turn) :
    key ∈ batch.keys ++ turn.begins := by
  cases turn with
  | start begun => exact List.mem_append_right _ (List.mem_singleton.mpr works.symm)
  | elapse => cases works
  | resume i =>
    obtain ⟨read, found, -, rfl⟩ := works
    have mem := Array.mem_toList_iff.mpr (Array.mem_of_getElem? found)
    exact List.mem_append_left _ (List.mem_map_of_mem mem)

/-- Nothing done caches a key of which no read has begun. It is only turns of reads that cache, and
a peer that joins comes with nothing. -/
theorem Sound.asked_apply (sound : batch.Sound members) (allowed : batch.Allows op)
    (asked : batch.Asked) : (batch.apply op).state.Asked := by
  intro holder key holds
  rw [(sound.apply allowed).2.2]
  cases op with
  | turn turn =>
    rcases (sound.take turn allowed).fills.held holds with before | ⟨works, -⟩
    · exact List.mem_append_left _ (asked before)
    · exact mem_keys_of_worksFor works
  | addPeer joined known =>
    exact List.mem_append_left _ (asked (sound.cluster.held_addPeer holds).1)
  | evict id evicted =>
    exact List.mem_append_left _ (asked ((sound.evict allowed evicted).2.2.held_before holds))
  | finish id done =>
    exact List.mem_append_left _ (asked ((sound.finish allowed done).2.2.held_before holds))

/-- What is cached was read, after every history. -/
theorem Sound.asked_after (sound : batch.Sound members) (admits : batch.Admits Allows ops)
    (asked : batch.Asked) : (batch.after ops).Asked :=
  sound.after_of_apply admits asked fun sound' allowed _ asked' =>
    ⟨allowed, sound'.asked_apply allowed asked'⟩

/-- To be told of every key that was read is enough. -/
theorem Asked.covers (asked : batch.Asked) (told : ∀ key ∈ batch.keys, key ∈ known) :
    batch.Covers (.addPeer id known) :=
  covers_addPeer_iff.mpr fun holds => told _ (asked holds)

/-! ## Keys at rest -/

/-- Nobody holds the key, and no read of it is under way. -/
structure Rests (batch : Batch) (key : String) : Prop where
  nowhere : ∀ id, ¬ batch.cluster.Holds id key
  unasked : ∀ i, ¬ batch.WorksFor key (.resume i)

/-- A read that begins is one of the key it begins with. -/
theorem getElem?_take_start {i : Nat} {read : Read}
    (found : (batch.take (.start key)).state.reads[i]? = some read) :
    batch.reads[i]? = some read ∨ read.key = key := by
  obtain ⟨cluster, reads⟩ := batch
  have begins : ∀ begun, (cluster.start key).answer = .ok begun → begun.key = key := by
    intro begun answer
    unfold Cluster.start at answer
    split at answer
    · cases answer
    · next owner _ =>
      simp only [Step.map] at answer
      cases started : (cluster.atPeer owner (·.start key)).answer with
      | error fault => simp [started, Except.map] at answer
      | ok progress =>
        rw [started] at answer
        exact Except.ok.inj answer ▸ rfl
  unfold take at found
  simp only at found
  split at found
  · next begun answer =>
    rw [Array.getElem?_push] at found
    split at found
    · exact .inr (Option.some.inj found ▸ begins begun answer)
    · exact .inl found
  · exact .inl found

/-- **A key at rest rests until a read of it begins.** -/
theorem Sound.rests_take {turn : Turn} (sound : batch.Sound members)
    (allowed : batch.Allows (.turn turn)) (rests : batch.Rests key) (other : key ∉ turn.begins) :
    (batch.take turn).state.Rests key := by
  have works : ¬ batch.WorksFor key turn := by
    cases turn with
    | start begun => exact fun mine => other (List.mem_singleton.mpr mine.symm)
    | elapse => exact id
    | resume i => exact rests.unasked i
  refine ⟨fun id holds => ?_, fun i ⟨read, found, waits, mine⟩ => ?_⟩
  · rcases (sound.take turn allowed).fills.held holds with before | ⟨mine, -⟩
    · exact rests.nowhere id before
    · exact works mine
  · -- the read has been under way before
    refine rests.unasked i ⟨read, ?_, waits, mine⟩
    cases turn with
    | start begun =>
      rcases getElem?_take_start found with before | new
      · exact before
      · exact absurd (mine.symm.trans new) (fun same => works same.symm)
    | elapse => exact found
    | resume k =>
      obtain ⟨-, resumed⟩ := sound.resumed k
      generalize (batch.take (.resume k)).state = later at resumed found
      cases resumed with
      | idle => exact found
      | @went polled task peer progress found' waits' =>
        rw [Array.getElem?_setIfInBounds] at found
        split at found
        · next same =>
          rw [if_pos (Array.getElem?_eq_some_iff.mp found').1] at found
          obtain rfl := Option.some.inj found
          exact absurd ⟨polled, found', by rw [Read.answer?, waits'], mine⟩ works
        · exact found

/-- A key at rest is not stirred by evictions, by loads that get done or by peers that join, for
these cache nothing. -/
theorem Sound.rests_apply (sound : batch.Sound members) (allowed : batch.Allows op)
    (rests : batch.Rests key) (other : key ∉ op.begins) : (batch.apply op).state.Rests key := by
  cases op with
  | turn turn => exact sound.rests_take allowed rests other
  | addPeer id known =>
    exact ⟨fun former holds => rests.nowhere former (sound.cluster.held_addPeer holds).1,
      rests.unasked⟩
  | evict id evicted =>
    exact ⟨fun former holds => rests.nowhere former
      ((sound.evict allowed evicted).2.2.held_before holds), rests.unasked⟩
  | finish id done =>
    exact ⟨fun former holds => rests.nowhere former
      ((sound.finish allowed done).2.2.held_before holds), rests.unasked⟩

/-- A key at rest stays so in every history in which no read of it begins. -/
theorem Sound.rests_after (sound : batch.Sound members) (admits : batch.Admits Allows ops)
    (rests : batch.Rests key) (other : key ∉ ops.flatMap ClusterOp.begins) :
    (batch.after ops).Rests key :=
  sound.after_of_apply admits rests fun sound' allowed mem rests' =>
    ⟨allowed, sound'.rests_apply allowed rests' fun begins =>
      other (List.mem_flatMap.mpr ⟨_, mem, begins⟩)⟩

/-! ## From the creation on -/

/-- What a peer that joins has led to, when these keys are reported to have changed hands. -/
structure Rebalanced (before : Batch) (id : String) (moved : List Migration) (after : Batch) :
    Prop where
  /-- A key that has changed hands is cached by nobody, until a read of it begins. -/
  dropped : ∀ m ∈ moved, ∀ ops, after.Admits Allows ops → m.key ∉ ops.flatMap ClusterOp.begins →
    ∀ peer ∈ (after.after ops).cluster.peers, peer.holds m.key = .ok false
  /-- A key that was cached and has not changed hands has its owner still. -/
  kept : ∀ peer ∈ before.cluster.peers, ∀ key, peer.holds key = .ok true →
    key ∉ moved.map Migration.key → after.cluster.owner key = before.cluster.owner key
  /-- A peer that was not replaced has such keys cached as before, in the order of their use. -/
  cached : ∀ peer ∈ before.cluster.peers, peer.id ≠ id → ∃ pairs, peer.cached = .ok pairs ∧
    ∃ later ∈ after.cluster.peers, later.id = peer.id ∧
      later.cached = .ok (pairs.filter fun pair => pair.1 ∉ moved.map Migration.key)

/-- After a peer has joined while no read was under way, the keys that changed hands are at rest,
and all others are where they were. -/
theorem Sound.rebalanced (sound : batch.Sound members) (placed : batch.cluster.Placed)
    (settled : batch.Settled) (covers : batch.Covers (.addPeer id known)) :
    batch.Rebalanced id (batch.cluster.moved id known)
      (batch.apply (.addPeer id known)).state where
  dropped := by
    intro m mem ops admits unread peer there
    have joined := sound.addPeer settled id known
    have rests : (batch.apply (.addPeer id known)).state.Rests m.key := by
      refine ⟨fun _ => placed.not_holds_of_moved sound.cluster mem, ?_⟩
      rintro i ⟨read, found, waits, -⟩
      have ended := settled read (Array.mem_of_getElem? found)
      rw [waits] at ended
      cases ended
    have rests' := joined.rests_after admits rests unread
    obtain ⟨pairs, peerSound⟩ := (joined.after admits).1.cluster.peers peer there
    rw [peerSound.holds]
    refine congrArg Except.ok (decide_eq_false fun held => rests'.nowhere peer.id ?_)
    exact ⟨peer, there, rfl, peerSound.holds_iff.mpr held⟩
  kept := by
    intro peer mem key held left
    have holds : batch.cluster.Holds peer.id key := ⟨peer, mem, rfl, held⟩
    have same : (batch.apply (.addPeer id known)).state.cluster.ring.lookup key =
        batch.cluster.ring.lookup key :=
      placed.lookup_addPeer sound.cluster holds (covers peer mem key held) fun taken =>
        left ((placed.mem_takenFrom_iff holds).mp taken)
    rw [Cluster.owner, Cluster.owner, same]
  cached := by
    intro peer mem apart
    obtain ⟨pairs, peerSound⟩ := sound.cluster.peers peer mem
    obtain ⟨later, there, same, lost⟩ := sound.cluster.exists_addPeer mem apart
    refine ⟨pairs, peerSound.cached, later, there, same, ?_⟩
    rw [(lost pairs peerSound).cached]
    refine congrArg Except.ok (List.filter_congr fun pair held => decide_eq_decide.mpr ?_)
    refine not_congr (placed.mem_takenFrom_iff ⟨peer, mem, rfl, ?_⟩)
    exact peerSound.holds_iff.mpr (List.mem_map_of_mem held)

/-- Peers that are new hold nothing. -/
theorem not_holds_of_fresh {maxEntries : Nat}
    (fresh : ∀ peer ∈ cluster.peers, ∃ id, peer = .new id maxEntries) : ¬ cluster.Holds id key := by
  rintro ⟨peer, mem, -, held⟩
  obtain ⟨id, rfl⟩ := fresh peer mem
  cases (Peer.sound_new id maxEntries).holds_iff.mp held

/-- **Keys are cached by their owners alone** from the creation of a cluster on, through reads and
loads in any order, evictions, and peers that join and are told of every key that is cached. The
keys such a peer takes over are dropped where they were, and all others stay where they are. -/
theorem cachedByOwners_after (ids : List String) {replicas : Nat} (maxEntries : Nat)
    (positive : 0 < replicas) :
    ∃ new, Cluster.create ids replicas maxEntries = .ok new ∧
      ∀ ops, Batch.Admits (fun batch op => batch.Allows op ∧ batch.Covers op) ⟨new, #[]⟩ ops →
        let batch := Batch.after ⟨new, #[]⟩ ops
        batch.cluster.CachedByOwners ∧
          ∀ id known, batch.Settled → batch.Covers (.addPeer id known) →
            ∃ moved, (batch.cluster.addPeer id known).answer = .ok moved ∧
              batch.Rebalanced id moved (batch.apply (.addPeer id known)).state := by
  obtain ⟨new, created, sound, fresh⟩ := sound_create ids maxEntries positive
  refine ⟨new, created, fun ops admits => ?_⟩
  have placed : new.Placed := fun _ _ holds => absurd holds (not_holds_of_fresh fresh)
  have later := (sound.after (admits.imp fun _ _ allowed => allowed.1)).1
  have placed' := sound.placed_after placed admits
  refine ⟨later.cluster.cachedByOwners placed', fun id known settled covers => ?_⟩
  exact ⟨_, (later.cluster.addPeer id known).1, later.rebalanced placed' settled covers⟩

/-- A key is read, and then a peer joins and is told of it. -/
theorem cachedByOwners_after_join :
    ∃ new, Cluster.create ["a"] 3 2 = .ok new ∧
      let ops := .turn (.start "k") :: .turn .elapse :: polls [0]
      let batch := Batch.after ⟨new, #[]⟩ ops
      Batch.Admits (fun batch op => batch.Allows op ∧ batch.Covers op) ⟨new, #[]⟩ ops ∧
        batch.Settled ∧ batch.Covers (.addPeer "b" ["k"]) ∧ batch.cluster.CachedByOwners ∧
          ∃ moved, (batch.cluster.addPeer "b" ["k"]).answer = .ok moved ∧
            batch.Rebalanced "b" moved (batch.apply (.addPeer "b" ["k"])).state := by
  obtain ⟨new, created, sound, fresh⟩ := sound_create ["a"] 2 (by decide : 0 < 3)
  obtain ⟨new', created', course⟩ := cachedByOwners_after ["a"] 2 (by decide : 0 < 3)
  obtain rfl := Except.ok.inj (created.symm.trans created')
  refine ⟨new, created, ?_⟩
  have ne : new.peers ≠ [] := sound.cluster.members_ne_nil_iff.mpr (List.cons_ne_nil "a" [])
  intro ops batch
  have admits : Batch.Admits (fun batch op => batch.Allows op ∧ batch.Covers op) ⟨new, #[]⟩ ops :=
    ⟨⟨ne, trivial⟩, ⟨trivial, trivial⟩, ⟨trivial, trivial⟩, trivial⟩
  have allows := admits.imp fun _ _ allowed => allowed.1
  have keys : batch.keys = ["k"] := (sound.after allows).2
  have settled : batch.Settled := by
    have began := sound.take_start ne "k"
    have size : (Batch.take (.start "k") ⟨new, #[]⟩).state.reads.size = 1 := by
      rw [← length_keys, began.keys]
      rfl
    intro read mem
    rw [Read.answer?, began.sound.done_of_pollsAll (size ▸ pollsAll_range 1) read mem]
    rfl
  have covers : batch.Covers (.addPeer "b" ["k"]) := by
    have asked := sound.asked_after allows fun _ _ holds => absurd holds (not_holds_of_fresh fresh)
    exact asked.covers fun key mem => keys ▸ mem
  obtain ⟨cached, joining⟩ := course ops admits
  exact ⟨admits, settled, covers, cached, joining "b" ["k"] settled covers⟩

end Batch

end PeerCache
