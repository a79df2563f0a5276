import PeerCache.Proofs.Cluster.Progress

/-!
# Reading through a cluster is reading the store

Whatever has been cached, dropped or taken over before, a read ends as the store has its key
(`transparent_after`). All of it is read off the invariant of reads under way: it holds after every
history of a cluster (`Sound.after`), and reads that begin while none is under way begin in a batch
of their own that is sound again (`Sound.afresh`), so that they can be run to their end
(`Sound.readAll`).
-/

namespace PeerCache.Batch

variable {batch : Batch} {members : List String} {turns : List Turn} {ops : List ClusterOp}

/-! ## Turns in a row -/

/-- Turns that are run one after the other are a history. -/
theorem Sound.run (sound : batch.Sound members) (admits : batch.Admits Allows (turns.map .turn)) :
    (batch.run turns).answer = .ok () ∧
      (batch.run turns).state = batch.after (turns.map .turn) := by
  suffices (∃ units, (Step.forEach turns Batch.take batch).answer = .ok units) ∧
      (Step.forEach turns Batch.take batch).state = batch.after (turns.map .turn) by
    obtain ⟨⟨units, answer⟩, state⟩ := this
    exact ⟨congrArg (Except.map fun _ => ()) answer, state⟩
  induction turns generalizing batch with
  | nil => exact ⟨⟨[], rfl⟩, rfl⟩
  | cons turn turns ih =>
    have took := sound.take turn admits.1
    obtain ⟨⟨units, answers⟩, state⟩ := ih took.sound admits.2
    obtain ⟨hstate, hanswer⟩ := Step.forEach_cons_of_ok took.answer turns
    exact ⟨⟨_, hanswer.trans (congrArg (Except.map _) answers)⟩, hstate.trans state⟩

/-- Time can pass and reads can be polled at any moment. -/
theorem admits_polls {indices : List Nat} : batch.Admits Allows (polls indices) := by
  induction indices generalizing batch with
  | nil => trivial
  | cons k indices ih => exact ⟨trivial, ih⟩

theorem begins_starts (keys : List String) :
    (keys.map fun key => ClusterOp.turn (.start key)).flatMap ClusterOp.begins = keys := by
  rw [List.flatMap_map]
  exact List.flatMap_singleton' keys

/-! ## A batch of reads -/

/-- While no read is under way the cluster is as good as one on which none has begun. -/
theorem Sound.afresh (sound : batch.Sound members) (settled : batch.Settled) :
    Sound ⟨batch.cluster, #[]⟩ members where
  cluster := sound.cluster
  reads := nofun
  leaders _ mem _ _ leads := absurd leads (sound.idle settled mem)
  ordered _ := nofun

/-- **Reads that are begun together all end**, each as the store has its key. -/
theorem Sound.readAll (sound : batch.Sound members) (settled : batch.Settled)
    (ne : batch.cluster.peers ≠ []) (keys : List String) :
    (batch.cluster.readAll keys).answer = .ok (keys.map fun key => some (Store.load key)) := by
  have fresh := sound.afresh settled
  generalize batch.cluster = cluster at fresh ne ⊢
  -- all of them begin, then time passes, and each is polled
  have turns : (Cluster.lockstep keys).map ClusterOp.turn =
      (keys.map fun key => .turn (.start key)) ++
        .turn .elapse :: polls (List.range keys.length) := by
    simp [Cluster.lockstep, polls, Function.comp_def]
  have starts : Admits Allows ⟨cluster, #[]⟩ (keys.map fun key => .turn (.start key)) :=
    fresh.admits_starts ne (fun _ _ there => there) keys
  have admits : Admits Allows ⟨cluster, #[]⟩ ((Cluster.lockstep keys).map ClusterOp.turn) := by
    rw [turns, admits_append]
    exact ⟨starts, trivial, admits_polls⟩
  obtain ⟨answer, state⟩ := fresh.run admits
  obtain ⟨begun, begunKeys⟩ := fresh.after starts
  rw [begins_starts] at begunKeys
  have done := begun.done_of_pollsAll <| by
    rw [← length_keys, begunKeys]
    exact pollsAll_range keys.length
  have lastKeys := (begun.keys_after_polls (List.range keys.length)).trans begunKeys
  rw [← after_append, ← turns, ← state] at done lastKeys
  rw [Cluster.readAll]
  simp only [answer, Except.map]
  generalize (Batch.run (Cluster.lockstep keys) ⟨cluster, #[]⟩).state = last at done lastKeys ⊢
  refine congrArg Except.ok ?_
  calc last.answers
    _ = last.reads.toList.map fun read => some (Store.load read.key) :=
      List.map_congr_left fun read mem => by
        rw [Read.answer?, done read (Array.mem_toList_iff.mp mem)]
    _ = last.keys.map fun key => some (Store.load key) := by rw [Batch.keys, List.map_map]; rfl
    _ = keys.map fun key => some (Store.load key) := by rw [lastKeys]; rfl

/-! ## The store shines through -/

/-- Reading through the cluster is reading the store. -/
structure Transparent (batch : Batch) : Prop where
  /-- Whatever can be done next is done without a fault. -/
  faultless : ∀ op, batch.Allows op → (batch.apply op).answer = .ok ()
  /-- A read that has ended has ended as the store has its key. -/
  truthful : ∀ read ∈ batch.reads, ∀ answer, read.answer? = some answer →
    answer = if Store.lacks read.key then .error ⟨read.key⟩ else .ok (Store.expectedValue read.key)
  /-- The reads under way end once their loads are done and each is polled, in the order in which
  they began or any other that polls those that began earlier before those that began later. -/
  ends : ∀ indices, PollsAll batch.reads.size indices →
    let last := batch.after (.turn .elapse :: polls indices)
    last.keys = batch.keys ∧ ∀ read ∈ last.reads, read.answer? = some
      (if Store.lacks read.key then .error ⟨read.key⟩ else .ok (Store.expectedValue read.key))
  /-- Reads that begin while no other is under way all end. -/
  together : batch.Settled → batch.cluster.peers ≠ [] → ∀ keys,
    (batch.cluster.readAll keys).answer = .ok (keys.map fun key => some
      (if Store.lacks key then .error ⟨key⟩ else .ok (Store.expectedValue key)))
  /-- What is cached is what the store holds. -/
  cached : ∀ peer ∈ batch.cluster.peers, ∃ pairs, peer.cached = .ok pairs ∧
    ∀ pair ∈ pairs, Store.lacks pair.1 = false ∧ pair.2 = Store.expectedValue pair.1
  /-- Every key is owned by a peer that is there. -/
  owned : batch.cluster.peers ≠ [] → ∀ key, ∃ peer ∈ batch.cluster.peers,
    batch.cluster.owner key = .ok peer.id

/-- Transparency is a matter of the state. Where the reads are in order, whatever can be done ends
without a fault, and every read that has ended has been answered as the store would. -/
theorem Sound.transparent (sound : batch.Sound members) : batch.Transparent where
  faultless op allowed := (sound.apply allowed).1
  truthful := by
    intro read mem answer ended
    obtain ⟨i, inside, rfl⟩ := Array.mem_iff_getElem.mp mem
    rcases sound.reads (Array.getElem?_eq_getElem inside) with done | ⟨task, waits⟩
    · rw [Read.answer?, done] at ended
      exact (Option.some.inj ended).symm
    · rw [Read.answer?, waits.progress] at ended
      cases ended
  ends indices all := by
    refine ⟨sound.keys_after_polls indices, fun read mem => ?_⟩
    rw [Read.answer?, sound.done_of_pollsAll all read mem]
    rfl
  together := sound.readAll
  cached := by
    intro peer mem
    obtain ⟨pairs, peerSound⟩ := sound.cluster.peers peer mem
    exact ⟨pairs, peerSound.cached, fun pair there =>
      Store.load_eq_ok_iff.mp (peerSound.truthful pair there)⟩
  owned := by
    intro ne key
    obtain ⟨peer, mem, found⟩ := sound.cluster.exists_owner ne key
    exact ⟨peer, mem, by rw [Cluster.owner, found]⟩

/-- **A cluster is transparent** from its creation on, whatever is done to it at a moment when it
can be done: reads begun on it and polled in any order, loads that get done in any order, peers that
join, be it in the place of others, and keys that are evicted. Its peers are those it began with and
those that joined. -/
theorem transparent_after (ids : List String) {replicas : Nat} (maxEntries : Nat)
    (positive : 0 < replicas) :
    ∃ new, Cluster.create ids replicas maxEntries = .ok new ∧
      ∀ ops, Batch.Admits Allows ⟨new, #[]⟩ ops →
        let batch := Batch.after ⟨new, #[]⟩ ops
        (∀ id, (∃ peer ∈ batch.cluster.peers, peer.id = id) ↔
            id ∈ ids ++ ops.flatMap ClusterOp.joins) ∧
          batch.keys = ops.flatMap ClusterOp.begins ∧ batch.Transparent := by
  obtain ⟨new, created, sound, -⟩ := sound_create ids maxEntries positive
  refine ⟨new, created, fun ops admits => ?_⟩
  obtain ⟨later, keys⟩ := sound.after admits
  exact ⟨later.cluster.mem_iff, keys, later.transparent⟩

/-- Two reads of a key that the store lacks share one load and both fail; a peer joins, and the keys
read next are answered as before. -/
theorem transparent_after_failure :
    ∃ new, Cluster.create ["a"] 3 1 = .ok new ∧
      let ops := [.turn (.start "missing-k"), .turn (.start "missing-k")] ++
        .turn .elapse :: polls [0, 1] ++ [.addPeer "b" ["missing-k"], .evict "b" "k"]
      Batch.Admits Allows ⟨new, #[]⟩ ops ∧
        ((Batch.after ⟨new, #[]⟩ ops).cluster.readAll ["k", "missing-k"]).answer =
          .ok [some (.ok "value-of-k"), some (.error ⟨"missing-k"⟩)] := by
  obtain ⟨new, created, course⟩ := transparent_after ["a"] 1 (by decide : 0 < 3)
  refine ⟨new, created, ?_⟩
  have peopled : ∀ ops, Batch.Admits Allows ⟨new, #[]⟩ ops →
      (Batch.after ⟨new, #[]⟩ ops).cluster.peers ≠ [] := by
    intro ops admits
    obtain ⟨peer, mem, -⟩ := ((course ops admits).1 "a").mpr List.mem_cons_self
    exact List.ne_nil_of_mem mem
  -- both reads can begin
  generalize hstarts : [ClusterOp.turn (.start "missing-k"), .turn (.start "missing-k")] = starts
  have begin : Batch.Admits Allows ⟨new, #[]⟩ starts := by
    have first := peopled [] trivial
    have second := peopled [.turn (.start "missing-k")] ⟨first, trivial⟩
    exact hstarts ▸ ⟨first, second, trivial⟩
  obtain ⟨-, keys, transparent⟩ := course starts begin
  have size : (Batch.after ⟨new, #[]⟩ starts).reads.size = 2 := by
    rw [← length_keys, keys, ← hstarts]
    rfl
  -- both end, so that the peer can join
  generalize hreads : starts ++ .turn .elapse :: polls [0, 1] = reads
  have run : Batch.Admits Allows ⟨new, #[]⟩ reads := by
    rw [← hreads, admits_append]
    exact ⟨begin, trivial, admits_polls⟩
  have settled : (Batch.after ⟨new, #[]⟩ reads).Settled := by
    intro read mem
    rw [← hreads, after_append] at mem
    rw [(transparent.ends [0, 1] (size ▸ pollsAll_range 2)).2 read mem]
    rfl
  have joined : Batch.Admits Allows ⟨new, #[]⟩ (reads ++ [.addPeer "b" ["missing-k"]]) :=
    admits_append.mpr ⟨run, settled, trivial⟩
  have there := ((course _ joined).1 "b").mpr (by simp [ClusterOp.joins])
  rw [after_append] at there
  have whole : Batch.Admits Allows ⟨new, #[]⟩
      (reads ++ [.addPeer "b" ["missing-k"], .evict "b" "k"]) :=
    admits_append.mpr ⟨run, settled, there, trivial⟩
  have settled' : (Batch.after ⟨new, #[]⟩
      (reads ++ [.addPeer "b" ["missing-k"], .evict "b" "k"])).Settled := by
    rw [after_append]
    exact settled
  exact ⟨whole, (course _ whole).2.2.together settled' (peopled _ whole) ["k", "missing-k"]⟩

end PeerCache.Batch
