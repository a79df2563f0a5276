import PeerCache.Cluster.History
import PeerCache.Proofs.Cluster.Caching
import PeerCache.Proofs.Cluster.Loading

/-!
# What a peer answers and caches

A peer is `Sound` with the pairs it has cached if its flight is one of loads and no pair says
anything but what loading its key comes to. Whatever is done to a peer leaves it sound, and a read
of a key ends with what loading the key comes to, from the cache or not (`Sound.start`,
`Sound.resume`). Of keys that are cached, a read adds at most its own one.
-/

namespace PeerCache.Peer

variable {peer : Peer} {pairs : List (String × String)} {key : String} {task : TaskId}

/-- The peer has these pairs cached, most recently used first, and all are as in the store. -/
structure Sound (peer : Peer) (pairs : List (String × String)) : Prop where
  loads : peer.flight.Loads
  keeps : peer.cache.Keeps pairs
  truthful : ∀ pair ∈ pairs, Store.load pair.1 = .ok pair.2

/-- A new peer is sound with nothing cached. -/
theorem sound_new (id : String) (maxEntries : Nat) : (new id maxEntries).Sound [] where
  loads := Flight.loads_empty
  keeps := SharedCache.keeps_empty maxEntries
  truthful := nofun

/-! ## What can be seen of the cache -/

/-- Of a sound peer the cached pairs can be read out, most recently used first. -/
theorem Sound.cached (sound : peer.Sound pairs) : peer.cached = .ok pairs := by
  obtain ⟨store, rfl, mirrors⟩ := sound.keeps.mirrors
  rw [Peer.cached, sound.keeps.good, mirrors.sight.2.2]
  rfl

/-- Whether a key is cached can be asked of a sound peer, and is answered by its pairs. -/
theorem Sound.holds (sound : peer.Sound pairs) (key : String) :
    peer.holds key = .ok (decide (key ∈ pairs.map Prod.fst)) := by
  rw [Peer.holds, sound.keeps.contains]
  congr 1
  rw [Bool.eq_iff_iff, List.any_eq_true, decide_eq_true_iff, List.mem_map]
  simp only [beq_iff_eq]

/-- Whether a sound peer holds a key is whether one of its pairs has it. -/
theorem Sound.holds_iff (sound : peer.Sound pairs) :
    peer.holds key = .ok true ↔ key ∈ pairs.map Prod.fst := by
  rw [sound.holds, Except.ok.injEq, decide_eq_true_iff]

/-! ## Reading -/

variable {polled : Polled String LoadError}

@[simp] theorem id_receive : (peer.receive key task polled).state.id = peer.id := by
  unfold receive
  cases polled.answer with
  | returned result => cases result <;> rfl
  | _ => rfl

@[simp] theorem flight_receive : (peer.receive key task polled).state.flight = polled.flight := by
  unfold receive
  cases polled.answer with
  | returned result => cases result <;> rfl
  | _ => rfl

/-- A peer keeps its id. -/
@[simp] theorem id_start : (peer.start key).state.id = peer.id := by
  unfold start
  simp only
  split
  · rfl
  · rfl
  · exact id_receive

@[simp] theorem id_resume : (peer.resume key task).state.id = peer.id := id_receive

/-- A read whose task is not done waits on, and nothing is cached. -/
theorem Sound.receive_pending (sound : peer.Sound pairs) (loads : polled.flight.Loads)
    (pending : polled.answer = .pending) :
    let received := peer.receive key task polled
    received.answer = .ok (.waiting task) ∧ received.state.Sound pairs := by
  simp only [Peer.receive, pending, true_and]
  exact ⟨loads, sound.keeps, sound.truthful⟩

/-- A read whose task returns ends with what that comes to; a value is cached, a failure is not. -/
theorem Sound.receive_returned (sound : peer.Sound pairs) (loads : polled.flight.Loads)
    (returned : polled.answer = .returned (Store.load key)) :
    let received := peer.receive key task polled
    received.answer = .ok (.finished (Store.load key)) ∧
      ∃ pairs', received.state.Sound pairs' ∧
        ∀ other ∈ pairs'.map Prod.fst, other = key ∨ other ∈ pairs.map Prod.fst := by
  cases loaded : Store.load key with
  | error e =>
    rw [loaded] at returned
    simp only [Peer.receive, returned, true_and]
    exact ⟨pairs, ⟨loads, sound.keeps, sound.truthful⟩, fun _ => .inr⟩
  | ok value =>
    rw [loaded] at returned
    obtain ⟨pairs', keeps, fewer, answer⟩ := sound.keeps.add key value
    simp only [Peer.receive, returned, answer, Except.map, true_and]
    refine ⟨pairs', ⟨loads, keeps, fun pair mem => ?_⟩, fun other mem => ?_⟩
    · rcases fewer pair mem with rfl | there
      · exact loaded
      · exact sound.truthful pair there
    · obtain ⟨pair, there, rfl⟩ := List.mem_map.mp mem
      rcases fewer pair there with rfl | before
      · exact .inl rfl
      · exact .inr (List.mem_map_of_mem before)

/-- **A read that starts is answered from the cache, or waits as a new task.** -/
theorem Sound.start (sound : peer.Sound pairs) (key : String) :
    let started := peer.start key
    (∃ pairs', started.state.Sound pairs' ∧
        ∀ other, other ∈ pairs'.map Prod.fst ↔ other ∈ pairs.map Prod.fst) ∧
      (started.answer = .ok (.finished (Store.load key)) ∧ started.state.flight = peer.flight ∨
        ∃ task, started.answer = .ok (.waiting task) ∧
          (∀ {other standing}, peer.flight.standing? other = some standing → other < task) ∧
          started.state.flight.Awaits task key ∧ ∀ other, task ≠ other →
            started.state.flight.standing? other = peer.flight.standing? other) := by
  obtain ⟨pairs', keeps, same, answer⟩ := sound.keeps.get key
  have looked : Sound { peer with cache := (peer.cache.get key).state } pairs' :=
    ⟨sound.loads, keeps, fun pair mem => sound.truthful pair ((same pair).mp mem)⟩
  have keys : ∀ other, other ∈ pairs'.map Prod.fst ↔ other ∈ pairs.map Prod.fst := by
    intro other
    simp only [List.mem_map, same]
  cases found : pairs.find? (·.1 == key) with
  | some pair =>
    obtain ⟨mine, -⟩ := List.find?_eq_some_iff_append.mp found
    have loaded := sound.truthful pair (List.mem_of_find?_eq_some found)
    rw [eq_of_beq mine] at loaded
    rw [found] at answer
    simp only [Peer.start, answer, Option.map_some, loaded, true_and]
    exact ⟨⟨pairs', looked, keys⟩, .inl trivial⟩
  | none =>
    rw [found] at answer
    simp only [Peer.start, answer, Option.map_none]
    obtain ⟨pending, loads, awaits, others⟩ := sound.loads.begin key
    obtain ⟨waits, sound'⟩ := looked.receive_pending loads pending
    refine ⟨⟨pairs', sound', keys⟩, .inr ⟨_, waits, ?_⟩⟩
    rw [flight_receive]
    exact ⟨fun there => sound.loads.numbered there, awaits, others⟩

/-- **A read that goes on waits or ends** with what loading its key comes to. -/
theorem Sound.resume (sound : peer.Sound pairs) (awaits : peer.flight.Awaits task key) :
    let resumed := peer.resume key task
    (∃ pairs', resumed.state.Sound pairs' ∧
        ∀ other ∈ pairs'.map Prod.fst, other = key ∨ other ∈ pairs.map Prod.fst) ∧
      (resumed.answer = .ok (.waiting task) ∧
          (∀ other, resumed.state.flight.standing? other = peer.flight.standing? other) ∨
        resumed.answer = .ok (.finished (Store.load key)) ∧
          ∀ other, resumed.state.flight.standing? other =
            if task = other then some (key, .ended) else peer.flight.standing? other) := by
  rw [Peer.resume]
  obtain ⟨loads, ⟨pending, same⟩ | ⟨returned, ended⟩⟩ := sound.loads.continue awaits
  · obtain ⟨waits, sound'⟩ := sound.receive_pending loads pending
    refine ⟨⟨pairs, sound', fun _ => .inr⟩, .inl ⟨waits, fun other => ?_⟩⟩
    rw [flight_receive, same]
  · obtain ⟨finishes, pairs', sound', fewer⟩ := sound.receive_returned loads returned
    refine ⟨⟨pairs', sound', fewer⟩, .inr ⟨finishes, fun other => ?_⟩⟩
    rw [flight_receive, ended]

/-! ## Losing a key, and time passing -/

/-- To evict a key takes the pair of this key from a sound peer and no other, and cannot fail. -/
theorem Sound.evict (sound : peer.Sound pairs) (key : String) :
    let evicted := peer.evict key
    evicted.answer = .ok () ∧ evicted.state.Sound (pairs.filter fun pair => pair.1 != key) := by
  obtain ⟨keeps, held, answer⟩ := sound.keeps.remove key
  simp only [Peer.evict, answer, Except.map, true_and]
  exact ⟨sound.loads, keeps, fun pair mem => sound.truthful pair (List.mem_of_mem_filter mem)⟩

@[simp] theorem id_finish : (peer.finish key).id = peer.id := by
  unfold finish
  split <;> rfl

/-- A load that gets done is not felt until its task is polled. -/
theorem Sound.finish (sound : peer.Sound pairs) (key : String) :
    (peer.finish key).Sound pairs ∧
      ∀ other, (peer.finish key).flight.standing? other = peer.flight.standing? other := by
  unfold Peer.finish
  split
  · next leader found =>
    have leads := sound.loads.coherent.registered sound.loads.good found
    exact ⟨⟨sound.loads.resolve leads, sound.keeps, sound.truthful⟩,
      fun other => Flight.standing?_update fun _ => ⟨rfl, rfl⟩⟩
  · exact ⟨sound, fun _ => rfl⟩

/-- That loads get done does not touch the cache, and the flight stays one of loads. -/
theorem Sound.elapse (sound : peer.Sound pairs) : peer.elapse.Sound pairs where
  loads := sound.loads.elapse.1
  keeps := sound.keeps
  truthful := sound.truthful

end PeerCache.Peer
