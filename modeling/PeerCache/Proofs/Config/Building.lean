import PeerCache.Cluster.Basic
import PeerCache.Config.Basic
import PeerCache.Proofs.Cache.Filling
import PeerCache.Proofs.Ring.Records

/-!
# What is built from settings

A ring can be built from settings or by hand, and a cluster builds one of its own and publishes it.
`Config.BuildsRing` says that the ways agree: which settings are refused and why, and that a key has
the same owner whoever is asked. The two caches that are built from the same settings take in the
same pairs and agree on the one that leaves next (`builds_alike`).
-/

namespace PeerCache

/-- The hash functions that have a name. -/
inductive HashNamed : String → HashFn → Prop
  | crc32 : HashNamed "crc32" Checksum.crc32
  | blake3 : HashNamed "blake3" Checksum.blake3

/-- There are two names that a hash function has. -/
theorem exists_hashNamed_iff {name : String} :
    (∃ hash, HashNamed name hash) ↔ name = "crc32" ∨ name = "blake3" := by
  constructor
  · rintro ⟨hash, named⟩
    cases named with
    | crc32 => exact .inl rfl
    | blake3 => exact .inr rfl
  · rintro (rfl | rfl)
    · exact ⟨_, .crc32⟩
    · exact ⟨_, .blake3⟩

namespace Config

open RecencyList (bind_ok)

variable {config : Config} {hash : HashFn}

/-! ## The ring -/

/-- **A ring is built from settings as by hand.** -/
structure BuildsRing (config : Config) : Prop where
  /-- A name that no hash function has is refused, whatever the other settings are. -/
  unknownHash : ∀ name, config.buildRing = .error (.unknownHash name) ↔
    name = config.ring.hash ∧ name ≠ "crc32" ∧ name ≠ "blake3"
  /-- After that it is refused to give the nodes no positions. -/
  zeroReplicas : config.buildRing = .error (.ring .zeroReplicas) ↔
    (config.ring.hash = "crc32" ∨ config.ring.hash = "blake3") ∧ config.ring.replicas = 0
  /-- Else the nodes are added to a new ring with the named function. -/
  built : ∀ hash, HashNamed config.ring.hash hash → config.ring.replicas ≠ 0 →
    ∃ new, Ring.empty? config.ring.replicas hash = .ok new ∧
      config.buildRing = .ok (new.addNodes config.ring.nodes)
  /-- A cluster of the same nodes gives every key to the same one of them. -/
  routes : config.ring.hash = "crc32" → config.ring.replicas ≠ 0 → config.ring.nodes ≠ [] →
    ∀ maxEntries, ∃ ring cluster, config.buildRing = .ok ring ∧
      Cluster.create config.ring.nodes config.ring.replicas maxEntries = .ok cluster ∧
      ∀ key, ∃ id ∈ config.ring.nodes, ring.lookup key = some id ∧ cluster.owner key = .ok id

theorem hashFn_of_named (named : HashNamed config.ring.hash hash) : config.hashFn = .ok hash := by
  unfold hashFn
  generalize config.ring.hash = name at named
  cases named with
  | crc32 => rfl
  | blake3 => rfl

/-- Under another name no ring is built, and the error says which name it was. -/
theorem buildRing_of_unnamed (unnamed : ∀ hash, ¬ HashNamed config.ring.hash hash) :
    config.buildRing = .error (.unknownHash config.ring.hash) := by
  have neither := mt exists_hashNamed_iff.mpr (not_exists.mpr unnamed)
  rw [not_or] at neither
  have refused : config.hashFn = .error (.unknownHash config.ring.hash) := by
    rw [hashFn, if_neg neither.1, if_neg neither.2]
  rw [buildRing, refused]
  rfl

/-- Without positions for the nodes no ring is built. -/
theorem buildRing_of_zero (named : HashNamed config.ring.hash hash)
    (zero : config.ring.replicas = 0) : config.buildRing = .error (.ring .zeroReplicas) := by
  rw [buildRing, hashFn_of_named named, zero]
  rfl

/-- Else the nodes are added to a new ring. -/
theorem buildRing_of_pos (named : HashNamed config.ring.hash hash)
    (positive : 0 < config.ring.replicas) :
    config.buildRing =
      .ok (Ring.addNodes ⟨hash, config.ring.replicas, positive, #[], ∅⟩ config.ring.nodes) := by
  have new : Ring.empty? config.ring.replicas hash = .ok ⟨hash, _, positive, #[], ∅⟩ :=
    dif_pos positive
  rw [buildRing, hashFn_of_named named]
  exact bind_ok (congrArg (Except.mapError ConfigError.ring) new)

/-- The three ends of building a ring. -/
theorem buildRing_cases (config : Config) :
    (¬ ∃ hash, HashNamed config.ring.hash hash) ∧
        config.buildRing = .error (.unknownHash config.ring.hash) ∨
      (∃ hash, HashNamed config.ring.hash hash) ∧
        (config.ring.replicas = 0 ∧ config.buildRing = .error (.ring .zeroReplicas) ∨
          config.ring.replicas ≠ 0 ∧ ∃ ring, config.buildRing = .ok ring) := by
  by_cases named : ∃ hash, HashNamed config.ring.hash hash
  · refine .inr ⟨named, ?_⟩
    obtain ⟨hash, named⟩ := named
    rcases Nat.eq_zero_or_pos config.ring.replicas with zero | positive
    · exact .inl ⟨zero, buildRing_of_zero named zero⟩
    · exact .inr ⟨Nat.ne_of_gt positive, _, buildRing_of_pos named positive⟩
  · exact .inl ⟨named, buildRing_of_unnamed fun hash is => named ⟨hash, is⟩⟩

/-- A cluster publishes the ring that is built by hand. -/
theorem lookup_of_create {ids : List String} {replicas maxEntries : Nat} (positive : 0 < replicas) :
    ∃ cluster, Cluster.create ids replicas maxEntries = .ok cluster ∧ ∀ key,
      cluster.ring.lookup key =
        (Ring.addNodes ⟨Checksum.crc32, replicas, positive, #[], ∅⟩ ids).lookup key := by
  obtain ⟨-, published⟩ := @SharedRing.addNodes_of_writable
    (.ofRing ⟨Checksum.crc32, replicas, positive, #[], ∅⟩) rfl ids
  refine ⟨_, by rw [Cluster.create, Ring.empty?, dif_pos positive], fun key => ?_⟩
  rw [published]
  rfl

/-- Each way in which building a ring can end has its cases of `buildRing_cases`. A cluster hashes
with `crc32`, so its routes are those of a ring that is built with that. -/
theorem buildsRing (config : Config) : config.BuildsRing := by
  constructor
  case unknownHash =>
    intro name
    rw [← not_or, ← exists_hashNamed_iff]
    rcases config.buildRing_cases with ⟨unnamed, refused⟩ | ⟨named, ⟨-, refused⟩ | ⟨-, ring, built⟩⟩
    · rw [refused, Except.error.injEq, ConfigError.unknownHash.injEq]
      exact ⟨fun same => ⟨same.symm, same ▸ unnamed⟩, fun same => same.1.symm⟩
    · rw [refused]
      exact iff_of_false nofun fun ⟨same, unnamed⟩ => unnamed (same ▸ named)
    · rw [built]
      exact iff_of_false nofun fun ⟨same, unnamed⟩ => unnamed (same ▸ named)
  case zeroReplicas =>
    rw [← exists_hashNamed_iff]
    rcases config.buildRing_cases with
      ⟨unnamed, refused⟩ | ⟨named, ⟨zero, refused⟩ | ⟨positive, ring, built⟩⟩
    · rw [refused]
      exact iff_of_false nofun fun ⟨named, _⟩ => unnamed named
    · exact iff_of_true refused ⟨named, zero⟩
    · rw [built]
      exact iff_of_false nofun fun ⟨_, zero⟩ => positive zero
  case built =>
    intro hash named positive
    have positive := Nat.pos_of_ne_zero positive
    exact ⟨_, dif_pos positive, buildRing_of_pos named positive⟩
  case routes =>
    intro name positive ne maxEntries
    have positive := Nat.pos_of_ne_zero positive
    have named : HashNamed config.ring.hash Checksum.crc32 := name ▸ .crc32
    obtain ⟨cluster, created, same⟩ :=
      @lookup_of_create config.ring.nodes config.ring.replicas maxEntries positive
    refine ⟨_, cluster, buildRing_of_pos named positive, created, fun key => ?_⟩
    have records :=
      (@Ring.records_empty Checksum.crc32 _ positive).addNodes config.ring.nodes
    obtain ⟨id, mem, found⟩ := records.exists_lookup ne key
    refine ⟨id, mem, found, ?_⟩
    rw [Cluster.owner, same, found]

/-! ## Rings and caches -/

variable {κ ν : Type} [BEq κ] [Hashable κ] [EquivBEq κ] [LawfulHashable κ]

/-- **What is built from settings agrees with what is built by hand, and with each other.** Whatever
the settings are, and whatever pairs are added to both caches:

* a ring is refused or built as it is by hand, and gives every key to the node that the peers of a
  cluster of the same nodes take for its owner (`BuildsRing`);
* all pairs are taken in by both caches, which then hold one pair for each different key, but not
  more than the bound allows;
* the pair that leaves the shared cache next is the last one of the walk over the other one, and
  there is none just if that one is empty. -/
theorem builds_alike (config : Config) (entries : List (κ × ν)) :
    let plain := (config.buildCache : Cache κ ν).addAll entries
    let shared := (config.buildSharedCache : SharedCache κ ν).addAll entries
    let held := PairStore.fill config.cache.maxEntries (entries.map Prod.fst)
    config.BuildsRing ∧
      plain.answer = .ok () ∧ shared.answer = .ok () ∧
      plain.state.size = held ∧ shared.state.size.answer = .ok held ∧
      ∃ pairs, plain.state.toList = .ok pairs ∧
        shared.state.removeOldest.answer = .ok pairs.getLast? ∧
        (shared.state.removeOldest.answer = .ok none ↔ pairs = []) := by
  intro plain shared held
  obtain ⟨answer, size, pairs, walked, oldest⟩ := Cache.addAll_empty config.cache.maxEntries entries
  obtain ⟨answer', same⟩ := SharedCache.addAll_of_answered answer
  have same : shared.state = .ofCache plain.state := same
  have oldest' : shared.state.removeOldest.answer = .ok pairs.getLast? := by
    rw [same]
    exact oldest
  refine ⟨config.buildsRing, answer, answer', size, ?_, pairs, walked, oldest', ?_⟩
  · rw [same]
    exact congrArg _ size
  · rw [oldest', Except.ok.injEq, List.getLast?_eq_none_iff]

/-- Of four pairs with three keys two are held, and the key that was added first is the one that
leaves next: it was added once more in between. One of the nodes of the ring is listed twice. -/
theorem builds_alike_repeated_node :
    let config : Config :=
      { ring := { replicas := 2, nodes := ["b", "a", "b"] }, cache := { maxEntries := 2 } }
    let entries : List (Nat × String) := [(1, "a"), (2, "b"), (1, "c"), (3, "d")]
    let shared := (config.buildSharedCache : SharedCache Nat String).addAll entries
    shared.state.size.answer = .ok 2 ∧ shared.state.removeOldest.answer = .ok (some (1, "c")) ∧
      ∃ ring cluster, config.buildRing = .ok ring ∧
        Cluster.create ["b", "a", "b"] 2 9 = .ok cluster ∧
        ∃ id ∈ ["b", "a", "b"], ring.lookup "key" = some id ∧ cluster.owner "key" = .ok id := by
  intro config entries shared
  obtain ⟨rings, -, -, -, size, pairs, walked, oldest, -⟩ := builds_alike config entries
  have mirrors := ((Cache.mirrors_empty 2).addAll entries).2
  obtain rfl : _ = pairs := Except.ok.inj (mirrors.sight.2.2.symm.trans walked)
  obtain ⟨ring, cluster, built, created, routes⟩ := rings.routes rfl (by decide) (by decide) 9
  exact ⟨size, oldest, ring, cluster, built, created, routes "key"⟩

example : ({ ring := { replicas := 0, hash := "md5" } } : Config).buildRing =
    .error (.unknownHash "md5") := rfl

end Config

end PeerCache
