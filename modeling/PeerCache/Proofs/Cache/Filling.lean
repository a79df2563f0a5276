import PeerCache.Cache.Shared
import PeerCache.Proofs.Cache.Course

/-!
# How full a cache gets

Pairs are added to a new cache, one after the other, and nothing else is done to it. Then every key
that is held has been added, and all keys that have been added are held unless the cache is full
(`PairStore.FilledBy`). So it holds as many pairs as different keys have been added, or as many as
it may (`PairStore.FilledBy.length_eq`). A cache behind a lock takes the pairs in as a plain one
does (`SharedCache.addAll_ofCache`).
-/

namespace PeerCache

variable {κ ν : Type} [BEq κ]

/-! ## Different keys -/

/-- No two of the keys are the same. -/
def Apart (keys : List κ) : Prop :=
  keys.Pairwise fun one two => (one == two) = false

/-- Every key of the one list is in the other one. -/
def CoveredBy (few many : List κ) : Prop :=
  ∀ key ∈ few, ∃ other ∈ many, (other == key) = true

section

variable [EquivBEq κ] {few many more keys : List κ}

/-- Keys that are among keys that are among others are among these. -/
theorem CoveredBy.trans (covered : CoveredBy few many) (covered' : CoveredBy many more) :
    CoveredBy few more := by
  intro key mem
  obtain ⟨other, mem', same⟩ := covered key mem
  obtain ⟨another, mem'', same'⟩ := covered' other mem'
  exact ⟨another, mem'', BEq.trans same' same⟩

theorem CoveredBy.of_subset (subset : few ⊆ many) : CoveredBy few many :=
  fun key mem => ⟨key, subset mem, BEq.rfl⟩

/-- The same key can be put before both lists. -/
theorem CoveredBy.cons (covered : CoveredBy few many) (key : κ) :
    CoveredBy (key :: few) (key :: many) := by
  intro other mem
  rcases List.mem_cons.mp mem with rfl | mem
  · exact ⟨other, List.mem_cons_self, BEq.rfl⟩
  · obtain ⟨mine, there, same⟩ := covered other mem
    exact ⟨mine, List.mem_cons_of_mem _ there, same⟩

/-- Keys that differ from each other are no more than those they are among. -/
theorem Apart.length_le (apart : Apart few) (covered : CoveredBy few many) :
    few.length ≤ many.length := by
  induction few generalizing many with
  | nil => exact Nat.zero_le _
  | cons key few ih =>
    obtain ⟨differs, apart⟩ := List.pairwise_cons.mp apart
    obtain ⟨other, mem, same⟩ := covered key List.mem_cons_self
    -- the key that stands for the first one stands for none of the others
    have rest : CoveredBy few (many.eraseP (· == key)) := by
      intro key' mem'
      obtain ⟨other', there, same'⟩ := covered key' (List.mem_cons_of_mem _ mem')
      refine ⟨other', (List.mem_eraseP_of_neg fun same'' => ?_).mpr there, same'⟩
      have equal := BEq.trans (BEq.symm same'') same'
      rw [differs key' mem'] at equal
      cases equal
    have shorter := ih apart rest
    rw [List.length_eraseP_of_mem mem same] at shorter
    have positive := List.length_pos_of_mem mem
    rw [List.length_cons]
    omega

/-- Without its repetitions a list has the same keys, each once. -/
theorem eraseDups_spec : ∀ keys : List κ,
    Apart keys.eraseDups ∧ keys.eraseDups ⊆ keys ∧ CoveredBy keys keys.eraseDups
  | [] => ⟨.nil, List.Subset.refl _, nofun⟩
  | key :: keys => by
    have shorter : (keys.filter fun other => !other == key).length < keys.length + 1 :=
      Nat.lt_succ_of_le (List.length_filter_le ..)
    obtain ⟨apart, subset, covered⟩ := eraseDups_spec (keys.filter fun other => !other == key)
    rw [List.eraseDups_cons]
    refine ⟨List.pairwise_cons.mpr ⟨fun other mem => ?_, apart⟩, ?_, fun other mem => ?_⟩
    · have differs := (List.mem_filter.mp (subset mem)).2
      rw [Bool.not_eq_true'] at differs
      exact BEq.symm_false differs
    · exact List.cons_subset_cons key (List.Subset.trans subset (List.filter_subset_self _))
    · cases same : other == key with
      | true => exact ⟨key, List.mem_cons_self, BEq.symm same⟩
      | false =>
        have there : other ∈ keys := by
          rcases List.mem_cons.mp mem with rfl | there
          · rw [BEq.rfl] at same
            cases same
          · exact there
        obtain ⟨kept, mem', same'⟩ := covered other (List.mem_filter.mpr ⟨there, by rw [same]; rfl⟩)
        exact ⟨kept, List.mem_cons_of_mem _ mem', same'⟩
  termination_by keys => keys.length

end

/-- The operations that add pairs one after the other. -/
def additions (entries : List (κ × ν)) : List (CacheOp κ ν) :=
  entries.map fun (key, value) => .add key value

/-! ## Stores of pairs -/

namespace PairStore

variable {store : PairStore κ ν} {keys : List κ}

/-- The keys that are held are among those that have been added. All of these are held, or there is
no room for one more pair. -/
structure FilledBy (store : PairStore κ ν) (keys : List κ) : Prop where
  added : CoveredBy (store.pairs.map Prod.fst) keys
  held : CoveredBy keys (store.pairs.map Prod.fst) ∨ store.Exceeds (store.pairs.length + 1)

theorem filledBy_empty (maxEntries : Nat) : (empty maxEntries : PairStore κ ν).FilledBy [] :=
  ⟨nofun, .inl nofun⟩

/-- How many pairs are held once some keys have been added. -/
def fill (maxEntries : Nat) (keys : List κ) : Nat :=
  if maxEntries = 0 then keys.eraseDups.length else min maxEntries keys.eraseDups.length

variable [EquivBEq κ]

/-- **A cache holds as many pairs as different keys have been added, or as many as it may.** -/
theorem FilledBy.length_eq (filled : store.FilledBy keys) (sound : store.Sound) :
    store.pairs.length = fill store.maxEntries keys := by
  obtain ⟨apart, subset, covered⟩ := eraseDups_spec keys
  have few : store.pairs.length ≤ keys.eraseDups.length := by
    rw [← List.length_map Prod.fst]
    exact Apart.length_le (List.pairwise_map.mpr sound.distinct) (filled.added.trans covered)
  have bounded := sound.bounded
  unfold Exceeds at bounded
  rw [fill]
  rcases filled.held with all | full
  · have many := apart.length_le ((CoveredBy.of_subset subset).trans all)
    rw [List.length_map] at many
    split <;> omega
  · rw [Exceeds] at full
    split <;> omega

/-- An addition arranges the keys that are held and the one that is added, and no others. -/
theorem arranged_coveredBy (store : PairStore κ ν) (key : κ) (value : ν) :
    CoveredBy ((store.arranged (.add key value)).map Prod.fst) (key :: store.pairs.map Prod.fst) ∧
      CoveredBy (key :: store.pairs.map Prod.fst)
        ((store.arranged (.add key value)).map Prod.fst) := by
  have front := store.heldKey_beq key
  refine ⟨fun other mem => ?_, fun other mem => ?_⟩
  · rcases List.mem_cons.mp mem with rfl | mem
    · exact ⟨key, List.mem_cons_self, BEq.symm front⟩
    · have behind : other ∈ store.pairs.map Prod.fst :=
        (List.eraseP_sublist.map Prod.fst).subset mem
      exact ⟨other, List.mem_cons_of_mem _ behind, BEq.rfl⟩
  · rcases List.mem_cons.mp mem with rfl | mem
    · exact ⟨_, List.mem_cons_self, front⟩
    · obtain ⟨pair, there, rfl⟩ := List.mem_map.mp mem
      rw [← (store.find?_append_others_perm key).mem_iff, List.mem_append] at there
      rcases there with found | behind
      · -- the pair with the key gives its key to the one in front
        have mine := (others_of_find? (Option.mem_toList.mp found)).1
        exact ⟨_, List.mem_cons_self, BEq.trans front (BEq.symm mine)⟩
      · exact ⟨_, List.mem_cons_of_mem _ (List.mem_map_of_mem behind), BEq.rfl⟩

/-- Another key is added. If a pair leaves for it, the store is full from then on; a full store
stays full, since a pair comes in for the one that leaves, or for the one with the same key. -/
theorem FilledBy.add (filled : store.FilledBy keys) (sound : store.Sound) (key : κ) (value : ν) :
    (store.apply (.add key value)).store.FilledBy (keys ++ [key]) := by
  obtain ⟨pairs, maxEntries, -⟩ := sound.apply_eq (.add key value)
  obtain ⟨fewer, more⟩ := store.arranged_coveredBy key value
  have last : keys ++ [key] ⊆ key :: keys := by simp
  have first : key :: keys ⊆ keys ++ [key] := by simp
  have added : CoveredBy ((store.arranged (.add key value)).map Prod.fst) (keys ++ [key]) :=
    fewer.trans ((filled.added.cons key).trans (.of_subset first))
  by_cases tooMany : store.Exceeds (store.arranged (.add key value)).length
  · rw [kept, if_pos tooMany] at pairs
    refine ⟨?_, .inr ?_⟩
    · rw [pairs]
      exact (CoveredBy.of_subset (((List.dropLast_sublist _).map _).subset)).trans added
    · rw [pairs, Exceeds, maxEntries, List.length_dropLast]
      have above := tooMany.2
      exact ⟨tooMany.1, by omega⟩
  · rw [kept, if_neg tooMany] at pairs
    refine ⟨pairs ▸ added, ?_⟩
    rw [pairs, Exceeds, maxEntries]
    rcases filled.held with all | full
    · exact .inl ((CoveredBy.of_subset last).trans ((all.cons key).trans more))
    · -- a full store has room for the pair only if it takes the place of one with its key
      have once : (store.find? key).toList.length ≤ 1 := Option.length_toList_le
      have rest := store.length_others key
      rw [Exceeds] at full tooMany
      rw [arranged, List.length_cons] at tooMany ⊢
      exact .inr ⟨full.1, by omega⟩

/-- By induction on the pairs that are added, each with its key behind those before it. -/
theorem FilledBy.after_additions (filled : store.FilledBy keys) (sound : store.Sound)
    (entries : List (κ × ν)) :
    (store.after (additions entries)).FilledBy (keys ++ entries.map Prod.fst) := by
  induction entries generalizing store keys with
  | nil => simpa [additions] using filled
  | cons entry entries ih =>
    obtain ⟨key, value⟩ := entry
    have further := ih (filled.add sound key value) (sound.apply _)
    rwa [List.append_assoc] at further

/-- How many pairs are held at the end can be told from the keys alone. -/
theorem length_after_additions (maxEntries : Nat) (entries : List (κ × ν)) :
    ((empty maxEntries).after (additions entries)).pairs.length =
      fill maxEntries (entries.map Prod.fst) := by
  have sound := sound_empty (κ := κ) (ν := ν) maxEntries
  rw [((filledBy_empty maxEntries).after_additions sound entries).length_eq (sound.after _),
    maxEntries_after sound]
  rfl

end PairStore

/-! ## Caches -/

variable [Hashable κ]

namespace Cache

variable [EquivBEq κ] [LawfulHashable κ] {store : PairStore κ ν} {cache : Cache κ ν}

/-- Pairs that are added at once are added one after the other. -/
theorem Mirrors.addAll (mirrors : Mirrors store cache) (entries : List (κ × ν)) :
    (cache.addAll entries).answer = .ok () ∧
      Mirrors (store.after (additions entries)) (cache.addAll entries).state := by
  induction entries generalizing store cache with
  | nil => exact ⟨rfl, mirrors⟩
  | cons entry entries ih =>
    obtain ⟨key, value⟩ := entry
    have agrees := mirrors.add key value
    obtain ⟨_, added, -⟩ := agrees.answered
    simp only [Cache.addAll, added]
    exact ih agrees.mirrors

/-- The pair that leaves next is the last one. -/
theorem Mirrors.removeOldest_answer (mirrors : Mirrors store cache) :
    cache.removeOldest.answer = .ok store.pairs.getLast? := by
  obtain ⟨oldest, removed, same⟩ := mirrors.removeOldest.answered
  rw [removed, CacheAnswer.entry.inj same]

/-- **Pairs that are added to a new cache are held as far as there is room.** -/
theorem addAll_empty (maxEntries : Nat) (entries : List (κ × ν)) :
    let added := (empty maxEntries : Cache κ ν).addAll entries
    added.answer = .ok () ∧
      added.state.size = PairStore.fill maxEntries (entries.map Prod.fst) ∧
      ∃ pairs, added.state.toList = .ok pairs ∧
        added.state.removeOldest.answer = .ok pairs.getLast? := by
  intro added
  obtain ⟨answer, mirrors⟩ := (mirrors_empty maxEntries).addAll entries
  obtain ⟨size, -, pairs⟩ := mirrors.sight
  exact ⟨answer, size.trans (PairStore.length_after_additions maxEntries entries), _, pairs,
    mirrors.removeOldest_answer⟩

end Cache

namespace SharedCache

/-- Pairs are added under the lock as they are to the cache itself. -/
theorem addAll_ofCache (cache : Cache κ ν) (entries : List (κ × ν)) :
    (ofCache cache).addAll entries = (ofCache cache).locked (·.addAll entries) := by
  induction entries generalizing cache with
  | nil => rfl
  | cons entry entries ih =>
    obtain ⟨key, value⟩ := entry
    cases answer : (cache.add key value).answer with
    | error fault =>
      simp only [addAll, add, locked, ofCache, Cache.addAll, answer, Bool.false_eq_true, if_false]
    | ok =>
      have later := ih (cache.add key value).state
      simp only [addAll, add, locked, ofCache, Cache.addAll, answer, Bool.false_eq_true, if_false]
        at later ⊢
      rw [later]

/-- A shared cache takes in what the cache itself takes in. -/
theorem addAll_of_answered {cache : Cache κ ν} {entries : List (κ × ν)}
    (answered : (cache.addAll entries).answer = .ok ()) :
    ((ofCache cache).addAll entries).answer = .ok () ∧
      ((ofCache cache).addAll entries).state = ofCache (cache.addAll entries).state := by
  rw [addAll_ofCache]
  simp only [locked, ofCache, Bool.false_eq_true, if_false, answered, and_self]

end SharedCache

end PeerCache
