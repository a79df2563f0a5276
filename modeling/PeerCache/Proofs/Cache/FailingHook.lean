import PeerCache.Proofs.Cache.Course
import PeerCache.Proofs.Cache.Oblivious

/-!
# A hook that fails

A hook may fail in any of its calls. Then the operation that called it ends in a fault, and the
cache is used on. Next to such a run stand two others: the same operations without any hook
(`CacheOp.silenced`), and with hooks that do not fail (`CacheOp.calmed`). The three caches differ in
their hooks alone (`Abreast`), since no operation feels its hook. So the pairs are in all three the
same after every step, and the fault is the only trace that a failing hook leaves
(`failure_contained`).
-/

namespace PeerCache

variable {κ ν : Type}

/-- The operation with no hook where it installs one. -/
def CacheOp.silenced : CacheOp κ ν → CacheOp κ ν
  | .setHook _ _ => .clearHook
  | op => op

/-- The operation with a hook that does not fail where it installs one. -/
def CacheOp.calmed : CacheOp κ ν → CacheOp κ ν
  | .setHook tag _ => .setHook tag fun _ _ _ => none
  | op => op

theorem CacheOp.KeepsHook.silenced_eq {op : CacheOp κ ν} (keeps : op.KeepsHook) :
    op.silenced = op := by
  cases op with
  | setHook => exact keeps.elim
  | _ => rfl

/-- Where no hook is installed, none is that could fail. -/
theorem CacheOp.calm_silenced (op : CacheOp κ ν) : op.silenced.Calm := by
  cases op <;> exact trivial

theorem CacheOp.KeepsHook.calmed_eq {op : CacheOp κ ν} (keeps : op.KeepsHook) : op.calmed = op := by
  cases op with
  | setHook => exact keeps.elim
  | _ => rfl

namespace Cache

variable [BEq κ] [Hashable κ]

/-- What a failing hook may do in one operation on a cache, next to the same operation on a cache
without a hook (`silent`) and on one with a hook that does not fail (`calm`). -/
structure Contained (op : CacheOp κ ν) (cache silent calm : Cache κ ν) : Prop where
  /-- The pairs and their order are those of the silent cache. -/
  pairs : ∃ pairs, (cache.apply op).state.toList = .ok pairs ∧
    (silent.apply op.silenced).state.toList = .ok pairs
  size : (cache.apply op).state.size = (silent.apply op.silenced).state.size
  /-- The operation ends in a fault just when a call of the hook fails, and in the fault of that
  call. -/
  faults : ∀ fault, (cache.apply op).answer = .error fault ↔
    ∃ hook text, cache.hook = some hook ∧ fault = .raised text ∧
      ∃ report ∈ (cache.apply op).reports, report.failure? hook.reaction = some text
  /-- Else it is answered as on the silent cache. -/
  answers : ∀ answer, (cache.apply op).answer = .ok answer →
    (silent.apply op.silenced).answer = .ok answer
  /-- What the hook is told of was held before, and is held no longer. -/
  left : ∀ report ∈ (cache.apply op).reports,
    (∃ pairs, cache.toList = .ok pairs ∧ report.pair ∈ pairs) ∧
      (cache.apply op).state.contains report.key = false ∧
      ∃ pairs, (cache.apply op).state.toList = .ok pairs ∧
        ∀ pair ∈ pairs, (pair.1 == report.key) = false
  /-- What is added is held. -/
  added : ∀ key value, op = .add key value →
    ∃ held rest, (cache.apply op).state.toList = .ok ((held, value) :: rest) ∧ (held == key) = true
  /-- The hook is told of the first of those pairs that the calm one is told of. -/
  told : (cache.apply op).reports.map Report.uncounted <+:
    (calm.apply op.calmed).reports.map Report.uncounted
  /-- It is told of all of them unless it fails while the cache is emptied. -/
  allTold : (cache.apply op).reports.map Report.uncounted =
      (calm.apply op.calmed).reports.map Report.uncounted ∨
    op = .clear ∧ ∃ fault, (cache.apply op).answer = .error fault
  /-- After a call that fails it is not called again. -/
  last : ∀ hook, cache.hook = some hook → ∀ report ∈ (cache.apply op).reports.dropLast,
    report.failure? hook.reaction = none
  /-- The hook stays where it is, and has been called as often as it has been told. -/
  hook : op.KeepsHook → (cache.apply op).state.hook =
    cache.hook.map (·.called (cache.apply op).reports.length)

/-- Three caches differ in their hooks alone: the second one has none, and that of the third one
does not fail. -/
structure Abreast (cache silent calm : Cache κ ν) : Prop where
  silent_eq : silent = cache.withHook none
  calm_eq : ∃ hook, calm = cache.withHook hook ∧ hook.map Hook.tag = cache.hook.map Hook.tag ∧
    ∀ h ∈ hook, h.Calm
  mirrors : ∃ store : PairStore κ ν, store.Sound ∧ Mirrors store silent

section

variable {cache silent calm : Cache κ ν} {store : PairStore κ ν} {op : CacheOp κ ν}

/-- A cache and a store that mirror each other do so with any other hook that does not fail. -/
theorem Mirrors.withHook (mirrors : Mirrors store cache) {hook : Option (Hook κ ν)}
    (calm : ∀ h ∈ hook, h.Calm) :
    Mirrors { store with hook := hook.map Hook.standing } (cache.withHook hook) := by
  obtain ⟨cells, holds, pairs⟩ := mirrors.pairs
  exact ⟨⟨cells, ⟨holds.list, holds.index⟩, pairs⟩, mirrors.maxEntries, rfl, calm⟩

omit [Hashable κ] in
/-- What leaves a store does not depend on its hook. -/
theorem leaving_withHook (store : PairStore κ ν) (hook : Option (String × Nat))
    (op : CacheOp κ ν) : PairStore.leaving { store with hook } op = store.leaving op := by
  cases op <;> rfl

variable [EquivBEq κ] [LawfulHashable κ]

/-- **A cache tells its hook of what leaves the store of pairs**, whatever the hook is. -/
theorem Mirrors.tells (mirrors : Mirrors store (cache.withHook none)) (sound : store.Sound)
    (keeps : op.KeepsHook) :
    ∃ after, Mirrors (store.apply op).store (after.withHook none) ∧
      Tells (fun hook => (cache.withHook hook).apply op) after (store.leaving op)
        (.ok (store.apply op).answer) := by
  obtain ⟨after, gone, answer, tells⟩ := isOblivious_apply cache keeps
  -- what is answered shows in the absence of a hook
  have silent := mirrors.apply keeps.calm
  have state := tells.state none
  have answered := tells.answer none
  rw [notifyAll_withHook_none] at state answered
  have same : answer = .ok (store.apply op).answer := answered.symm.trans silent.answer
  -- and what leaves shows to a hook that does not fail
  have leaves : gone = store.leaving op := by
    let quiet : Hook κ ν := ⟨"", fun _ _ _ => none, 0⟩
    have quiet_calm : ∀ hook ∈ some quiet, hook.Calm := by
      rintro _ ⟨⟩
      exact fun _ _ _ => rfl
    have sound' : PairStore.Sound { store with hook := some quiet.standing } :=
      ⟨sound.distinct, sound.bounded⟩
    have told : tellings (some quiet.standing) gone =
        tellings (some quiet.standing) (store.leaving op) := by
      rw [← leaving_withHook store (some quiet.standing) op, ← (sound'.apply_eq op).2.2]
      refine Eq.trans ?_ ((mirrors.withHook quiet_calm).apply keeps.calm).reports
      refine Eq.trans ?_ (tells.reports (some quiet)).symm
      rw [notifyAll_eq_told quiet_calm]
      rfl
    rw [← map_pair_tellings quiet.standing gone, told, map_pair_tellings]
  subst leaves same
  exact ⟨after, (congrArg (Mirrors _) state).mp silent.mirrors, tells⟩

/-- The three stay abreast: an operation that keeps the hook leaves the same cache but for the count
of the hook, and one that exchanges it touches nothing else. -/
theorem Abreast.apply (abreast : Abreast cache silent calm) (op : CacheOp κ ν) :
    Abreast (cache.apply op).state (silent.apply op.silenced).state
      (calm.apply op.calmed).state := by
  obtain ⟨rfl, ⟨hook, rfl, tags, calm⟩, store, sound, mirrors⟩ := abreast
  rcases op.keepsHook_or with keeps | ⟨tag, reaction, rfl⟩ | rfl
  · obtain ⟨after, mirrors', tells⟩ := mirrors.tells sound keeps
    have own : (cache.apply op).state = after.withHook _ := tells.state_eq cache.hook
    have silent : ((cache.withHook none).apply op).state = after.withHook none :=
      tells.state_eq none
    rw [keeps.silenced_eq, keeps.calmed_eq, own, silent]
    refine ⟨rfl, ⟨_, tells.state_eq hook, ?_, ?_⟩, _, sound.apply op, mirrors'⟩
    · rw [withHook_hook, Option.map_map, Option.map_map]
      exact tags
    · intro h mem
      obtain ⟨former, there, rfl⟩ := Option.map_eq_some_iff.mp mem
      exact calm former there
  · refine ⟨rfl, ⟨some ⟨tag, fun _ _ _ => none, 0⟩, rfl, rfl, ?_⟩, store, sound, mirrors⟩
    rintro _ ⟨⟩
    exact fun _ _ _ => rfl
  · exact ⟨rfl, ⟨none, rfl, rfl, nofun⟩, store, sound, mirrors⟩

/-- What a step leaves on a cache that mirrors a store, whatever its hook is. -/
theorem Mirrors.of_withHook (mirrors : Mirrors store (cache.withHook none)) :
    cache.toList = .ok store.pairs ∧ cache.size = store.pairs.length ∧
      ∀ key, cache.contains key = (store.find? key).isSome :=
  ⟨mirrors.sight.2.2, mirrors.sight.1, fun key => (mirrors.finds key).2.2.1⟩

/-- A step that keeps the hook is contained. -/
theorem Abreast.contained_of_keeps (abreast : Abreast cache silent calm) (keeps : op.KeepsHook) :
    Contained op cache silent calm := by
  obtain ⟨rfl, ⟨hook, rfl, tags, calm⟩, store, sound, mirrors⟩ := abreast
  obtain ⟨after, mirrors', tells⟩ := mirrors.tells sound keeps
  have own : (cache.apply op).state = after.withHook _ := tells.state_eq cache.hook
  have silent : ((cache.withHook none).apply op).state = after.withHook none := tells.state_eq none
  obtain ⟨pairs, -, contains⟩ := mirrors.of_withHook
  obtain ⟨pairs', size', contains'⟩ := mirrors'.of_withHook
  constructor
  case pairs =>
    rw [keeps.silenced_eq, own, silent]
    exact ⟨_, pairs', pairs'⟩
  case size =>
    rw [keeps.silenced_eq, own, silent]
    rfl
  case faults => exact tells.answer_eq_error_iff cache.hook
  case answers =>
    rw [keeps.silenced_eq]
    exact fun answer ended => tells.answer_eq_of_ok cache.hook ended
  case left =>
    intro report told
    obtain ⟨held, gone⟩ := sound.of_mem_leaving op (tells.pair_mem cache.hook told)
    rw [own, withHook_contains, withHook_toList, contains']
    refine ⟨⟨_, pairs, List.mem_of_find?_eq_some held⟩, congrArg Option.isSome gone, _, pairs',
      fun pair mem => ?_⟩
    exact Bool.not_eq_true _ ▸ List.find?_eq_none.mp gone pair mem
  case added =>
    rintro key value rfl
    obtain ⟨rest, kept⟩ := store.exists_kept_add key value
    rw [← (sound.apply_eq _).1] at kept
    exact ⟨_, rest, own ▸ kept ▸ pairs', store.heldKey_beq key⟩
  case told =>
    rw [keeps.calmed_eq]
    exact tells.uncounted_isPrefix tags calm
  case allTold =>
    rw [keeps.calmed_eq]
    rcases store.length_leaving_le op with short | rfl
    · exact .inl (tells.uncounted_eq tags calm (.inl short))
    · cases ended : (cache.apply .clear).answer with
      | ok answer => exact .inl (tells.uncounted_eq tags calm (.inr ⟨answer, ended⟩))
      | error fault => exact .inr ⟨rfl, fault, rfl⟩
  case last => exact fun h installed report told => tells.failure_of_mem_dropLast installed told
  case hook =>
    intro _
    rw [own]
    rfl

/-- A step that exchanges the hook is contained: nobody is told of anything. -/
theorem Abreast.contained_of_exchanges (abreast : Abreast cache silent calm)
    (exchanges : ¬ op.KeepsHook) (hook : Option (Hook κ ν))
    (own : cache.apply op = (cache.withHook hook).finish .unit)
    (silenced : op.silenced = .clearHook)
    (quiet : (calm.apply op.calmed).reports = []) : Contained op cache silent calm := by
  obtain ⟨rfl, -, store, -, mirrors⟩ := abreast
  obtain ⟨pairs, -, -⟩ := mirrors.of_withHook
  constructor
  case pairs =>
    rw [own, silenced]
    exact ⟨_, pairs, pairs⟩
  case size =>
    rw [own, silenced]
    rfl
  case faults =>
    rw [own]
    exact fun fault => iff_of_false nofun fun ⟨_, _, _, _, _, told, _⟩ => nomatch told
  case answers =>
    rw [own, silenced]
    exact fun answer ended => ended
  case left => rw [own]; exact nofun
  case added =>
    rintro key value rfl
    exact absurd trivial exchanges
  case told => rw [own, quiet]; exact List.prefix_rfl
  case allTold => rw [own, quiet]; exact .inl rfl
  case last => rw [own]; exact nofun
  case hook => exact fun keeps => absurd keeps exchanges

/-- **One operation with a hook that may fail is contained.** -/
theorem Abreast.contained (abreast : Abreast cache silent calm) (op : CacheOp κ ν) :
    Contained op cache silent calm := by
  rcases op.keepsHook_or with keeps | ⟨tag, reaction, rfl⟩ | rfl
  · exact abreast.contained_of_keeps keeps
  · exact abreast.contained_of_exchanges id (some ⟨tag, reaction, 0⟩) rfl rfl rfl
  · exact abreast.contained_of_exchanges id none rfl rfl rfl

theorem Abreast.after (abreast : Abreast cache silent calm) (ops : List (CacheOp κ ν)) :
    Abreast (cache.after ops) (silent.after (ops.map CacheOp.silenced))
      (calm.after (ops.map CacheOp.calmed)) := by
  induction ops generalizing cache silent calm with
  | nil => exact abreast
  | cons op ops ih => exact ih (abreast.apply op)

/-- Three new caches are abreast: none of them has a hook. -/
theorem abreast_empty (maxEntries : Nat) :
    Abreast (empty maxEntries : Cache κ ν) (empty maxEntries) (empty maxEntries) :=
  ⟨rfl, ⟨none, rfl, rfl, nofun⟩, _, PairStore.sound_empty maxEntries, mirrors_empty maxEntries⟩

/-- What is held after a run is what a store of pairs holds after the same run without hooks. -/
theorem mirrors_after_silenced (maxEntries : Nat) (ops : List (CacheOp κ ν)) :
    Mirrors ((PairStore.empty maxEntries).after (ops.map CacheOp.silenced))
      (((empty maxEntries).after ops).withHook none) := by
  rw [← ((abreast_empty maxEntries).after ops).silent_eq]
  refine mirrors_after maxEntries fun op mem => ?_
  obtain ⟨op, -, rfl⟩ := List.mem_map.mp mem
  exact op.calm_silenced

/-- No operation changes the bound, whatever the hooks do. -/
theorem maxEntries_after (maxEntries : Nat) (ops : List (CacheOp κ ν)) :
    ((empty maxEntries : Cache κ ν).after ops).maxEntries = maxEntries :=
  (mirrors_after_silenced maxEntries ops).maxEntries.symm.trans
    (PairStore.maxEntries_after (PairStore.sound_empty maxEntries) _)

/-- **A hook that fails leaves no trace in the cache.** A new cache of any bound is used in any way,
with hooks that fail in any of their calls, and is used on after every fault. Whatever is done next,
the pairs and their order are those of a cache that has been used alike without hooks. The operation
ends in a fault just when a call of the hook fails; what the hook is told of has left by then, and
what is added is held. The calls are those that a hook would get that does not fail, except that
there are no more of them after one that fails while the cache is emptied. -/
theorem failure_contained (maxEntries : Nat) (ops : List (CacheOp κ ν)) (op : CacheOp κ ν) :
    Contained op ((empty maxEntries).after ops)
      ((empty maxEntries).after (ops.map CacheOp.silenced))
      ((empty maxEntries).after (ops.map CacheOp.calmed)) :=
  ((abreast_empty maxEntries).after ops).contained op

end

/-- A cache is empty after it has been emptied, although its hook has failed in the first call. -/
theorem failure_contained_emptied :
    ((empty 0 : Cache Nat String).after
      [.setHook "first" fun _ _ _ => some "no", .add 1 "a", .add 2 "b", .clear]).toList =
        .ok [] := by
  let ops : List (CacheOp Nat String) :=
    [.setHook "first" fun _ _ _ => some "no", .add 1 "a", .add 2 "b"]
  have calm : ∀ op ∈ ([.clearHook, .add 1 "a", .add 2 "b", .clear] : List (CacheOp Nat String)),
      op.Calm := by simp [CacheOp.Calm]
  obtain ⟨pairs, own, silent⟩ := (failure_contained 0 ops .clear).pairs
  exact own.trans (silent.symm.trans (mirrors_after 0 calm).sight.2.2)

end Cache

end PeerCache
