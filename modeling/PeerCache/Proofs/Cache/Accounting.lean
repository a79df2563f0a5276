import Mathlib.Data.Nat.Init
import PeerCache.Proofs.Cache.Course
import PeerCache.Proofs.Cache.Telling

/-!
# Where the entries of a cache go

An entry comes into being when a key is added that is not held (`CacheRun.EntersAt`). It is cached
until it leaves, and then the hook that is installed at that moment, if there is one, is told of it
once (`CacheRun.Meets`). `Stay` follows an entry from step to step as long as it is cached, with the
value it has: either it goes on or it leaves (`Stay.stays`, `Stay.leaves`), and whatever is held is
in such a stay (`exists_stay`). From this the books balance (`eviction_accounting`): every entry has
exactly one fate at any time, and everything that is told is the fate of exactly one entry.
-/

namespace PeerCache

variable {κ ν : Type}

/-! ## Entries of a run -/

/-- A run of operations on a new cache. -/
structure CacheRun (κ ν : Type) where
  maxEntries : Nat
  ops : List (CacheOp κ ν)

/-- Where an entry of a cache is: cached, or gone since some step in which a hook was told of it or
no hook was there. -/
inductive Fate (κ ν : Type) where
  | cached
  | told (step : Nat) (report : Report κ ν)
  | untold (step : Nat)

namespace CacheRun

variable [BEq κ] [Hashable κ] (run : CacheRun κ ν)

/-- No hook of the run fails. -/
def Calm : Prop :=
  ∀ op ∈ run.ops, op.Calm

/-- The cache when some steps are done. -/
def before (n : Nat) : Cache κ ν :=
  (Cache.empty run.maxEntries).after (run.ops.take n)

/-- The calls of the hook in a step. -/
def reportsAt (n : Nat) : List (Report κ ν) :=
  match run.ops[n]? with
  | some op => ((run.before n).apply op).reports
  | none => []

/-- The calls of the hook in a step that are about a key. -/
def toldOf (n : Nat) (key : κ) : List (Report κ ν) :=
  (run.reportsAt n).filter (·.key == key)

/-- The value that was the last to be added for a key when some steps are done. -/
def lastAdded? (n : Nat) (key : κ) : Option ν :=
  ((run.ops.take n).filterMap (·.addedFor? key)).getLast?

/-- A step creates an entry: it adds a key that is not held. -/
def EntersAt (n : Nat) (key : κ) : Prop :=
  ∃ value, run.ops[n]? = some (.add key value) ∧ (run.before n).contains key = false

/-- The cache holds a pair when some steps are done. -/
def Caches (n : Nat) (pair : κ × ν) : Prop :=
  ∃ pairs, (run.before n).toList = .ok pairs ∧ pair ∈ pairs

/-- The key of an entry that entered in step `n` is held after every step up to `m`, and nobody has
been told of it. -/
structure HeldUntil (n m : Nat) (key : κ) : Prop where
  held : ∀ l, n < l → l ≤ m → (run.before l).contains key = true
  quiet : ∀ l, n ≤ l → l < m → run.toldOf l key = []

/-- An entry that entered in step `n` leaves in step `l`. -/
structure LeavesAt (n l : Nat) (key : κ) : Prop where
  lt : n < l
  lasted : run.HeldUntil n l key
  gone : (run.before (l + 1)).contains key = false

/-- What has become of an entry that entered in step `n` when `m` steps are done. -/
def Meets (n m : Nat) (key : κ) : Fate κ ν → Prop
  | .cached =>
    run.HeldUntil n m key ∧ ∃ value, run.lastAdded? m key = some value ∧ run.Caches m (key, value)
  | .told l report =>
    l < m ∧ run.LeavesAt n l key ∧ run.toldOf l key = [report] ∧ report.key = key ∧
      run.lastAdded? l key = some report.value ∧ run.Caches l (key, report.value) ∧
      ∃ hook, (run.before l).hook = some hook ∧ hook.Awaits report
  | .untold l =>
    l < m ∧ run.LeavesAt n l key ∧ run.toldOf l key = [] ∧ (run.before l).hook = none

variable {run} {n m l : Nat} {op : CacheOp κ ν} {key : κ} {value : ν} {pair : κ × ν}
  {fate other : Fate κ ν} {report : Report κ ν}

/-- A key that is held before and after a step nobody has been told of is held for one more step. -/
theorem HeldUntil.succ (lasted : run.HeldUntil n m key)
    (held : (run.before (m + 1)).contains key = true) (quiet : run.toldOf m key = []) :
    run.HeldUntil n (m + 1) key := by
  refine ⟨fun l after le => ?_, fun l from' lt => ?_⟩
  · rcases Nat.le_succ_iff.mp le with le | rfl
    · exact lasted.held l after le
    · exact held
  · rcases Nat.lt_succ_iff_lt_or_eq.mp lt with lt | rfl
    · exact lasted.quiet l from' lt
    · exact quiet

/-- An entry that has left is not cached any more: the key was not held right after it left. -/
theorem LeavesAt.not_heldUntil (leaves : run.LeavesAt n l key) (lt : l < m) :
    ¬ run.HeldUntil n m key := by
  intro lasted
  have held := lasted.held (l + 1) (Nat.lt_succ_of_lt leaves.lt) lt
  rw [leaves.gone] at held
  cases held

/-- An entry leaves once. -/
theorem LeavesAt.eq (leaves : run.LeavesAt n l key) (leaves' : run.LeavesAt n m key) : l = m := by
  rcases Nat.lt_trichotomy l m with lt | same | lt
  · exact absurd leaves'.lasted (leaves.not_heldUntil lt)
  · exact same
  · exact absurd leaves.lasted (leaves'.not_heldUntil lt)

/-- Entries of one key that leave in one step have entered in one step. -/
theorem LeavesAt.entered_eq {n' : Nat} (leaves : run.LeavesAt n l key)
    (leaves' : run.LeavesAt n' l key) (enters : run.EntersAt n key)
    (enters' : run.EntersAt n' key) : n = n' := by
  have apart : ∀ {first second : Nat}, run.LeavesAt first l key → run.EntersAt second key →
      second < l → ¬ first < second := by
    intro first second leaves enters before after
    obtain ⟨_, -, absent⟩ := enters
    rw [leaves.lasted.held second after (Nat.le_of_lt before)] at absent
    cases absent
  exact Nat.le_antisymm (Nat.le_of_not_lt (apart leaves' enters leaves.lt))
    (Nat.le_of_not_lt (apart leaves enters' leaves'.lt))

/-- Nothing has two fates. -/
theorem Meets.eq (meets : run.Meets n m key fate) (meets' : run.Meets n m key other) :
    fate = other := by
  cases fate with
  | cached =>
    cases other with
    | cached => rfl
    | told => exact absurd meets.1 (meets'.2.1.not_heldUntil meets'.1)
    | untold => exact absurd meets.1 (meets'.2.1.not_heldUntil meets'.1)
  | told l report =>
    obtain ⟨lt, leaves, told, -⟩ := meets
    cases other with
    | cached => exact absurd meets'.1 (leaves.not_heldUntil lt)
    | told l' report' =>
      obtain ⟨-, leaves', told', -⟩ := meets'
      obtain rfl := leaves.eq leaves'
      rw [List.singleton_inj.mp (told.symm.trans told')]
    | untold l' =>
      obtain ⟨-, leaves', told', -⟩ := meets'
      obtain rfl := leaves.eq leaves'
      cases told.symm.trans told'
  | untold l =>
    obtain ⟨lt, leaves, told, -⟩ := meets
    cases other with
    | cached => exact absurd meets'.1 (leaves.not_heldUntil lt)
    | told l' report' =>
      obtain ⟨-, leaves', told', -⟩ := meets'
      obtain rfl := leaves.eq leaves'
      cases told.symm.trans told'
    | untold l' => rw [leaves.eq meets'.2.1]

/-- What has become of an entry that has left stays so. -/
theorem Meets.succ (meets : run.Meets n m key fate) (left : fate ≠ .cached) :
    run.Meets n (m + 1) key fate := by
  cases fate with
  | cached => exact absurd rfl left
  | told => exact ⟨Nat.lt_succ_of_lt meets.1, meets.2⟩
  | untold => exact ⟨Nat.lt_succ_of_lt meets.1, meets.2⟩

/-! ## The run on a store of pairs -/

/-- The store of pairs when some steps are done. -/
def storeBefore (run : CacheRun κ ν) (n : Nat) : PairStore κ ν :=
  (PairStore.empty run.maxEntries).after (run.ops.take n)

omit [BEq κ] [Hashable κ] in
theorem take_succ (found : run.ops[n]? = some op) :
    run.ops.take (n + 1) = run.ops.take n ++ [op] := by
  rw [List.take_add_one, found, Option.toList_some]

omit [Hashable κ] in
theorem storeBefore_succ (found : run.ops[n]? = some op) :
    run.storeBefore (n + 1) = ((run.storeBefore n).apply op).store := by
  rw [storeBefore, take_succ found, PairStore.after_concat]
  rfl

omit [Hashable κ] in
/-- A step that adds a value for the key sets the last one, and any other step leaves it. -/
theorem lastAdded?_succ (found : run.ops[n]? = some op) (key : κ) :
    run.lastAdded? (n + 1) key = (op.addedFor? key).or (run.lastAdded? n key) := by
  rw [lastAdded?, take_succ found, List.filterMap_append, List.getLast?_append, List.filterMap_cons]
  cases op.addedFor? key <;> rfl

omit [Hashable κ] in
/-- The store is sound at any time, so that a key finds the one pair that has it. -/
theorem sound_storeBefore [EquivBEq κ] (run : CacheRun κ ν) (n : Nat) : (run.storeBefore n).Sound :=
  PairStore.sound_after _ _

omit [Hashable κ] in
@[simp] theorem storeBefore_maxEntries [EquivBEq κ] (run : CacheRun κ ν) (n : Nat) :
    (run.storeBefore n).maxEntries = run.maxEntries :=
  PairStore.maxEntries_after (PairStore.sound_empty _) _

variable [EquivBEq κ] [LawfulHashable κ]

/-- As long as no hook fails, the cache mirrors the store at any time. The books are kept on the
store, and this carries them over. -/
theorem Calm.mirrors (calm : run.Calm) (n : Nat) :
    Cache.Mirrors (run.storeBefore n) (run.before n) :=
  Cache.mirrors_after _ fun op mem => calm op (List.mem_of_mem_take mem)

/-- A key is in the cache just when the store finds a pair. -/
theorem Calm.contains_before (calm : run.Calm) (n : Nat) (key : κ) :
    (run.before n).contains key = ((run.storeBefore n).find? key).isSome :=
  ((calm.mirrors n).finds key).2.2.1

/-- The hook is told in a step of what leaves the store in it. -/
theorem Calm.reportsAt_eq (calm : run.Calm) (found : run.ops[n]? = some op) :
    run.reportsAt n = tellings (run.storeBefore n).hook ((run.storeBefore n).leaving op) := by
  rw [reportsAt, found]
  exact ((calm.mirrors n).apply (calm op (List.mem_of_getElem? found))).reports.trans
    ((sound_storeBefore run n).apply_eq op).2.2

/-- What is told in a step is about a pair that leaves then, and the hook that is installed then has
not counted the call yet. -/
theorem Calm.mem_reportsAt (calm : run.Calm) (done : run.ops[n]? = some op)
    (told : report ∈ run.reportsAt n) :
    report.pair ∈ (run.storeBefore n).leaving op ∧
      ∃ hook, (run.before n).hook = some hook ∧ hook.Awaits report := by
  rw [calm.reportsAt_eq done] at told
  obtain ⟨gone, standing, installed, awaits⟩ := mem_tellings told
  rw [(calm.mirrors n).hook] at installed
  obtain ⟨hook, there, rfl⟩ := Option.map_eq_some_iff.mp installed
  exact ⟨gone, hook, there, awaits⟩

/-! ## Stays -/

/-- An entry that entered in step `n` is still cached when `m` steps are done, with some value. -/
structure Stay (run : CacheRun κ ν) (n m : Nat) (key : κ) (value : ν) : Prop where
  lt : n < m
  enters : run.EntersAt n key
  lasted : run.HeldUntil n m key
  last : run.lastAdded? m key = some value
  found : (run.storeBefore m).find? key = some (key, value)

theorem Stay.caches (calm : run.Calm) (stay : run.Stay n m key value) :
    run.Caches m (key, value) :=
  ⟨_, (calm.mirrors m).sight.2.2, List.mem_of_find?_eq_some stay.found⟩

/-- If no pair with a key leaves in a step, nobody is told of the key. -/
theorem Calm.toldOf_of_nil (calm : run.Calm) (done : run.ops[n]? = some op)
    (none : ((run.storeBefore n).leaving op).filter (·.1 == key) = []) : run.toldOf n key = [] := by
  rw [toldOf, calm.reportsAt_eq done]
  exact filter_tellings_of_nil none

/-- An entry that enters is cached from then on. -/
theorem EntersAt.stay (calm : run.Calm) (enters : run.EntersAt n key) :
    ∃ value, run.Stay n (n + 1) key value := by
  obtain ⟨value, done, absent⟩ := id enters
  rw [calm.contains_before, Option.isSome_eq_false_iff, Option.isNone_iff_eq_none] at absent
  obtain ⟨found, none⟩ := (sound_storeBefore run n).find?_apply_of_none (.add key value) absent
  rw [← storeBefore_succ done, CacheOp.added?, Option.filter_some, if_pos BEq.rfl] at found
  refine ⟨value, Nat.lt_succ_self n, enters, ⟨fun l after le => ?_, fun l from' lt => ?_⟩, ?_,
    found⟩
  · obtain rfl : l = n + 1 := Nat.le_antisymm le after
    rw [calm.contains_before, found]
    rfl
  · obtain rfl : l = n := Nat.le_antisymm (Nat.lt_succ_iff.mp lt) from'
    exact calm.toldOf_of_nil done none
  · rw [lastAdded?_succ done, CacheOp.addedFor?_add, if_pos BEq.rfl, Option.some_or]

/-- A cached entry whose key is held after the next step is still cached then. -/
theorem Stay.stays (calm : run.Calm) (stay : run.Stay n m key value) (done : run.ops[m]? = some op)
    (later : (run.storeBefore (m + 1)).find? key = some pair) :
    run.Stay n (m + 1) key pair.2 ∧ pair.1 = key := by
  have held : (run.before (m + 1)).contains key = true := by
    rw [calm.contains_before, later]
    rfl
  have step := (sound_storeBefore run m).find?_apply_of_some op stay.found
  rw [← storeBefore_succ done, later] at step
  rcases step with ⟨same, none⟩ | ⟨gone, -⟩
  · obtain rfl := Option.some.inj same
    refine ⟨⟨Nat.lt_succ_of_lt stay.lt, stay.enters,
      stay.lasted.succ held (calm.toldOf_of_nil done none), ?_, later⟩, rfl⟩
    rw [lastAdded?_succ done, stay.last]
    cases op.addedFor? key <;> rfl
  · cases gone

/-- A cached entry whose key is no longer held after the next step has left, and the hook that was
there has been told of it. -/
theorem Stay.leaves (calm : run.Calm) (stay : run.Stay n m key value) (done : run.ops[m]? = some op)
    (later : (run.storeBefore (m + 1)).find? key = none) :
    (∃ report, run.Meets n (m + 1) key (.told m report)) ∨
      run.Meets n (m + 1) key (.untold m) := by
  have leavesAt : run.LeavesAt n m key := by
    refine ⟨stay.lt, stay.lasted, ?_⟩
    rw [calm.contains_before, later]
    rfl
  have step := (sound_storeBefore run m).find?_apply_of_some op stay.found
  rw [← storeBefore_succ done, later] at step
  rcases step with ⟨same, -⟩ | ⟨-, one, -⟩
  · cases same
  · rcases filter_tellings_of_singleton (run.storeBefore m).hook one with
      ⟨unhooked, none⟩ | ⟨report, told, about⟩
    · rw [← calm.reportsAt_eq done] at none
      rw [(calm.mirrors m).hook, Option.map_eq_none_iff] at unhooked
      exact .inr ⟨Nat.lt_succ_self m, leavesAt, none, unhooked⟩
    · rw [← calm.reportsAt_eq done] at told
      obtain ⟨mem, -⟩ := List.mem_filter.mp (told ▸ List.mem_singleton_self report)
      obtain ⟨rfl, rfl⟩ := Prod.mk.inj about
      exact .inl ⟨report, Nat.lt_succ_self m, leavesAt, told, rfl, stay.last,
        stay.caches calm, (calm.mem_reportsAt done mem).2⟩

/-- Whatever is held has entered and is still cached. -/
theorem Calm.exists_stay (calm : run.Calm) (le : m ≤ run.ops.length)
    (found : (run.storeBefore m).find? key = some pair) : ∃ n, run.Stay n m pair.1 pair.2 := by
  induction m generalizing key pair with
  | zero => cases found
  | succ m ih =>
    have done := List.getElem?_eq_getElem (Nat.lt_of_succ_le le)
    cases former : (run.storeBefore m).find? key with
    | some old =>
      obtain ⟨n, stay⟩ := ih (Nat.le_of_succ_le le) former
      have mine := (PairStore.others_of_find? former).1
      obtain ⟨stay', same⟩ := stay.stays calm done ((PairStore.find?_congr mine).trans found)
      exact ⟨n, same ▸ stay'⟩
    | none =>
      -- then it has just been added
      have step := ((sound_storeBefore run m).find?_apply_of_none run.ops[m] former).1
      rw [← storeBefore_succ done, found] at step
      obtain ⟨added, mine⟩ := Option.filter_eq_some_iff.mp step.symm
      rw [← PairStore.find?_congr mine] at former found
      have enters : run.EntersAt m pair.1 := by
        refine ⟨pair.2, done.trans (congrArg some (CacheOp.eq_add_of_added? added)), ?_⟩
        rw [calm.contains_before, former]
        rfl
      obtain ⟨value, stay⟩ := enters.stay calm
      have same := stay.found.symm.trans found
      obtain rfl : value = pair.2 := congrArg Prod.snd (Option.some.inj same)
      exact ⟨m, stay⟩

/-! ## The books -/

/-- An entry is cached in a stay, or it has left. -/
theorem EntersAt.stay_or_left (calm : run.Calm) (enters : run.EntersAt n key) (lt : n < m)
    (le : m ≤ run.ops.length) :
    (∃ value, run.Stay n m key value) ∨ ∃ fate, fate ≠ .cached ∧ run.Meets n m key fate := by
  induction m, lt using Nat.le_induction with
  | base => exact .inl (enters.stay calm)
  | succ m lt ih =>
    have done := List.getElem?_eq_getElem (Nat.lt_of_succ_le le)
    rcases ih (Nat.le_of_succ_le le) with ⟨value, stay⟩ | ⟨fate, left, meets⟩
    · cases later : (run.storeBefore (m + 1)).find? key with
      | some pair => exact .inl ⟨_, (stay.stays calm done later).1⟩
      | none =>
        rcases stay.leaves calm done later with ⟨report, meets⟩ | meets
        · exact .inr ⟨.told m report, nofun, meets⟩
        · exact .inr ⟨.untold m, nofun, meets⟩
    · exact .inr ⟨fate, left, meets.succ left⟩

/-- **An entry has exactly one fate at any time.** It has one, since it is in a stay until it
leaves, and it has no other (`Meets.eq`). -/
theorem EntersAt.existsUnique_fate (calm : run.Calm) (enters : run.EntersAt n key) (lt : n < m)
    (le : m ≤ run.ops.length) : ∃! fate, run.Meets n m key fate := by
  rcases enters.stay_or_left calm lt le with ⟨value, stay⟩ | ⟨fate, -, meets⟩
  · have meets : run.Meets n m key .cached := ⟨stay.lasted, value, stay.last, stay.caches calm⟩
    exact ⟨.cached, meets, fun other meets' => meets'.eq meets⟩
  · exact ⟨fate, meets, fun other meets' => meets'.eq meets⟩

/-- Whatever is told is about one entry that leaves then. -/
theorem Calm.existsUnique_entry (calm : run.Calm) (told : report ∈ run.reportsAt l) :
    ∃! n, run.EntersAt n report.key ∧ run.Meets n (l + 1) report.key (.told l report) := by
  obtain ⟨op, done⟩ : ∃ op, run.ops[l]? = some op := by
    rw [reportsAt] at told
    split at told
    · exact ⟨_, ‹_›⟩
    · cases told
  obtain ⟨found, gone⟩ :=
    (sound_storeBefore run l).of_mem_leaving op (calm.mem_reportsAt done told).1
  have le := Nat.le_of_lt (List.getElem?_eq_some_iff.mp done).1
  obtain ⟨n, stay⟩ : ∃ n, run.Stay n l report.key report.value := calm.exists_stay le found
  have mine : report ∈ run.toldOf l report.key := List.mem_filter.mpr ⟨told, BEq.rfl⟩
  rw [← storeBefore_succ done] at gone
  rcases stay.leaves calm done gone with ⟨report', meets⟩ | meets
  · obtain ⟨-, leaves, only, -⟩ := id meets
    rw [only, List.mem_singleton] at mine
    obtain rfl := mine
    exact ⟨n, ⟨stay.enters, meets⟩, fun n' ⟨enters', meets'⟩ =>
      meets'.2.1.entered_eq leaves enters' stay.enters⟩
  · rw [meets.2.2.1] at mine
    cases mine

/-- When something leaves in an addition, the cache was full. -/
theorem Calm.full_of_leaves (calm : run.Calm) (done : run.ops[l]? = some (.add key value))
    {gone : κ} (held : (run.before l).contains gone = true)
    (left : (run.before (l + 1)).contains gone = false) :
    run.maxEntries ≠ 0 ∧ (run.before l).size = run.maxEntries := by
  have sound := sound_storeBefore run l
  rw [calm.contains_before, Option.isSome_iff_exists] at held
  obtain ⟨pair, found⟩ := held
  rw [calm.contains_before, storeBefore_succ done] at left
  rcases sound.find?_apply_of_some (.add key value) found with ⟨later, -⟩ | ⟨-, one, -⟩
  · rw [later] at left
    cases left
  · have full := sound.full_of_leaving (List.ne_nil_of_mem
      (List.mem_of_mem_filter (one ▸ List.mem_singleton_self pair)))
    rw [storeBefore_maxEntries] at full
    rw [(calm.mirrors l).sight.1]
    exact full

/-- **The books of a cache balance.** A new cache of any bound is used in any way, with hooks that
do not fail, put in and taken away at any time.

- An entry that a step creates has at any later time exactly one fate. It is cached, with the value
  that was the last to be added for it; or it has left in some step, and the hook that was installed
  then has been told of it in one call, with its key and with that value; or it has left and no hook
  was there.
- Every call of a hook is about exactly one entry, which leaves in that step.
- An entry leaves in an addition only if the cache has a bound and was full.
- No more is ever held than the bound allows. -/
theorem eviction_accounting (run : CacheRun κ ν) (calm : run.Calm) :
    (∀ n key, run.EntersAt n key → ∀ m, n < m → m ≤ run.ops.length →
      ∃! fate, run.Meets n m key fate) ∧
    (∀ l report, report ∈ run.reportsAt l →
      ∃! n, run.EntersAt n report.key ∧ run.Meets n (l + 1) report.key (.told l report)) ∧
    (∀ l key value gone, run.ops[l]? = some (.add key value) →
      (run.before l).contains gone = true → (run.before (l + 1)).contains gone = false →
      run.maxEntries ≠ 0 ∧ (run.before l).size = run.maxEntries) ∧
    ∀ m, run.maxEntries ≠ 0 → (run.before m).size ≤ run.maxEntries := by
  refine ⟨fun n key enters m lt le => enters.existsUnique_fate calm lt le,
    fun l report told => calm.existsUnique_entry told,
    fun l key value gone done held left => calm.full_of_leaves done held left, fun m bound => ?_⟩
  have fits := (sound_storeBefore run m).bounded
  rw [PairStore.Exceeds, storeBefore_maxEntries] at fits
  rw [(calm.mirrors m).sight.1]
  exact Nat.le_of_not_lt fun tooMany => fits ⟨bound, tooMany⟩

/-- A value that is overwritten is never told of: the entry that is pushed out has its second
one. -/
theorem eviction_accounting_overwritten :
    let run : CacheRun Nat String :=
      ⟨1, [.setHook "old" fun _ _ _ => none, .add 1 "a", .add 1 "b", .add 2 "c"]⟩
    (∃! fate, run.Meets 1 4 1 fate) ∧
      ∃! n, run.EntersAt n 1 ∧ run.Meets n 4 1 (.told 3 ⟨"old", 1, 1, "b"⟩) := by
  intro run
  have calm : run.Calm := by simp [run, Calm, CacheOp.Calm]
  have enters : run.EntersAt 1 1 := ⟨"a", rfl, calm.contains_before 1 1⟩
  have told : ⟨"old", 1, 1, "b"⟩ ∈ run.reportsAt 3 := by
    rw [calm.reportsAt_eq rfl]
    exact List.mem_singleton_self _
  obtain ⟨fates, entries, -⟩ := eviction_accounting run calm
  exact ⟨fates 1 1 enters 4 (by decide) (by decide), entries 3 _ told⟩

end CacheRun

end PeerCache
