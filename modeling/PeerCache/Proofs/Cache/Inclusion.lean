import Mathlib.Data.List.Forall2
import PeerCache.Proofs.Cache.Course

/-!
# A larger cache holds what a smaller one holds

Two caches that are used alike come apart: one of them still has what the other had to give up, so
a read moves a pair to the front in one of them only. `Nested` is what holds all the same. The pairs
of the smaller store are among those of the larger one, in the same order, and the larger one has
at least as much room left (`Nested.slack`), so it gives up a pair only when the smaller one does,
and then both give up their last one. Operations keep it (`Nested.apply`).

So whatever a smaller cache finds, a larger one finds (`larger_includes_smaller`).
-/

namespace PeerCache

variable {κ ν : Type} [BEq κ] {one two : κ × ν} {key : κ}

/-- Two pairs hold the same value for the same key. -/
def SameEntry (one two : κ × ν) : Prop :=
  (one.1 == two.1) = true ∧ one.2 = two.2

/-- The pairs of a list are among those of another one, in the same order. -/
def AmongThose (few many : List (κ × ν)) : Prop :=
  List.SublistForall₂ SameEntry few many

instance [ReflBEq κ] : Std.Refl (SameEntry (κ := κ) (ν := ν)) :=
  ⟨fun _ => ⟨BEq.rfl, rfl⟩⟩

theorem SameEntry.beq_eq [PartialEquivBEq κ] (same : SameEntry one two) (key : κ) :
    (one.1 == key) = (two.1 == key) :=
  BEq.congr_left same.1

namespace AmongThose

variable {few many fewer : List (κ × ν)}

/-- There are no more of them than of those they are among. -/
theorem length_le (among : AmongThose few many) : few.length ≤ many.length := by
  obtain ⟨chosen, same, sublist⟩ := List.sublistForall₂_iff.mp among
  exact same.length_eq ▸ sublist.length_le

/-- Each of them has its counterpart among the others. -/
theorem exists_mem (among : AmongThose few many) (mem : one ∈ few) :
    ∃ two ∈ many, SameEntry one two := by
  induction among with
  | nil => cases mem
  | cons same _ ih =>
    rcases List.mem_cons.mp mem with rfl | mem
    · exact ⟨_, List.mem_cons_self, same⟩
    · obtain ⟨two, there, same⟩ := ih mem
      exact ⟨two, List.mem_cons_of_mem _ there, same⟩
  | cons_right _ ih =>
    obtain ⟨two, there, same⟩ := ih mem
    exact ⟨two, List.mem_cons_of_mem _ there, same⟩

/-- Some of them are still among the others. -/
theorem sublist_left (sublist : fewer.Sublist few) (among : AmongThose few many) :
    AmongThose fewer many := by
  induction among generalizing fewer with
  | nil => rw [List.sublist_nil.mp sublist]; exact .nil
  | cons same _ ih =>
    cases sublist with
    | cons _ sublist => exact .cons_right (ih sublist)
    | cons_cons _ sublist => exact .cons same (ih sublist)
  | cons_right _ ih => exact .cons_right (ih sublist)

/-- The pairs stay among the others if both lists lose their last one. -/
theorem dropLast (among : AmongThose few many) : AmongThose few.dropLast many.dropLast := by
  induction among with
  | nil => exact .nil
  | @cons _ _ few many same among ih =>
    cases among with
    | nil => exact .nil
    | cons => exact .cons same ih
    | cons_right =>
      cases few with
      | nil => exact .nil
      | cons => exact .cons same ih
  | @cons_right _ few many among ih =>
    cases many with
    | nil => cases among; exact .nil
    | cons => exact .cons_right ih

/-- The pairs stay among the others if both lists lose their first one with a key. -/
theorem eraseP [PartialEquivBEq κ] (among : AmongThose few many) (key : κ) :
    AmongThose (few.eraseP (·.1 == key)) (many.eraseP (·.1 == key)) := by
  induction among with
  | nil => exact .nil
  | @cons one two few many same among ih =>
    rw [List.eraseP_cons, List.eraseP_cons, same.beq_eq key]
    cases two.1 == key with
    | true => exact among
    | false => exact .cons same ih
  | @cons_right other few many among ih =>
    rw [List.eraseP_cons]
    cases other.1 == key with
    | true => exact sublist_left List.eraseP_sublist among
    | false => exact .cons_right ih

end AmongThose

/-! ## Nested stores -/

namespace PairStore

/-- The pairs of one store are among those of another, which has at least as much room left. -/
structure Nested (few many : PairStore κ ν) : Prop where
  among : AmongThose few.pairs many.pairs
  slack : many.maxEntries = 0 ∨ few.maxEntries ≠ 0 ∧
    many.pairs.length + few.maxEntries ≤ few.pairs.length + many.maxEntries

variable {few many : PairStore κ ν} {value : ν} {pair : κ × ν}

/-- Two new stores are nested if the larger one has no bound, or one that is no smaller than that of
the other. -/
theorem nested_empty {small large : Nat} (order : large = 0 ∨ small ≠ 0 ∧ small ≤ large) :
    Nested (empty small : PairStore κ ν) (empty large) :=
  ⟨.nil, order.imp_right fun ⟨bounded, le⟩ => ⟨bounded, by simpa [empty] using le⟩⟩

variable [EquivBEq κ]

/-- What is found in the smaller store is found in the larger one. -/
theorem Nested.find?_eq_some (nested : Nested few many) (sound : many.Sound)
    (found : few.find? key = some pair) :
    ∃ other, many.find? key = some other ∧ SameEntry pair other := by
  obtain ⟨other, there, same⟩ := nested.among.exists_mem (List.mem_of_find?_eq_some found)
  have mine := same.beq_eq key
  rw [(others_of_find? found).1] at mine
  exact ⟨other, sound.distinct.find?_eq_some_iff.mpr ⟨there, mine.symm⟩, same⟩

/-- The values are the same, too. -/
theorem Nested.value_eq_some (nested : Nested few many) (sound : many.Sound)
    (found : (few.find? key).map Prod.snd = some value) :
    (many.find? key).map Prod.snd = some value := by
  obtain ⟨pair, here, rfl⟩ := Option.map_eq_some_iff.mp found
  obtain ⟨other, there, same⟩ := nested.find?_eq_some sound here
  rw [there, same.2]
  rfl

/-- The pairs of the smaller store stay among those of the larger one if both lose the pair with a
key, even if only the larger one has it. -/
theorem Nested.others (nested : Nested few many) (key : κ) :
    AmongThose (few.others key) (many.others key) :=
  nested.among.eraseP key

/-- Two stores that are used alike are arranged alike. -/
theorem Nested.arranged (nested : Nested few many) (sound : many.Sound) (op : CacheOp κ ν) :
    AmongThose (few.arranged op) (many.arranged op) := by
  cases op with
  | add key value =>
    have same := BEq.trans (few.heldKey_beq key) (BEq.symm (many.heldKey_beq key))
    exact .cons ⟨same, rfl⟩ (nested.others key)
  | get key =>
    simp only [PairStore.arranged]
    cases found : few.find? key with
    | some pair =>
      obtain ⟨other, found', same⟩ := nested.find?_eq_some sound found
      rw [found']
      exact .cons same (nested.others key)
    | none =>
      -- the larger store may have the key and put its pair to the front
      cases many.find? key with
      | none => exact nested.others key
      | some => exact .cons_right (nested.others key)
  | peek | contains | remove | removeOldest | clear | setHook | clearHook | entries =>
    exact nested.among

/-- Whoever finds a key has one more pair than others. -/
theorem Nested.length_others (nested : Nested few many) (sound : many.Sound) (key : κ) :
    (many.others key).length + few.pairs.length ≤ (few.others key).length + many.pairs.length := by
  have rest := few.length_others key
  have rest' := many.length_others key
  cases found : few.find? key with
  | some pair =>
    obtain ⟨other, found', -⟩ := nested.find?_eq_some sound found
    rw [found, Option.toList_some, List.length_singleton] at rest
    rw [found', Option.toList_some, List.length_singleton] at rest'
    omega
  | none =>
    rw [found, Option.toList_none, List.length_nil] at rest
    omega

/-- The larger store has to give up a pair for a new one only if the smaller store has to. -/
theorem Nested.exceeds (nested : Nested few many) (sound : many.Sound)
    (tooMany : many.Exceeds (many.arranged (.add key value)).length) :
    few.Exceeds (few.arranged (.add key value)).length := by
  have grown := nested.length_others sound key
  simp only [PairStore.arranged, List.length_cons] at tooMany ⊢
  rcases nested.slack with unbounded | ⟨bounded, slack⟩
  · exact absurd unbounded tooMany.1
  · have above := tooMany.2
    exact ⟨bounded, by omega⟩

/-- What the smaller store keeps, the larger one keeps. -/
theorem Nested.kept (nested : Nested few many) (sound : many.Sound) (op : CacheOp κ ν) :
    AmongThose (few.kept op) (many.kept op) := by
  have arranged := nested.arranged sound op
  cases op with
  | add key value =>
    rw [PairStore.kept, PairStore.kept]
    by_cases tooMany : few.Exceeds (few.arranged (.add key value)).length
    · rw [if_pos tooMany]
      split
      · exact arranged.dropLast
      · exact .sublist_left (List.dropLast_sublist _) arranged
    · rw [if_neg tooMany, if_neg fun tooMany' => tooMany (nested.exceeds sound tooMany')]
      exact arranged
  | remove key => exact nested.others key
  | removeOldest => exact nested.among.dropLast
  | clear => exact .nil
  | get | peek | contains | setHook | clearHook | entries => exact arranged

/-- The larger store keeps at least as much room. -/
theorem Nested.slack_kept (nested : Nested few many) (sound : many.Sound) (op : CacheOp κ ν) :
    many.maxEntries = 0 ∨ few.maxEntries ≠ 0 ∧
      (many.kept op).length + few.maxEntries ≤ (few.kept op).length + many.maxEntries := by
  refine nested.slack.imp_right fun ⟨bounded, slack⟩ => ⟨bounded, ?_⟩
  have shorter := nested.among.length_le
  cases op with
  | add key value =>
    have grown := nested.length_others sound key
    have fits := sound.not_exceeds_kept (.add key value)
    by_cases tooMany : few.Exceeds (few.arranged (.add key value)).length
    · -- the smaller store is full afterwards, the larger one at most full
      have full : (few.kept (.add key value)).length + 1 =
          (few.arranged (.add key value)).length := by
        rw [PairStore.kept, if_pos tooMany, List.length_dropLast]
        exact Nat.sub_add_cancel (Nat.zero_lt_of_lt tooMany.2)
      have above := tooMany.2
      rw [Exceeds] at fits
      omega
    · rw [PairStore.kept, PairStore.kept, if_neg tooMany,
        if_neg fun tooMany' => tooMany (nested.exceeds sound tooMany')]
      simp only [PairStore.arranged, List.length_cons]
      omega
  | get key =>
    have rest := few.length_others key
    have rest' := many.length_others key
    simp only [PairStore.kept, PairStore.arranged, List.length_append]
    omega
  | remove key =>
    have rest := nested.length_others sound key
    simp only [PairStore.kept]
    omega
  | removeOldest =>
    simp only [PairStore.kept, List.length_dropLast]
    omega
  | clear =>
    simp only [PairStore.kept, List.length_nil]
    omega
  | peek | contains | setHook | clearHook | entries => exact slack

/-- **Operations keep two stores nested.** -/
theorem Nested.apply (nested : Nested few many) (sound : few.Sound) (sound' : many.Sound)
    (op : CacheOp κ ν) : Nested (few.apply op).store (many.apply op).store := by
  obtain ⟨pairs, maxEntries, -⟩ := sound.apply_eq op
  obtain ⟨pairs', maxEntries', -⟩ := sound'.apply_eq op
  refine ⟨?_, ?_⟩
  · rw [pairs, pairs']
    exact nested.kept sound' op
  · rw [pairs, pairs', maxEntries, maxEntries']
    exact nested.slack_kept sound' op

theorem Nested.after (nested : Nested few many) (sound : few.Sound) (sound' : many.Sound)
    (ops : List (CacheOp κ ν)) : Nested (few.after ops) (many.after ops) := by
  induction ops generalizing few many with
  | nil => exact nested
  | cons op ops ih => exact ih (nested.apply sound sound' op) (sound.apply op) (sound'.apply op)

end PairStore

/-! ## Nested caches -/

namespace Cache

variable [EquivBEq κ] [Hashable κ] [LawfulHashable κ]

/-- **Larger caches hold what smaller ones hold.** Two new caches, one with more room than the other
(or without a bound), are used alike. Then the pairs of the smaller one are among those of the
larger one, in the same order and with the same values, and whatever a read or a removal finds in
the smaller one it finds in the larger one. -/
theorem larger_includes_smaller {small large : Nat} (order : large = 0 ∨ small ≠ 0 ∧ small ≤ large)
    (ops : List (CacheOp κ ν)) (calm : ∀ op ∈ ops, op.Calm) :
    ∃ few many : List (κ × ν),
      ((empty small).after ops).toList = .ok few ∧
      ((empty large).after ops).toList = .ok many ∧
      List.SublistForall₂ SameEntry few many ∧
      ∀ key value,
        ((((empty small).after ops).get key).answer = .ok (some value) →
          (((empty large).after ops).get key).answer = .ok (some value)) ∧
        ((((empty small).after ops).peek key).answer = .ok (some value) →
          (((empty large).after ops).peek key).answer = .ok (some value)) ∧
        (((empty small : Cache κ ν).after ops).contains key →
          ((empty large : Cache κ ν).after ops).contains key) ∧
        ((((empty small).after ops).remove key).answer = .ok (some value) →
          (((empty large).after ops).remove key).answer = .ok (some value)) := by
  have mirrors := mirrors_after small calm
  have mirrors' := mirrors_after large calm
  have sound := PairStore.sound_after large ops
  have nested : PairStore.Nested ((PairStore.empty small).after ops)
      ((PairStore.empty large).after ops) :=
    (PairStore.nested_empty order).after (PairStore.sound_empty small)
      (PairStore.sound_empty large) ops
  refine ⟨_, _, mirrors.sight.2.2, mirrors'.sight.2.2, nested.among, fun key value => ?_⟩
  obtain ⟨get, peek, contains, remove⟩ := mirrors.finds key
  obtain ⟨get', peek', contains', remove'⟩ := mirrors'.finds key
  rw [get, get', peek, peek', contains, contains', remove, remove']
  have hit : Except.ok (((PairStore.empty small).after ops).find? key |>.map Prod.snd) =
        (.ok (some value) : Except Fault (Option ν)) →
      Except.ok (((PairStore.empty large).after ops).find? key |>.map Prod.snd) =
        (.ok (some value) : Except Fault (Option ν)) := fun found =>
    congrArg _ (nested.value_eq_some sound (Except.ok.inj found))
  refine ⟨hit, hit, fun found => ?_, hit⟩
  obtain ⟨pair, found⟩ := Option.isSome_iff_exists.mp found
  obtain ⟨other, found', -⟩ := nested.find?_eq_some sound found
  rw [found']
  rfl

/-- With room for one pair the second one has pushed the first one out, so only a cache with room
for two can bring the first one to the front again. The second one is still in both. -/
theorem larger_includes_smaller_apart :
    (((empty 1 : Cache Nat String).after [.add 1 "a", .add 2 "b", .get 1]).peek 2).answer =
        .ok (some "b") ∧
      (((empty 2 : Cache Nat String).after [.add 1 "a", .add 2 "b", .get 1]).peek 2).answer =
        .ok (some "b") := by
  have calm : ∀ op ∈ ([.add 1 "a", .add 2 "b", .get 1] : List (CacheOp Nat String)), op.Calm := by
    simp [CacheOp.Calm]
  have hit := ((mirrors_after 1 calm).finds 2).2.1
  obtain ⟨_, _, -, -, -, finds⟩ := @larger_includes_smaller _ _ _ _ _ _ 1 2
    (.inr (by decide)) _ calm
  exact ⟨hit, (finds 2 "b").2.1 hit⟩

end Cache

end PeerCache
