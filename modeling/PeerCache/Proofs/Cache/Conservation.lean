import Mathlib.Data.List.Pairwise
import Mathlib.Data.List.Perm.Basic
import PeerCache.Proofs.Cache.PairStore

/-!
# What an operation keeps and what leaves

An operation on a list of pairs first arranges them (`PairStore.arranged`): the pair that is used
comes to the front, with a new value or with its own, and a new one is put there. Then some of them
may leave. What is kept and what leaves are together what was arranged (`kept_append_leaving_perm`),
so no pair is lost and none is there twice.

This is said for stores that hold every key once and no more than they may (`PairStore.Sound`),
which all operations keep (`Sound.apply`). A store keeps and reports just these pairs
(`Sound.apply_eq`). For a single key it says that its pair stays, with the value that is added for
it if any, or leaves as it is (`Sound.find?_apply_of_some`).
-/

namespace PeerCache

variable {κ ν : Type} [BEq κ]

/-- The pair that an operation adds. -/
def CacheOp.added? : CacheOp κ ν → Option (κ × ν)
  | .add key value => some (key, value)
  | _ => none

/-- The value that an operation adds for a key. -/
def CacheOp.addedFor? (op : CacheOp κ ν) (key : κ) : Option ν :=
  (op.added?.filter (·.1 == key)).map Prod.snd

omit [BEq κ] in
/-- There is one operation that adds pairs. What follows is said apart for it and for all others at
once. -/
theorem CacheOp.added?_eq_none_or (op : CacheOp κ ν) :
    op.added? = none ∨ ∃ key value, op = .add key value := by
  cases op with
  | add key value => exact .inr ⟨key, value, rfl⟩
  | get | peek | contains | remove | removeOldest | clear | setHook | clearHook | entries =>
    exact .inl rfl

omit [BEq κ] in
theorem CacheOp.eq_add_of_added? {op : CacheOp κ ν} {pair : κ × ν} (added : op.added? = some pair) :
    op = .add pair.1 pair.2 := by
  rcases op.added?_eq_none_or with none | ⟨key, value, rfl⟩
  · rw [none] at added
    cases added
  · obtain rfl := Option.some.inj added
    rfl

/-- An addition is one for every key that equals its own, which need not be the same key. -/
theorem CacheOp.addedFor?_add (key other : κ) (value : ν) :
    (CacheOp.add key value).addedFor? other = if key == other then some value else none := by
  rw [addedFor?, added?, Option.filter_some]
  split <;> rfl

/-- No key is held twice. -/
def Distinct (pairs : List (κ × ν)) : Prop :=
  pairs.Pairwise fun one two => (one.1 == two.1) = false

namespace PairStore

variable {store : PairStore κ ν} {op : CacheOp κ ν} {key : κ} {value : ν} {pair : κ × ν}

/-- Whether some number of pairs is more than the store may hold. -/
def Exceeds (store : PairStore κ ν) (count : Nat) : Prop :=
  store.maxEntries ≠ 0 ∧ store.maxEntries < count

instance (store : PairStore κ ν) (count : Nat) : Decidable (store.Exceeds count) :=
  inferInstanceAs (Decidable (_ ∧ _))

/-- The key of the pair that is found for a key, else the key itself. -/
def heldKey (store : PairStore κ ν) (key : κ) : κ :=
  ((store.find? key).map Prod.fst).getD key

/-- The pairs as an operation arranges them before any of them leaves. -/
def arranged (store : PairStore κ ν) : CacheOp κ ν → List (κ × ν)
  | .add key value => (store.heldKey key, value) :: store.others key
  | .get key => (store.find? key).toList ++ store.others key
  | _ => store.pairs

/-- The pairs that leave in an operation, in the order in which they do. -/
def leaving (store : PairStore κ ν) : CacheOp κ ν → List (κ × ν)
  | .add key value =>
    if store.Exceeds (store.arranged (.add key value)).length then
      (store.arranged (.add key value)).getLast?.toList
    else []
  | .remove key => (store.find? key).toList
  | .removeOldest => store.pairs.getLast?.toList
  | .clear => store.pairs
  | _ => []

/-- The pairs that stay in an operation. -/
def kept (store : PairStore κ ν) : CacheOp κ ν → List (κ × ν)
  | .add key value =>
    if store.Exceeds (store.arranged (.add key value)).length then
      (store.arranged (.add key value)).dropLast
    else store.arranged (.add key value)
  | .remove key => store.others key
  | .removeOldest => store.pairs.dropLast
  | .clear => []
  | op => store.arranged op

/-! ## Pairs by key -/

/-- The pair that is found stands between the others. -/
theorem others_of_find? (found : store.find? key = some pair) :
    (pair.1 == key) = true ∧ ∃ front back,
      store.pairs = front ++ pair :: back ∧ store.others key = front ++ back := by
  obtain ⟨mine, front, back, split, before⟩ := List.find?_eq_some_iff_append.mp found
  refine ⟨mine, front, back, split, ?_⟩
  have none : ∀ other ∈ front, ¬ (other.1 == key) = true := by
    intro other mem
    simpa using before other mem
  rw [others, split, List.eraseP_append_right _ none]
  exact congrArg _ (List.eraseP_cons_of_pos mine)

theorem others_of_find?_none (absent : store.find? key = none) : store.others key = store.pairs :=
  List.eraseP_of_forall_not (List.find?_eq_none.mp absent)

/-- The pair with a key and the others are all the pairs, in the order of a pair that has come to
the front. -/
theorem find?_append_others_perm (store : PairStore κ ν) (key : κ) :
    ((store.find? key).toList ++ store.others key).Perm store.pairs := by
  cases found : store.find? key with
  | none => rw [others_of_find?_none found]; exact .refl _
  | some pair =>
    obtain ⟨-, front, back, split, others⟩ := others_of_find? found
    rw [split, others]
    exact (@List.perm_middle _ pair front back).symm

omit [BEq κ] in
/-- The last pair and those before it are all the pairs, even if there is none. -/
theorem dropLast_append_getLast?_perm (pairs : List (κ × ν)) :
    (pairs.dropLast ++ pairs.getLast?.toList).Perm pairs := by
  rcases List.eq_nil_or_concat pairs with rfl | ⟨init, last, rfl⟩
  · exact .refl _
  · rw [List.concat_eq_append, List.dropLast_concat, List.getLast?_concat]
    exact .refl _

/-- **What is kept and what leaves are together what was arranged.** -/
theorem kept_append_leaving_perm (store : PairStore κ ν) (op : CacheOp κ ν) :
    (store.kept op ++ store.leaving op).Perm (store.arranged op) := by
  cases op with
  | add key value =>
    rw [kept, leaving]
    split
    · exact dropLast_append_getLast?_perm _
    · rw [List.append_nil]
  | remove key => exact List.perm_append_comm.trans (store.find?_append_others_perm key)
  | removeOldest => exact dropLast_append_getLast?_perm _
  | clear => exact .refl _
  | get | peek | contains | setHook | clearHook | entries => exact .of_eq (List.append_nil _)

/-- An operation that adds nothing arranges the pairs that are there. -/
theorem arranged_perm (store : PairStore κ ν) {op : CacheOp κ ν} (adds : op.added? = none) :
    (store.arranged op).Perm store.pairs := by
  cases op with
  | add => cases adds
  | get key => exact store.find?_append_others_perm key
  | peek | contains | remove | removeOldest | clear | setHook | clearHook | entries => exact .refl _

/-- No pair is lost and none is there twice, counted. -/
theorem length_kept_add_leaving (store : PairStore κ ν) (op : CacheOp κ ν) :
    (store.kept op).length + (store.leaving op).length = (store.arranged op).length := by
  rw [← List.length_append]
  exact (store.kept_append_leaving_perm op).length_eq

/-- Where there are too many pairs, there is another one behind the one in front. -/
theorem others_ne_nil (tooMany : store.Exceeds (store.arranged (.add key value)).length) :
    store.others key ≠ [] := by
  intro none
  have above := tooMany.2
  rw [arranged, none, List.length_singleton] at above
  exact tooMany.1 (Nat.lt_one_iff.mp above)

/-- A pair that is added is kept in front. -/
theorem exists_kept_add (store : PairStore κ ν) (key : κ) (value : ν) :
    ∃ rest, store.kept (.add key value) = (store.heldKey key, value) :: rest := by
  rw [kept]
  split
  · next tooMany =>
    rw [arranged, List.dropLast_cons_of_ne_nil (others_ne_nil tooMany)]
    exact ⟨_, rfl⟩
  · exact ⟨_, rfl⟩

/-- Only a store that is emptied gives up more than one pair. -/
theorem length_leaving_le (store : PairStore κ ν) (op : CacheOp κ ν) :
    (store.leaving op).length ≤ 1 ∨ op = .clear := by
  have short : ∀ one : Option (κ × ν), one.toList.length ≤ 1 := by
    intro one
    cases one <;> simp
  cases op with
  | add key value =>
    rw [leaving]
    split
    · exact .inl (short _)
    · exact .inl (Nat.zero_le _)
  | remove key => exact .inl (short _)
  | removeOldest => exact .inl (short _)
  | clear => exact .inr rfl
  | get | peek | contains | setHook | clearHook | entries => exact .inl (Nat.zero_le _)

/-- There is one pair fewer among the others if the key is held. -/
theorem length_others (store : PairStore κ ν) (key : κ) :
    (store.find? key).toList.length + (store.others key).length = store.pairs.length := by
  rw [← List.length_append]
  exact (store.find?_append_others_perm key).length_eq

/-! ## Sound stores -/

/-- No key is held twice, and no more pairs than the store may hold. -/
structure Sound (store : PairStore κ ν) : Prop where
  distinct : Distinct store.pairs
  bounded : ¬ store.Exceeds store.pairs.length

theorem sound_empty (maxEntries : Nat) : (empty maxEntries : PairStore κ ν).Sound :=
  ⟨List.Pairwise.nil, by simp [empty, Exceeds]⟩

/-- A store keeps and reports what the operation lets stay and leave. -/
theorem Sound.apply_eq (sound : store.Sound) (op : CacheOp κ ν) :
    (store.apply op).store.pairs = store.kept op ∧
      (store.apply op).store.maxEntries = store.maxEntries ∧
      (store.apply op).reports = tellings store.hook (store.leaving op) := by
  have silent : ([] : List (Report κ ν)) = tellings store.hook [] := by
    cases store.hook <;> rfl
  cases op with
  | add key value =>
    cases found : store.find? key with
    | none =>
      have same : store.arranged (.add key value) = (key, value) :: store.pairs := by
        rw [arranged, heldKey, found, others_of_find?_none found]
        rfl
      simp only [apply, found, prepend, kept, leaving, same, Exceeds]
      split
      · exact ⟨rfl, rfl, rfl⟩
      · exact ⟨rfl, rfl, rfl⟩
    | some pair =>
      -- there are as many pairs as before, so none has to leave
      have fits : ¬ store.Exceeds (store.arranged (.add key value)).length := by
        obtain ⟨-, front, back, split, others⟩ := others_of_find? found
        have bounded := sound.bounded
        rw [split] at bounded
        simpa [arranged, others, Exceeds, Nat.add_assoc] using bounded
      simp only [apply, found, kept, leaving, if_neg fits]
      simp only [arranged, heldKey, found]
      exact ⟨rfl, rfl, rfl⟩
  | get key =>
    cases found : store.find? key with
    | none =>
      simp only [apply, found, kept, leaving, arranged, others_of_find?_none found]
      exact ⟨rfl, rfl, silent⟩
    | some pair =>
      simp only [apply, found, kept, leaving, arranged]
      exact ⟨rfl, rfl, rfl⟩
  | remove key =>
    cases found : store.find? key with
    | none =>
      simp only [apply, found, kept, leaving, others_of_find?_none found]
      exact ⟨rfl, rfl, silent⟩
    | some pair =>
      simp only [apply, found, kept, leaving]
      exact ⟨rfl, rfl, rfl⟩
  | removeOldest => exact ⟨rfl, rfl, rfl⟩
  | clear => exact ⟨rfl, rfl, rfl⟩
  | peek => exact ⟨rfl, rfl, silent⟩
  | contains => exact ⟨rfl, rfl, silent⟩
  | setHook => exact ⟨rfl, rfl, silent⟩
  | clearHook => exact ⟨rfl, rfl, silent⟩
  | entries => exact ⟨rfl, rfl, silent⟩

/-- No more is kept than may be held. -/
theorem Sound.not_exceeds_kept (sound : store.Sound) (op : CacheOp κ ν) :
    ¬ store.Exceeds (store.kept op).length := by
  have bounded := sound.bounded
  have sum := store.length_kept_add_leaving op
  unfold Exceeds at bounded ⊢
  cases op with
  | add key value =>
    have rest := store.length_others key
    rw [kept]
    split
    · next tooMany =>
      rw [List.length_dropLast, arranged, List.length_cons]
      omega
    · next fits => exact fits
  | get key =>
    have rest := store.length_others key
    rw [arranged, List.length_append] at sum
    omega
  | peek | contains | remove | removeOldest | clear | setHook | clearHook | entries =>
    rw [arranged] at sum
    · omega
    · nofun
    · nofun

/-- The key that a pair keeps equals the one it is asked for. -/
theorem heldKey_beq [ReflBEq κ] (store : PairStore κ ν) (key : κ) :
    (store.heldKey key == key) = true := by
  unfold heldKey
  cases found : store.find? key with
  | none => exact BEq.rfl
  | some pair => exact (others_of_find? found).1

end PairStore

/-! ## Distinct keys -/

variable [EquivBEq κ]

namespace Distinct

variable {xs ys : List (κ × ν)} {pair one two : κ × ν} {key : κ}

theorem perm (distinct : Distinct xs) (perm : xs.Perm ys) : Distinct ys :=
  List.Pairwise.perm distinct perm fun {_ _} apart => BEq.comm.trans apart

omit [EquivBEq κ] in
theorem of_append_left (distinct : Distinct (xs ++ ys)) : Distinct xs :=
  (List.pairwise_append.mp distinct).1

/-- Of the pairs with a key there is at most one. -/
theorem eq_of_beq (distinct : Distinct xs) (mem : one ∈ xs) (mem' : two ∈ xs)
    (same : (one.1 == two.1) = true) : one = two := by
  by_contra differ
  obtain ⟨front, back, rfl⟩ := List.append_of_mem mem
  -- the one comes first in another order of the same pairs
  have first : Distinct (one :: (front ++ back)) := distinct.perm List.perm_middle
  have other : two ∈ front ++ back := by
    rcases List.mem_cons.mp (List.perm_middle.mem_iff.mp mem') with here | there
    · exact absurd here.symm differ
    · exact there
  rw [List.rel_of_pairwise_cons first other] at same
  cases same

/-- Where keys are distinct, finding a pair is being there with that key; otherwise it would be
being the first. -/
theorem find?_eq_some_iff (distinct : Distinct xs) :
    xs.find? (·.1 == key) = some pair ↔ pair ∈ xs ∧ (pair.1 == key) = true := by
  constructor
  · exact fun found => ⟨List.mem_of_find?_eq_some found, (List.find?_some found :)⟩
  · rintro ⟨mem, mine⟩
    cases found : xs.find? (·.1 == key) with
    | none => exact absurd mine (List.find?_eq_none.mp found pair mem)
    | some other =>
      have mine' : (other.1 == key) = true := (List.find?_some found :)
      rw [distinct.eq_of_beq (List.mem_of_find?_eq_some found) mem
        (BEq.trans mine' (BEq.symm mine))]

/-- What is found does not depend on the order. -/
theorem find?_eq_of_perm (distinct : Distinct xs) (perm : xs.Perm ys) (key : κ) :
    xs.find? (·.1 == key) = ys.find? (·.1 == key) := by
  refine Option.ext fun pair => ?_
  rw [distinct.find?_eq_some_iff, (distinct.perm perm).find?_eq_some_iff, perm.mem_iff]

/-- The pairs with a key are the one that is found. -/
theorem filter_eq_find? (distinct : Distinct xs) (key : κ) :
    xs.filter (·.1 == key) = (xs.find? (·.1 == key)).toList := by
  rw [← List.head?_filter]
  cases split : xs.filter (·.1 == key) with
  | nil => rfl
  | cons one rest =>
    -- a second one would have the same key
    have apart : Distinct (one :: rest) := split ▸ distinct.sublist List.filter_sublist
    have mine : ∀ other ∈ one :: rest, (other.1 == key) = true := by
      rw [← split]
      exact fun other mem => (List.mem_filter.mp mem).2
    cases rest with
    | nil => rfl
    | cons two rest =>
      have same := BEq.trans (mine one List.mem_cons_self)
        (BEq.symm (mine two (List.mem_cons_of_mem _ List.mem_cons_self)))
      rw [List.rel_of_pairwise_cons apart List.mem_cons_self] at same
      cases same

end Distinct

namespace PairStore

variable {store : PairStore κ ν} {op : CacheOp κ ν} {key : κ} {value : ν} {pair : κ × ν}

/-- The others have other keys. -/
theorem Sound.apart_of_mem_others (sound : store.Sound) (mem : pair ∈ store.others key) :
    (pair.1 == key) = false := by
  cases found : store.find? key with
  | none =>
    rw [others_of_find?_none found] at mem
    simpa using List.find?_eq_none.mp found pair mem
  | some mine =>
    have all := sound.distinct.perm (store.find?_append_others_perm key).symm
    rw [found] at all
    have apart := List.rel_of_pairwise_cons all mem
    by_contra same
    rw [Bool.not_eq_false] at same
    rw [BEq.trans (others_of_find? found).1 (BEq.symm same)] at apart
    cases apart

/-- An arrangement holds no key twice either. -/
theorem Sound.distinct_arranged (sound : store.Sound) (op : CacheOp κ ν) :
    Distinct (store.arranged op) := by
  have all (key : κ) := sound.distinct.perm (store.find?_append_others_perm key).symm
  cases op with
  | add key value =>
    refine List.pairwise_cons.mpr ⟨fun other mem => ?_, (List.pairwise_append.mp (all key)).2.1⟩
    have apart := sound.apart_of_mem_others mem
    by_contra same
    rw [Bool.not_eq_false] at same
    rw [BEq.trans (BEq.symm same) (store.heldKey_beq key)] at apart
    cases apart
  | get key => exact all key
  | peek | contains | remove | removeOldest | clear | setHook | clearHook | entries =>
    exact sound.distinct

/-- **Operations keep a store sound.** -/
theorem Sound.apply (sound : store.Sound) (op : CacheOp κ ν) : (store.apply op).store.Sound := by
  obtain ⟨pairs, maxEntries, -⟩ := sound.apply_eq op
  have all := (sound.distinct_arranged op).perm (store.kept_append_leaving_perm op).symm
  refine ⟨pairs ▸ all.of_append_left, ?_⟩
  rw [Exceeds, pairs, maxEntries]
  exact sound.not_exceeds_kept op

/-! ## One key -/

theorem find?_congr {other : κ} (same : (other == key) = true) :
    store.find? other = store.find? key :=
  congrArg (fun wanted => store.pairs.find? wanted) (funext fun _ => BEq.congr_right same)

/-- Leaving out the pair of another key does not change what is found for this one. -/
theorem Sound.find?_others (sound : store.Sound) {other : κ} (apart : (other == key) = false) :
    (store.others other).find? (·.1 == key) = store.find? key := by
  have perm := (store.find?_append_others_perm other).symm
  have notHere : (store.find? other).toList.find? (·.1 == key) = none := by
    refine List.find?_eq_none.mpr fun pair mem => ?_
    obtain ⟨mine, -⟩ := others_of_find? (Option.mem_toList.mp mem)
    rw [BEq.congr_left mine, apart]
    exact Bool.false_ne_true
  rw [find?, sound.distinct.find?_eq_of_perm perm, List.find?_append, notHere, Option.none_or]

/-- An arrangement has the pair of a key as before, with the value that is added for it if any. -/
theorem Sound.find?_arranged_of_some (sound : store.Sound) (op : CacheOp κ ν)
    (found : store.find? key = some pair) :
    (store.arranged op).find? (·.1 == key) = some (pair.1, (op.addedFor? key).getD pair.2) := by
  rcases op.added?_eq_none_or with adds | ⟨other, value, rfl⟩
  · rw [(sound.distinct_arranged op).find?_eq_of_perm (store.arranged_perm adds) key,
      CacheOp.addedFor?, adds]
    exact found
  · rw [arranged, List.find?_cons, BEq.congr_left (store.heldKey_beq other), CacheOp.addedFor?_add]
    cases same : other == key with
    | true =>
      rw [heldKey, find?_congr same, found]
      rfl
    | false => exact (sound.find?_others same).trans found

/-- An arrangement has a key that was not held only if it has been added. -/
theorem Sound.find?_arranged_of_none (sound : store.Sound) (op : CacheOp κ ν)
    (absent : store.find? key = none) :
    (store.arranged op).find? (·.1 == key) = op.added?.filter (·.1 == key) := by
  rcases op.added?_eq_none_or with adds | ⟨other, value, rfl⟩
  · rw [(sound.distinct_arranged op).find?_eq_of_perm (store.arranged_perm adds) key, adds]
    exact absent
  · rw [arranged, List.find?_cons, BEq.congr_left (store.heldKey_beq other), CacheOp.added?,
      Option.filter_some]
    cases same : other == key with
    | true =>
      rw [heldKey, find?_congr same, absent]
      rfl
    | false => exact (sound.find?_others same).trans absent

/-- Of the pairs with a key, what is kept and what leaves is what was arranged. -/
theorem Sound.conserves (sound : store.Sound) (op : CacheOp κ ν) (key : κ) :
    ((store.apply op).store.find? key).toList ++ (store.leaving op).filter (·.1 == key) =
      ((store.arranged op).find? (·.1 == key)).toList := by
  have all := sound.distinct_arranged op
  have perm := (store.kept_append_leaving_perm op).symm
  rw [all.find?_eq_of_perm perm, ← (all.perm perm).filter_eq_find?, List.filter_append,
    (all.perm perm).of_append_left.filter_eq_find?, find?, (sound.apply_eq op).1]

/-- A key that is added does not leave. -/
theorem Sound.filter_leaving_of_added (sound : store.Sound)
    (added : op.addedFor? key = some value) : (store.leaving op).filter (·.1 == key) = [] := by
  rcases op.added?_eq_none_or with adds | ⟨other, value, rfl⟩
  · rw [CacheOp.addedFor?, adds] at added
    cases added
  · have same : (other == key) = true := by
      by_contra apart
      rw [CacheOp.addedFor?_add, if_neg apart] at added
      cases added
    rw [leaving]
    split
    · next tooMany =>
      -- the last one is not the one in front
      refine List.filter_eq_nil_iff.mpr fun pair mem => ?_
      rw [arranged, List.getLast?_cons_of_ne_nil (others_ne_nil tooMany), Option.mem_toList] at mem
      rw [← BEq.congr_right same, sound.apart_of_mem_others (List.mem_of_getLast? mem)]
      exact Bool.false_ne_true
    · rfl

omit [EquivBEq κ] in
/-- Something leaves in an addition only if there is no more room. -/
theorem Sound.full_of_leaving (sound : store.Sound)
    (leaves : store.leaving (.add key value) ≠ []) :
    store.maxEntries ≠ 0 ∧ store.pairs.length = store.maxEntries := by
  have tooMany : store.Exceeds (store.arranged (.add key value)).length := by
    by_contra fits
    exact leaves (if_neg fits)
  have bounded := sound.bounded
  have rest := store.length_others key
  unfold Exceeds at tooMany bounded
  rw [arranged, List.length_cons] at tooMany
  omega

/-- **A pair that is held stays**, with the value that is added for its key if any, **or leaves as
it is**. -/
theorem Sound.find?_apply_of_some (sound : store.Sound) (op : CacheOp κ ν)
    (found : store.find? key = some pair) :
    (store.apply op).store.find? key = some (pair.1, (op.addedFor? key).getD pair.2) ∧
        (store.leaving op).filter (·.1 == key) = [] ∨
      (store.apply op).store.find? key = none ∧
        (store.leaving op).filter (·.1 == key) = [pair] ∧ op.addedFor? key = none := by
  have conserves := sound.conserves op key
  rw [sound.find?_arranged_of_some op found] at conserves
  cases later : (store.apply op).store.find? key with
  | some pair' =>
    rw [later] at conserves
    obtain ⟨rfl, none⟩ := List.cons.inj conserves
    exact .inl ⟨rfl, none⟩
  | none =>
    rw [later] at conserves
    -- it leaves, so it has not been added
    have adds : op.addedFor? key = none := by
      cases added : op.addedFor? key with
      | none => rfl
      | some value =>
        rw [sound.filter_leaving_of_added added] at conserves
        cases conserves
    rw [adds] at conserves
    exact .inr ⟨rfl, conserves, adds⟩

/-- A key that is not held is held afterwards if it has been added. -/
theorem Sound.find?_apply_of_none (sound : store.Sound) (op : CacheOp κ ν)
    (absent : store.find? key = none) :
    (store.apply op).store.find? key = op.added?.filter (·.1 == key) ∧
      (store.leaving op).filter (·.1 == key) = [] := by
  have conserves := sound.conserves op key
  rw [sound.find?_arranged_of_none op absent] at conserves
  cases added : op.added?.filter (·.1 == key) with
  | none =>
    rw [added] at conserves
    obtain ⟨later, none⟩ := List.append_eq_nil_iff.mp conserves
    exact ⟨Option.toList_eq_nil_iff.mp later, none⟩
  | some pair =>
    have value : op.addedFor? key = some pair.2 := by
      rw [CacheOp.addedFor?, added]
      rfl
    have none := sound.filter_leaving_of_added value
    rw [none, List.append_nil, added] at conserves
    refine ⟨Option.ext fun other => ?_, none⟩
    rw [← Option.mem_toList, conserves, Option.mem_toList]

/-- What leaves was held and is held no longer. -/
theorem Sound.of_mem_leaving (sound : store.Sound) (op : CacheOp κ ν)
    (leaves : pair ∈ store.leaving op) :
    store.find? pair.1 = some pair ∧ (store.apply op).store.find? pair.1 = none := by
  have mem : pair ∈ (store.leaving op).filter (·.1 == pair.1) :=
    List.mem_filter.mpr ⟨leaves, BEq.rfl⟩
  cases found : store.find? pair.1 with
  | none =>
    rw [(sound.find?_apply_of_none op found).2] at mem
    cases mem
  | some other =>
    rcases sound.find?_apply_of_some op found with ⟨-, none⟩ | ⟨gone, one, -⟩
    · rw [none] at mem
      cases mem
    · rw [one, List.mem_singleton] at mem
      exact ⟨congrArg some mem.symm, gone⟩

end PairStore

end PeerCache
