import PeerCache.Proofs.Cache.Refinement

/-!
# What a hook is told

`tellings` are the calls of a hook for pairs that leave one after the other, if none of them fails.
`untilFailure` are those that are made if some do. A cache tells its hook by `notifyAll`, which
makes these calls, ends in the fault of the last one if that one fails, and changes nothing but the
count of the hook (`notifyAll_withHook`).
-/

namespace PeerCache

variable {κ ν : Type}

namespace Report

/-- The pair that a call of a hook was about. -/
def pair (report : Report κ ν) : κ × ν :=
  (report.key, report.value)

/-- Whose call it was, and about which pair. -/
def uncounted (report : Report κ ν) : String × κ × ν :=
  (report.tag, report.pair)

/-- What a hook with some reaction fails with in the call. -/
def failure? (report : Report κ ν) (reaction : Nat → κ → ν → Option String) : Option String :=
  reaction report.count report.key report.value

end Report

/-- The report is one of a call of the hook that is still to come. -/
def Hook.Awaits (hook : Hook κ ν) (report : Report κ ν) : Prop :=
  report.tag = hook.tag ∧ hook.calls < report.count

/-- Calls are counted on from where the count stood. -/
theorem Hook.called_called (hook : Hook κ ν) (first more : Nat) :
    (hook.called first).called more = hook.called (more + first) := by
  simp only [called]
  rw [Nat.add_assoc, Nat.add_comm first]

/-! ## Calls that do not fail -/

section

variable {standing : Option (String × Nat)} {gone : List (κ × ν)} {report : Report κ ν} {key : κ}
  {pair : κ × ν}

/-- A hook that does not fail is told of each pair once, in the order in which they leave. -/
theorem map_pair_tellings (standing : String × Nat) (gone : List (κ × ν)) :
    (tellings (some standing) gone).map Report.pair = gone := by
  obtain ⟨tag, calls⟩ := standing
  rw [tellings, List.map_map]
  exact List.zipIdx_map_fst _ gone

/-- All the calls bear the tag of the hook that is installed. -/
theorem map_uncounted_tellings (standing : String × Nat) (gone : List (κ × ν)) :
    (tellings (some standing) gone).map Report.uncounted = gone.map (standing.1, ·) := by
  obtain ⟨tag, calls⟩ := standing
  conv_rhs => rw [← map_pair_tellings (tag, calls) gone]
  rw [List.map_map]
  refine List.map_congr_left fun report told => ?_
  obtain ⟨_, -, rfl⟩ := List.mem_map.mp told
  rfl

theorem length_tellings (standing : String × Nat) (gone : List (κ × ν)) :
    (tellings (some standing) gone).length = gone.length := by
  conv_rhs => rw [← map_pair_tellings standing gone, List.length_map]

/-- After the first call the rest are those of the same hook with its count raised. -/
theorem tellings_cons (hook : Hook κ ν) (key : κ) (value : ν) (gone : List (κ × ν)) :
    tellings (some hook.standing) ((key, value) :: gone) =
      ⟨hook.tag, hook.calls + 1, key, value⟩ :: tellings (some (hook.called 1).standing) gone :=
  rfl

/-- A call is one of the hook, about a pair that leaves, and with a count above those of the calls
before. -/
theorem mem_tellings (told : report ∈ tellings standing gone) :
    report.pair ∈ gone ∧
      ∃ hook, standing = some hook ∧ report.tag = hook.1 ∧ hook.2 < report.count := by
  match standing with
  | none => cases told
  | some (tag, calls) =>
    obtain ⟨⟨pair, count⟩, mem, rfl⟩ := List.mem_map.mp told
    exact ⟨List.fst_mem_of_mem_zipIdx mem, _, rfl, rfl, List.le_snd_of_mem_zipIdx mem⟩

variable [BEq κ]

theorem filter_tellings_of_nil (none : gone.filter (·.1 == key) = []) :
    (tellings standing gone).filter (·.key == key) = [] :=
  List.filter_eq_nil_iff.mpr fun _ told =>
    List.filter_eq_nil_iff.mp none _ (mem_tellings told).1

/-- If one pair with a key leaves, one call is about the key, or there is no hook to call. -/
theorem filter_tellings_of_singleton (standing : Option (String × Nat))
    (one : gone.filter (·.1 == key) = [pair]) :
    standing = none ∧ (tellings standing gone).filter (·.key == key) = [] ∨
      ∃ report, (tellings standing gone).filter (·.key == key) = [report] ∧ report.pair = pair := by
  cases standing with
  | none => exact .inl ⟨rfl, rfl⟩
  | some standing =>
    rw [← map_pair_tellings standing gone, List.filter_map] at one
    exact .inr (List.map_eq_singleton_iff.mp one)

end

/-! ## Calls until one fails -/

/-- The calls that are made of those that are to be made: no more after one that fails. -/
def untilFailure (reaction : Nat → κ → ν → Option String) : List (Report κ ν) → List (Report κ ν)
  | [] => []
  | report :: rest =>
    match report.failure? reaction with
    | none => report :: untilFailure reaction rest
    | some _ => [report]

section

variable {reaction : Nat → κ → ν → Option String} {reports : List (Report κ ν)}
  {report : Report κ ν} {text : String}

/-- The calls that are made are the first ones of those to be made. -/
theorem untilFailure_isPrefix (reaction : Nat → κ → ν → Option String)
    (reports : List (Report κ ν)) : untilFailure reaction reports <+: reports := by
  induction reports with
  | nil => exact List.prefix_rfl
  | cons report rest ih =>
    rw [untilFailure]
    split
    · exact (List.prefix_cons_inj report).mpr ih
    · exact ⟨rest, rfl⟩

/-- The first call that fails is made, and it is the only one made that fails. -/
theorem failure_of_mem_untilFailure (made : report ∈ untilFailure reaction reports)
    (fails : report.failure? reaction = some text) :
    reports.findSome? (·.failure? reaction) = some text := by
  induction reports with
  | nil => cases made
  | cons first rest ih =>
    rw [untilFailure] at made
    rw [List.findSome?_cons]
    cases failure : first.failure? reaction with
    | none =>
      rw [failure] at made
      rcases List.mem_cons.mp made with rfl | made
      · rw [failure] at fails
        cases fails
      · exact ih made
    | some complaint =>
      rw [failure] at made
      obtain rfl := List.mem_singleton.mp made
      exact failure.symm.trans fails

/-- If a call is to fail, one is made that does, with the text of the first that would. -/
theorem exists_mem_untilFailure (fails : reports.findSome? (·.failure? reaction) = some text) :
    ∃ report ∈ untilFailure reaction reports, report.failure? reaction = some text := by
  induction reports with
  | nil => cases fails
  | cons first rest ih =>
    rw [List.findSome?_cons] at fails
    rw [untilFailure]
    cases failure : first.failure? reaction with
    | none =>
      rw [failure] at fails
      obtain ⟨report, made, fails⟩ := ih fails
      exact ⟨report, List.mem_cons_of_mem _ made, fails⟩
    | some complaint =>
      rw [failure] at fails
      exact ⟨first, List.mem_singleton_self first, failure.trans fails⟩

/-- If no call fails, all are made. -/
theorem untilFailure_of_none (none : reports.findSome? (·.failure? reaction) = none) :
    untilFailure reaction reports = reports := by
  induction reports with
  | nil => rfl
  | cons first rest ih =>
    rw [List.findSome?_cons] at none
    rw [untilFailure]
    cases failure : first.failure? reaction with
    | none =>
      rw [failure] at none
      exact congrArg _ (ih none)
    | some complaint =>
      rw [failure] at none
      cases none

/-- All calls of a hook that does not fail are made. -/
theorem untilFailure_of_calm (calm : ∀ count key value, reaction count key value = none) :
    untilFailure reaction reports = reports :=
  untilFailure_of_none (List.findSome?_eq_none_iff.mpr fun _ _ => calm _ _ _)

/-- A single call is made whether it fails or not. -/
theorem untilFailure_of_length_le (le : reports.length ≤ 1) :
    untilFailure reaction reports = reports := by
  match reports with
  | [] => rfl
  | [report] =>
    rw [untilFailure]
    split <;> rfl

/-- No call but the last one that is made fails. -/
theorem failure_of_mem_dropLast (made : report ∈ (untilFailure reaction reports).dropLast) :
    report.failure? reaction = none := by
  induction reports with
  | nil => cases made
  | cons first rest ih =>
    rw [untilFailure] at made
    cases failure : first.failure? reaction with
    | none =>
      rw [failure] at made
      cases later : untilFailure reaction rest with
      | nil =>
        rw [later] at made
        cases made
      | cons second more =>
        rw [later] at made ih
        rcases List.mem_cons.mp made with rfl | made
        · exact failure
        · exact ih made
    | some complaint =>
      rw [failure] at made
      cases made

end

/-! ## Telling a hook that may fail -/

namespace Cache

variable [BEq κ] [Hashable κ] {α β : Type}

/-- The cache with a hook, or none, in place of its own. -/
def withHook (cache : Cache κ ν) (hook : Option (Hook κ ν)) : Cache κ ν :=
  { cache with hook }

section

variable (cache : Cache κ ν) (hook : Option (Hook κ ν))

@[simp] theorem withHook_index : (cache.withHook hook).index = cache.index := rfl

@[simp] theorem withHook_list : (cache.withHook hook).list = cache.list := rfl

@[simp] theorem withHook_hook : (cache.withHook hook).hook = hook := rfl

@[simp] theorem withHook_toList : (cache.withHook hook).toList = cache.toList := rfl

@[simp] theorem withHook_contains (key : κ) :
    (cache.withHook hook).contains key = cache.contains key := rfl

end

/-- The answer after calls of which some may fail. -/
def answerAfter (reaction : Nat → κ → ν → Option String) (reports : List (Report κ ν)) :
    Except Fault Unit :=
  match reports.findSome? (·.failure? reaction) with
  | none => .ok ()
  | some text => .error (.raised text)

/-- A call that does not fail is counted, and the step gives its answer. -/
theorem notify_withHook_of_calm {cache : Cache κ ν} {hook : Hook κ ν} {key : κ} {value : ν}
    (calm : hook.reaction (hook.calls + 1) key value = none) (a : α) :
    (cache.withHook (some hook)).notify key value a =
      { state := cache.withHook (some (hook.called 1))
        answer := .ok a
        reports := [⟨hook.tag, hook.calls + 1, key, value⟩] } := by
  simp only [notify, withHook, calm]
  rfl

/-- One that fails is counted as well, and the step ends in its text. -/
theorem notify_withHook_of_failure {cache : Cache κ ν} {hook : Hook κ ν} {key : κ} {value : ν}
    {text : String} (fails : hook.reaction (hook.calls + 1) key value = some text) (a : α) :
    (cache.withHook (some hook)).notify key value a =
      { state := cache.withHook (some (hook.called 1))
        answer := .error (.raised text)
        reports := [⟨hook.tag, hook.calls + 1, key, value⟩] } := by
  simp only [notify, withHook, fails]
  rfl

/-- **A hook is told of pairs until it fails.** Only its count changes in the cache. -/
theorem notifyAll_withHook (cache : Cache κ ν) (hook : Hook κ ν) (gone : List (κ × ν)) :
    (cache.withHook (some hook)).notifyAll gone =
      { state := cache.withHook (some (hook.called
          (untilFailure hook.reaction (tellings (some hook.standing) gone)).length))
        answer := answerAfter hook.reaction (tellings (some hook.standing) gone)
        reports := untilFailure hook.reaction (tellings (some hook.standing) gone) } := by
  induction gone generalizing hook with
  | nil => rfl
  | cons pair gone ih =>
    obtain ⟨key, value⟩ := pair
    rw [tellings_cons, untilFailure, answerAfter, List.findSome?_cons, notifyAll, Report.failure?]
    cases failure : hook.reaction (hook.calls + 1) key value with
    | none =>
      simp only [notify_withHook_of_calm failure, ih (hook.called 1), Hook.called_called]
      rfl
    | some text =>
      simp only [notify_withHook_of_failure failure]
      rfl

/-- Without a hook telling of pairs does nothing. -/
theorem notifyAll_withHook_none (cache : Cache κ ν) (gone : List (κ × ν)) :
    (cache.withHook none).notifyAll gone = (cache.withHook none).finish () := by
  induction gone with
  | nil => rfl
  | cons pair gone ih =>
    rw [notifyAll]
    simp only [notify, withHook_hook, finish] at ih ⊢
    rw [ih]
    rfl

/-- Only the count of the hook changes in the cache. -/
theorem state_notifyAll (cache : Cache κ ν) (hook : Option (Hook κ ν)) (gone : List (κ × ν)) :
    ((cache.withHook hook).notifyAll gone).state = cache.withHook
      (hook.map (·.called ((cache.withHook hook).notifyAll gone).reports.length)) := by
  cases hook with
  | none => rw [notifyAll_withHook_none]; rfl
  | some hook => rw [notifyAll_withHook]; rfl

end Cache

end PeerCache
