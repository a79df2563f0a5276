import PeerCache.Proofs.Cache.Telling

/-!
# What the hook does not change

`Tells` says that a step tells the hook of some pairs and then gives some answer, both the same
whatever the hook is and whether there is one. Every operation but those that exchange the hook is
such a step (`isOblivious_apply`), since a cache calls its hook only when it has nothing else left
to do. So the hook decides how many of the calls are made (`Tells.uncounted_isPrefix`,
`Tells.uncounted_eq`) and whether the step ends in its fault (`Tells.answer_eq_error_iff`); what the
cache holds afterwards is what it holds without a hook (`Tells.state_eq`).
-/

namespace PeerCache

variable {κ ν α β : Type} [BEq κ] [Hashable κ]

/-- The operation leaves the hook where it is. -/
def CacheOp.KeepsHook : CacheOp κ ν → Prop
  | .setHook _ _ | .clearHook => False
  | _ => True

omit [BEq κ] [Hashable κ] in
/-- Only two operations exchange the hook, and they do nothing else. -/
theorem CacheOp.keepsHook_or (op : CacheOp κ ν) :
    op.KeepsHook ∨ (∃ tag reaction, op = .setHook tag reaction) ∨ op = .clearHook := by
  cases op with
  | setHook tag reaction => exact .inr (.inl ⟨tag, reaction, rfl⟩)
  | clearHook => exact .inr (.inr rfl)
  | _ => exact .inl trivial

omit [BEq κ] [Hashable κ] in
/-- An operation that keeps the hook installs none that could fail. -/
theorem CacheOp.KeepsHook.calm {op : CacheOp κ ν} (keeps : op.KeepsHook) : op.Calm := by
  cases op with
  | setHook => exact keeps.elim
  | _ => trivial

namespace Cache

variable {cache after : Cache κ ν} {gone : List (κ × ν)} {answer : Except Fault α}
  {run : Option (Hook κ ν) → CacheStep κ ν (Cache κ ν) α}

/-- Whatever the hook is, a step tells it of some pairs and then answers. -/
structure Tells (run : Option (Hook κ ν) → CacheStep κ ν (Cache κ ν) α) (after : Cache κ ν)
    (gone : List (κ × ν)) (answer : Except Fault α) : Prop where
  state : ∀ hook, (run hook).state = ((after.withHook hook).notifyAll gone).state
  answer : ∀ hook, (run hook).answer =
    ((after.withHook hook).notifyAll gone).answer.bind fun () => answer
  reports : ∀ hook, (run hook).reports = ((after.withHook hook).notifyAll gone).reports

/-- The cache that such a step leaves is the same for every hook but for its count. -/
theorem Tells.state_eq (tells : Tells run after gone answer) (hook : Option (Hook κ ν)) :
    (run hook).state = after.withHook (hook.map (·.called (run hook).reports.length)) := by
  rw [tells.state, tells.reports, state_notifyAll]

/-- The pairs of which a step tells, and its answer, are the same for every hook. -/
def IsOblivious (run : Option (Hook κ ν) → CacheStep κ ν (Cache κ ν) α) : Prop :=
  ∃ after gone answer, Tells run after gone answer

theorem isOblivious_finish (cache : Cache κ ν) (a : α) :
    IsOblivious fun hook => (cache.withHook hook).finish a :=
  ⟨cache, [], .ok a, fun _ => rfl, fun _ => rfl, fun _ => rfl⟩

/-- Neither does a step that finds a slot not as it should be: it ends before anything has left. -/
theorem isOblivious_stop (cache : Cache κ ν) (fault : Fault) :
    IsOblivious fun hook =>
      { state := cache.withHook hook, answer := (.error fault : Except Fault α) } :=
  ⟨cache, [], .error fault, fun _ => rfl, fun _ => rfl, fun _ => rfl⟩

/-- Telling the hook of pairs does that and nothing else. -/
theorem isOblivious_notifyAll (cache : Cache κ ν) (gone : List (κ × ν)) :
    IsOblivious fun hook => (cache.withHook hook).notifyAll gone := by
  refine ⟨cache, gone, .ok (), fun _ => rfl, fun hook => ?_, fun _ => rfl⟩
  cases ((cache.withHook hook).notifyAll gone).answer <;> rfl

/-- One pair is told of as a list of one pair is. The answer after the call is given only if the
call does not fail. -/
theorem isOblivious_notify (cache : Cache κ ν) (key : κ) (value : ν) (a : α) :
    IsOblivious fun hook => (cache.withHook hook).notify key value a := by
  -- telling of one pair is telling of a list of one pair
  have alone : ∀ hook : Option (Hook κ ν), (cache.withHook hook).notify key value a =
      { state := ((cache.withHook hook).notifyAll [(key, value)]).state
        answer := ((cache.withHook hook).notifyAll [(key, value)]).answer.bind fun () => .ok a
        reports := ((cache.withHook hook).notifyAll [(key, value)]).reports } := by
    intro hook
    match hook with
    | none => rfl
    | some hook =>
      rw [notifyAll]
      cases failure : hook.reaction (hook.calls + 1) key value with
      | none => simp only [notify_withHook_of_calm failure]; rfl
      | some text => simp only [notify_withHook_of_failure failure]; rfl
  simp only [alone]
  exact ⟨cache, [(key, value)], .ok a, fun _ => rfl, fun _ => rfl, fun _ => rfl⟩

/-- The list is changed before anybody is told, and the change does not see the hook. -/
theorem isOblivious_relink (cache : Cache κ ν)
    (change : RecencyList κ ν → Except SlotFault (RecencyList κ ν × β))
    (next : Cache κ ν → β → CacheStep κ ν (Cache κ ν) α)
    (later : ∀ (cache : Cache κ ν) b, IsOblivious fun hook => next (cache.withHook hook) b) :
    IsOblivious fun hook => (cache.withHook hook).relink change next := by
  obtain ⟨maxEntries, index, list, hook⟩ := cache
  simp only [relink, withHook]
  cases change list with
  | ok changed => exact later ⟨maxEntries, index, changed.1, none⟩ changed.2
  | error fault => exact isOblivious_stop { maxEntries } (.slot fault)

/-- An answer that is passed on in another form was given for every hook alike. -/
theorem IsOblivious.mapAnswer (oblivious : IsOblivious run) (f : α → β) :
    IsOblivious fun hook => (run hook).mapAnswer f := by
  obtain ⟨after, gone, answer, tells⟩ := oblivious
  refine ⟨after, gone, answer.map f, tells.state, fun hook => ?_, tells.reports⟩
  rw [CacheStep.mapAnswer, tells.answer hook]
  cases ((after.withHook hook).notifyAll gone).answer <;> rfl

/-! ## The operations -/

/-- A key is looked up and its pair moved without telling the hook. -/
theorem isOblivious_get (cache : Cache κ ν) (key : κ) :
    IsOblivious fun hook => (cache.withHook hook).get key := by
  simp only [Cache.get, withHook_index]
  cases cache.index[key]? with
  | none => exact isOblivious_finish cache none
  | some slot => exact isOblivious_relink cache _ _ fun cache b => isOblivious_finish cache _

theorem isOblivious_peek (cache : Cache κ ν) (key : κ) :
    IsOblivious fun hook => (cache.withHook hook).peek key := by
  simp only [Cache.peek, withHook_index, withHook_list]
  cases cache.index[key]? with
  | none => exact isOblivious_finish cache none
  | some slot =>
    simp only
    cases cache.list.node slot with
    | ok n => exact isOblivious_finish cache _
    | error fault => exact isOblivious_stop cache _

/-- The pair has left the list and the index when the hook is told of it. -/
theorem isOblivious_remove (cache : Cache κ ν) (key : κ) :
    IsOblivious fun hook => (cache.withHook hook).remove key := by
  simp only [Cache.remove, withHook_index]
  cases cache.index[key]? with
  | none => exact isOblivious_finish cache none
  | some slot =>
    exact isOblivious_relink cache _ _ fun cache entry =>
      isOblivious_notify { cache with index := cache.index.erase key } entry.1 entry.2 _

theorem isOblivious_removeOldest (cache : Cache κ ν) :
    IsOblivious fun hook => (cache.withHook hook).removeOldest := by
  simp only [Cache.removeOldest, withHook_list]
  cases cache.list.back with
  | none => exact isOblivious_finish cache none
  | some slot =>
    exact isOblivious_relink cache _ _ fun cache entry =>
      isOblivious_notify { cache with index := cache.index.erase entry.1 } entry.2.1 entry.2.2 _

/-- A cache with too many pairs is shrunk by giving up the oldest. -/
theorem shrink_of_exceeds (tooMany : cache.maxEntries ≠ 0 ∧ cache.maxEntries < cache.size) :
    cache.shrink.state = cache.removeOldest.state ∧
      cache.shrink.answer = cache.removeOldest.answer.map (fun _ => ()) ∧
      cache.shrink.reports = cache.removeOldest.reports := by
  rw [shrink, if_pos tooMany]
  generalize cache.removeOldest = evicted
  obtain ⟨⟨state, _ | _, events⟩, reports⟩ := evicted
  · exact ⟨rfl, rfl, rfl⟩
  · exact ⟨rfl, rfl, rfl⟩

/-- The bound does not depend on the hook, so either there is nothing to give up for every hook, or
the oldest pair goes. -/
theorem isOblivious_shrink (cache : Cache κ ν) :
    IsOblivious fun hook => (cache.withHook hook).shrink := by
  by_cases tooMany : cache.maxEntries ≠ 0 ∧ cache.maxEntries < cache.size
  · obtain ⟨after, gone, answer, tells⟩ :=
      (isOblivious_removeOldest cache).mapAnswer fun _ => ()
    have same := fun hook => @shrink_of_exceeds _ _ _ _ (cache.withHook hook) tooMany
    exact ⟨after, gone, answer, fun hook => (same hook).1.trans (tells.state hook),
      fun hook => (same hook).2.1.trans (tells.answer hook),
      fun hook => (same hook).2.2.trans (tells.reports hook)⟩
  · have same : (fun hook => (cache.withHook hook).shrink) = fun hook =>
        (cache.withHook hook).finish () := funext fun _ => if_neg tooMany
    rw [same]
    exact isOblivious_finish cache ()

/-- A key that is there takes its new value in silence. After a new one has come in, the hook is
told of what the bound gives up. -/
theorem isOblivious_add (cache : Cache κ ν) (key : κ) (value : ν) :
    IsOblivious fun hook => (cache.withHook hook).add key value := by
  simp only [Cache.add, withHook_index]
  cases cache.index[key]? with
  | none =>
    exact isOblivious_relink cache _ _ fun cache slot =>
      isOblivious_shrink { cache with index := cache.index.insert key slot }
  | some slot => exact isOblivious_relink cache _ _ fun cache () => isOblivious_finish cache ()

/-- All pairs have left before the hook is told of the first of them. -/
theorem isOblivious_clear (cache : Cache κ ν) :
    IsOblivious fun hook => (cache.withHook hook).clear :=
  isOblivious_relink cache _ _ fun cache entries =>
    isOblivious_notifyAll { cache with index := ∅ } entries

/-- **No operation looks at the hook before it tells it of something.** The two that exchange it are
left out. -/
theorem isOblivious_apply (cache : Cache κ ν) {op : CacheOp κ ν} (keeps : op.KeepsHook) :
    IsOblivious fun hook => (cache.withHook hook).apply op := by
  cases op with
  | add key value => exact (isOblivious_add cache key value).mapAnswer _
  | get key => exact (isOblivious_get cache key).mapAnswer _
  | peek key => exact (isOblivious_peek cache key).mapAnswer _
  | contains key => exact isOblivious_finish cache (CacheAnswer.flag (cache.contains key))
  | remove key => exact (isOblivious_remove cache key).mapAnswer _
  | removeOldest => exact (isOblivious_removeOldest cache).mapAnswer _
  | clear => exact (isOblivious_clear cache).mapAnswer _
  | setHook tag reaction => exact keeps.elim
  | clearHook => exact keeps.elim
  | entries =>
    simp only [Cache.apply, withHook_toList]
    cases cache.toList with
    | ok entries => exact isOblivious_finish cache _
    | error fault => exact isOblivious_stop cache _

/-! ## What such a step does with a hook -/

namespace Tells

variable {a : α} {hook calm : Option (Hook κ ν)} {h : Hook κ ν} {report : Report κ ν}

theorem reports_none (tells : Tells run after gone answer) : (run none).reports = [] := by
  rw [tells.reports, notifyAll_withHook_none]
  rfl

/-- A hook is told of the pairs that leave, one after the other, until it fails. -/
theorem reports_some (tells : Tells run after gone answer) (h : Hook κ ν) :
    (run (some h)).reports = untilFailure h.reaction (tellings (some h.standing) gone) := by
  rw [tells.reports, notifyAll_withHook]

theorem answer_none (tells : Tells run after gone answer) : (run none).answer = answer := by
  rw [tells.answer, notifyAll_withHook_none]
  rfl

/-- A step with a hook gives the answer that it gives without one, after calls that do not fail. -/
theorem answer_some (tells : Tells run after gone answer) (h : Hook κ ν) :
    (run (some h)).answer =
      (answerAfter h.reaction (tellings (some h.standing) gone)).bind fun () => answer := by
  rw [tells.answer, notifyAll_withHook]

/-- The hook is told of pairs that leave. -/
theorem pair_mem (tells : Tells run after gone answer) (hook : Option (Hook κ ν))
    (told : report ∈ (run hook).reports) : report.pair ∈ gone := by
  cases hook with
  | none =>
    rw [tells.reports_none] at told
    cases told
  | some h =>
    rw [tells.reports_some] at told
    exact (mem_tellings ((untilFailure_isPrefix _ _).subset told)).1

/-- The step ends in a fault just when a call of the hook fails. -/
theorem answer_eq_error_iff (tells : Tells run after gone (.ok a)) (hook : Option (Hook κ ν))
    (fault : Fault) :
    (run hook).answer = .error fault ↔ ∃ h text, hook = some h ∧ fault = .raised text ∧
      ∃ report ∈ (run hook).reports, report.failure? h.reaction = some text := by
  cases hook with
  | none =>
    rw [tells.answer_none]
    exact iff_of_false nofun nofun
  | some h =>
    rw [tells.answer_some, tells.reports_some, answerAfter]
    constructor
    · intro ended
      cases failure : (tellings (some h.standing) gone).findSome? (·.failure? h.reaction) with
      | none => rw [failure] at ended; cases ended
      | some text =>
        rw [failure] at ended
        exact ⟨h, text, rfl, (Except.error.inj ended).symm, exists_mem_untilFailure failure⟩
    · rintro ⟨_, text, ⟨⟩, rfl, report, made, fails⟩
      rw [failure_of_mem_untilFailure made fails]
      rfl

/-- A step that does not end in a fault answers as without a hook. -/
theorem answer_eq_of_ok (tells : Tells run after gone (.ok a)) (hook : Option (Hook κ ν)) {b : α}
    (ended : (run hook).answer = .ok b) : (run none).answer = .ok b := by
  rw [tells.answer_none, ← ended, tells.answer]
  cases told : ((after.withHook hook).notifyAll gone).answer with
  | ok => rfl
  | error fault =>
    rw [tells.answer, told] at ended
    cases ended

/-- No call but the last one fails. -/
theorem failure_of_mem_dropLast (tells : Tells run after gone answer) (installed : hook = some h)
    (told : report ∈ (run hook).reports.dropLast) : report.failure? h.reaction = none := by
  rw [installed, tells.reports_some] at told
  exact PeerCache.failure_of_mem_dropLast told

/-- A hook that does not fail is told of everything. -/
theorem uncounted_of_calm (tells : Tells run after gone answer) (calm : h.Calm) :
    (run (some h)).reports.map Report.uncounted = gone.map (h.tag, ·) := by
  rw [tells.reports_some, untilFailure_of_calm calm, map_uncounted_tellings]
  rfl

/-- One that may fail is told of the first of these pairs. -/
theorem uncounted_isPrefix (tells : Tells run after gone answer)
    (tags : calm.map Hook.tag = hook.map Hook.tag) (calms : ∀ h ∈ calm, h.Calm) :
    (run hook).reports.map Report.uncounted <+: (run calm).reports.map Report.uncounted := by
  match hook, calm, tags with
  | none, _, _ =>
    rw [tells.reports_none]
    exact List.nil_prefix
  | some h, some h', tags =>
    rw [tells.uncounted_of_calm (calms h' rfl), Option.some.inj tags, tells.reports_some,
      show h.tag = h.standing.1 from rfl, ← map_uncounted_tellings]
    exact (untilFailure_isPrefix _ _).map _

/-- It is told of all of them if it does not fail, and of one pair in any case. -/
theorem uncounted_eq (tells : Tells run after gone answer)
    (tags : calm.map Hook.tag = hook.map Hook.tag) (calms : ∀ h ∈ calm, h.Calm)
    (all : gone.length ≤ 1 ∨ ∃ b, (run hook).answer = .ok b) :
    (run hook).reports.map Report.uncounted = (run calm).reports.map Report.uncounted := by
  match hook, calm, tags with
  | none, none, _ => rfl
  | some h, some h', tags =>
    have made : untilFailure h.reaction (tellings (some h.standing) gone) =
        tellings (some h.standing) gone := by
      rcases all with short | ⟨b, ended⟩
      · exact untilFailure_of_length_le (length_tellings h.standing gone ▸ short)
      · rw [tells.answer_some, answerAfter] at ended
        cases failure : (tellings (some h.standing) gone).findSome? (·.failure? h.reaction) with
        | none => exact untilFailure_of_none failure
        | some text => rw [failure] at ended; cases ended
    rw [tells.uncounted_of_calm (calms h' rfl), Option.some.inj tags, tells.reports_some, made,
      map_uncounted_tellings]
    rfl

end Tells

end Cache

end PeerCache
