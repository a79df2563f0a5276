import Mathlib.Algebra.BigOperators.Finsupp.Basic
import PeerCache.Proofs.Flight.Part
import PeerCache.Proofs.Flight.Handover

/-!
# Keys are independent

A history is cut down to the steps of the tasks of one key (`onKey`). As long as no copy fails, the
flight after the history, seen under the key, is at every moment the flight after the steps that are
left of it by then (`part_before`). So a task of the key cannot tell whether there are others, and
the calls in flight are counted key by key (`registered_eq_sum`).
-/

namespace PeerCache

variable {ν ε : Type}

/-- Whatever a step does to a task that is there, it keeps its key. -/
theorem TaskStep.keeps_key {key : String} {old : Phase} {new : Option (String × Phase)}
    {started : Bool} (taskStep : TaskStep (some (key, old)) started new) :
    ∃ phase, new = some (key, phase) := by
  cases taskStep with
  | stays => exact ⟨old, rfl⟩
  | joins leader => exact ⟨_, rfl⟩
  | starts => exact ⟨_, rfl⟩
  | ends => exact ⟨_, rfl⟩

namespace Flight

variable {flight : Flight ν ε} {id : TaskId} {key : String}
  {ops : List (FlightOp ν ε)} {op : FlightOp ν ε} {n : Nat}

/-! ## The key of a task in a history -/

/-- The key under which a history first spawns a task. -/
def keyIn? (ops : List (FlightOp ν ε)) (id : TaskId) : Option String :=
  ops.findSome? fun
    | .spawn spawned key _ _ => if spawned = id then some key else none
    | _ => none

/-- The first spawn in a longer history is that of its front, if there is one. -/
theorem keyIn?_append (front back : List (FlightOp ν ε)) :
    keyIn? (front ++ back) id = (keyIn? front id).or (keyIn? back id) :=
  List.findSome?_append

/-- A single operation brings its subject the key it carries, if it is a spawn. -/
theorem keyIn?_singleton_subject : keyIn? [op] op.subject = op.key? := by
  cases op <;> simp [keyIn?, FlightOp.subject, FlightOp.key?]

/-- A single operation brings no key to any task but its subject. -/
theorem keyIn?_singleton_of_ne (apart : op.subject ≠ id) : keyIn? [op] id = none := by
  cases op with
  | spawn => simpa [keyIn?, FlightOp.subject] using apart
  | poll => rfl
  | resolve => rfl
  | abandon => rfl

/-- The key of a task. -/
def taskKey? (flight : Flight ν ε) (id : TaskId) : Option String :=
  (flight.task? id).map (·.key)

theorem taskKey?_eq_standing? : flight.taskKey? id = (flight.standing? id).map Prod.fst := by
  rw [taskKey?, standing?, Option.map_map]
  rfl

/-- Whoever is there keeps their key. -/
theorem Coherent.taskKey?_apply_of_some (h : flight.Coherent)
    (held : flight.taskKey? id = some key) : (flight.apply op).flight.taskKey? id = some key := by
  rw [taskKey?_eq_standing?, Option.map_eq_some_iff] at held
  obtain ⟨⟨_, phase⟩, standing, rfl⟩ := held
  have taskStep := (h.apply_taskStep op id).1
  rw [standing] at taskStep
  obtain ⟨phase', after⟩ := taskStep.keeps_key
  rw [taskKey?_eq_standing?, after, Option.map_some]

/-- Only a spawn brings a task along. -/
theorem taskKey?_apply_of_none (gone : flight.task? op.subject = none) :
    (flight.apply op).flight.taskKey? op.subject = op.key? := by
  have finished : ∀ task, flight.task? op.subject = some task → task.phase.isLive = false := by
    simp [gone]
  -- whatever else is done to a task that is not there leaves it so
  cases op with
  | spawn id key outcome startFault =>
    show ((flight.spawn id key outcome startFault).task? id).map _ = _
    rw [task?_spawn, if_pos ⟨rfl, gone⟩]
    rfl
  | poll id =>
    have same : flight.poll id = _ := poll_gone finished
    simp only [Flight.apply, same]
    exact congrArg _ gone
  | resolve id outcome =>
    have same : flight.resolve id outcome = _ := update_of_none gone
    simp only [Flight.apply, same]
    exact congrArg _ gone
  | abandon id =>
    have same : flight.abandon id = _ := abandon_gone finished
    simp only [Flight.apply, same]
    exact congrArg _ gone

/-- A step gives its subject the key it brings along, if that has none yet. -/
theorem Coherent.taskKey?_apply (h : flight.Coherent) :
    (flight.apply op).flight.taskKey? id = (flight.taskKey? id).or (keyIn? [op] id) := by
  cases held : flight.taskKey? id with
  | some key => rw [h.taskKey?_apply_of_some held, Option.some_or]
  | none =>
    rw [Option.none_or]
    by_cases mine : op.subject = id
    · subst mine
      rw [keyIn?_singleton_subject]
      exact taskKey?_apply_of_none (Option.map_eq_none_iff.mp held)
    · rw [keyIn?_singleton_of_ne mine, ← held, taskKey?_eq_standing?, taskKey?_eq_standing?,
        (h.apply_taskStep op id).2 mine]

/-- The key of a task is the one it is first spawned under. -/
theorem taskKey?_after (ops : List (FlightOp ν ε)) :
    (({} : Flight ν ε).after ops).taskKey? id = keyIn? ops id := by
  induction ops using List.reverseRecOn with
  | nil => simp [taskKey?, task?, keyIn?]
  | append_singleton ops op ih =>
    rw [after_append, keyIn?_append, ← ih]
    exact (coherent_after ops).taskKey?_apply

/-- The key for which an operation is done can be read off the history: it is that of its subject
once the operation has been done. For a spawn of a new id this is the key it brings along. -/
theorem keyFor?_before (found : ops[n]? = some op) :
    (before ops n).keyFor? op = keyIn? (ops.take (n + 1)) op.subject := by
  rw [List.take_add_one, found, Option.toList_some, keyIn?_append, keyIn?_singleton_subject,
    ← taskKey?_after]
  rfl

/-- A step is taken for the key that its subject has in the whole history, or for none. -/
theorem keyIn?_of_keyFor? (found : ops[n]? = some op)
    (held : (before ops n).keyFor? op = some key) : keyIn? ops op.subject = some key := by
  rw [keyFor?_before found] at held
  rw [← List.take_append_drop (n + 1) ops, keyIn?_append, held, Option.some_or]

/-! ## A list cut down -/

section CutDown

variable {α : Type} {p : α → Bool} {l : List α} {a : α}

/-- A count over the front of a list grows by one with each element that is kept. -/
theorem countP_take_succ_of_pos (found : l[n]? = some a) (keep : p a) :
    (l.take (n + 1)).countP p = (l.take n).countP p + 1 := by
  simp [List.take_add_one, found, keep]

/-- It does not grow with one that is left out. -/
theorem countP_take_succ_of_neg (found : l[n]? = some a) (leave : p a = false) :
    (l.take (n + 1)).countP p = (l.take n).countP p := by
  simp [List.take_add_one, found, leave]

/-- Nor does it past the end of the list. -/
theorem countP_take_succ_of_none (ended : l[n]? = none) :
    (l.take (n + 1)).countP p = (l.take n).countP p := by
  rw [List.take_add_one, ended, Option.toList_none, List.append_nil]

/-- What is left of a list keeps its place among what is left. -/
theorem getElem?_filter_countP (found : l[n]? = some a) (keep : p a) :
    (l.filter p)[(l.take n).countP p]? = some a := by
  induction l generalizing n with
  | nil => simp at found
  | cons head rest ih =>
    cases n with
    | zero =>
      obtain rfl := Option.some.inj found
      simp [keep]
    | succ n =>
      have behind := ih (n := n) found
      by_cases kept : p head
      · simp [kept, behind]
      · simp [kept, behind]

/-- Where the steps that are kept start the same tasks as before, a task of theirs is started by
these steps and by no others. -/
theorem startsAt_cutDown {P : FlightOp ν ε → Prop} {kept : List (FlightOp ν ε)} {m : Nat}
    (own : P (.poll id))
    (same : ∀ op, ops[n]? = some op → P op → ∃ step alone, stepAt ops n = some step ∧
      stepAt kept m = some alone ∧ alone.started = step.started) :
    StartsAt ops n id ↔ (∃ op, ops[n]? = some op ∧ P op) ∧ StartsAt kept m id := by
  constructor
  · intro starts
    have found : ops[n]? = some (.poll id) := TakesUpAt.polled (.inl ⟨rfl, starts⟩)
    obtain ⟨step, alone, there, thereAlone, eq⟩ := same _ found own
    obtain ⟨step', there', mem⟩ := starts
    obtain rfl := Option.some.inj (there.symm.trans there')
    exact ⟨⟨_, found, own⟩, alone, thereAlone, eq ▸ mem⟩
  · rintro ⟨⟨op, found, own'⟩, alone', there', mem⟩
    obtain ⟨step, alone, there, thereAlone, eq⟩ := same _ found own'
    obtain rfl := Option.some.inj (thereAlone.symm.trans there')
    exact ⟨step, there, eq ▸ mem⟩

end CutDown

/-! ## The steps of one key -/

/-- The steps of a history that are done to the tasks of one key. -/
def onKey (ops : List (FlightOp ν ε)) (key : String) : List (FlightOp ν ε) :=
  ops.filter fun op => keyIn? ops op.subject = some key

/-- How many of the first `n` steps of a history are done to the tasks of one key. -/
def countOn (ops : List (FlightOp ν ε)) (key : String) (n : Nat) : Nat :=
  (ops.take n).countP fun op => keyIn? ops op.subject = some key

theorem countOn_succ_of_key (found : ops[n]? = some op) (mine : keyIn? ops op.subject = some key) :
    countOn ops key (n + 1) = countOn ops key n + 1 :=
  countP_take_succ_of_pos found (by simpa using mine)

theorem countOn_succ_of_ne (found : ops[n]? = some op)
    (foreign : keyIn? ops op.subject ≠ some key) :
    countOn ops key (n + 1) = countOn ops key n :=
  countP_take_succ_of_neg found (by simpa using foreign)

theorem countOn_succ_of_none (ended : ops[n]? = none) :
    countOn ops key (n + 1) = countOn ops key n :=
  countP_take_succ_of_none ended

theorem getElem?_onKey (found : ops[n]? = some op) (mine : keyIn? ops op.subject = some key) :
    (onKey ops key)[countOn ops key n]? = some op :=
  getElem?_filter_countP found (by simpa using mine)

/-! ## The calls in flight, key by key -/

/-- Under one key there is one call in flight or none. -/
theorem registered_part :
    (flight.part key).registered = if (flight.leader? key).isSome then 1 else 0 := by
  have entries : (flight.part key).registry =
      match flight.leader? key with
      | some id => (∅ : Std.ExtTreeMap String TaskId).insert key id
      | none => ∅ := by
    refine Std.ExtTreeMap.ext_getElem? fun wanted => ?_
    show (flight.part key).leader? wanted = _
    rw [leader?_part]
    by_cases same : wanted = key
    · subst same
      cases flight.leader? wanted <;> simp
    · cases flight.leader? key <;> simp [same, Ne.symm same]
  rw [registered, entries]
  cases flight.leader? key <;> simp [Std.ExtTreeMap.size_insert]

/-- The keys of the registry are those that have a leader. -/
theorem mem_keys_registry : key ∈ flight.registry.keys ↔ (flight.leader? key).isSome := by
  rw [Std.ExtTreeMap.mem_keys, leader?, Std.ExtTreeMap.isSome_getElem?_iff_mem]

/-- The calls in flight are those under each key, taken together. -/
theorem registered_eq_sum (flight : Flight ν ε) :
    ∃ counts : String →₀ ℕ, (∀ key, counts key = (flight.part key).registered) ∧
      flight.registered = counts.sum fun _ count => count := by
  have one : ∀ key ∈ flight.registry.keys.toFinset, (flight.part key).registered = 1 := by
    intro key mem
    rw [registered_part, if_pos (mem_keys_registry.mp (List.mem_toFinset.mp mem))]
  have held : ∀ key, (flight.part key).registered ≠ 0 → key ∈ flight.registry.keys.toFinset := by
    intro key some_
    rw [List.mem_toFinset, mem_keys_registry]
    by_contra free
    rw [registered_part, if_neg free] at some_
    exact some_ rfl
  have distinct : flight.registry.keys.Nodup := Std.ExtTreeMap.nodup_keys
  refine ⟨Finsupp.onFinset _ _ held, fun key => rfl, ?_⟩
  calc flight.registered
      = flight.registry.keys.toFinset.card := by
        rw [List.toFinset_card_of_nodup distinct, Std.ExtTreeMap.length_keys]
        rfl
    _ = ∑ key ∈ flight.registry.keys.toFinset, (flight.part key).registered := by
        rw [Finset.sum_congr rfl one, Finset.sum_const, smul_eq_mul, Nat.mul_one]
    _ = _ := by rw [Finsupp.onFinset_sum held fun _ => rfl]

section Copied

variable (copied : ∀ n id, ¬ CopyFailsAt ops n id)

include copied

/-- **Seen under a key, the flight after a history is the flight after the steps of that key.** -/
theorem part_before (key : String) (n : Nat) :
    (before ops n).part key = before (onKey ops key) (countOn ops key n) := by
  induction n with
  | zero => rfl
  | succ n ih =>
    cases found : ops[n]? with
    | none => rw [before_succ_of_none found, countOn_succ_of_none found, ih]
    | some op =>
      have coherent := coherent_before ops n
      have kindred : (before ops n).Kindred := kindred_after _
      have alone : ((before ops n).part key).Coherent := ih ▸ coherent_before _ _
      rw [before_succ found]
      by_cases mine : keyIn? ops op.subject = some key
      · have applied := part_apply coherent alone kindred fun held is =>
          Option.some.inj ((keyIn?_of_keyFor? found is).symm.trans mine)
        rw [countOn_succ_of_key found mine, before_succ (getElem?_onKey found mine), ← ih,
          ← applied]
        rfl
      · rw [countOn_succ_of_ne found mine, ← ih]
        exact part_apply_of_ne coherent kindred (fun is => mine (keyIn?_of_keyFor? found is))
          (answer_ne_copyFailed copied found)

/-- A step of the key is the same step among those that are left. -/
theorem stepAt_onKey (found : ops[n]? = some op) (mine : keyIn? ops op.subject = some key) :
    ∃ step, stepAt ops n = some step ∧
      stepAt (onKey ops key) (countOn ops key n) = some (step.part key) := by
  have alone : ((before ops n).part key).Coherent := part_before copied key n ▸ coherent_before _ _
  have applied := part_apply (coherent_before ops n) alone (kindred_after _) fun held is =>
    Option.some.inj ((keyIn?_of_keyFor? found is).symm.trans mine)
  refine ⟨_, stepAt_eq found, ?_⟩
  rw [stepAt_eq (getElem?_onKey found mine), ← part_before copied, applied]

/-- A task of the key is the same task in the shorter history, at the moment that corresponds. Its
key by now is the one it has in the whole history, so it is in the part. -/
theorem task?_before_onKey (mine : keyIn? ops id = some key) :
    (before (onKey ops key) (countOn ops key n)).task? id = (before ops n).task? id := by
  rw [← part_before copied, task?_part]
  cases found : (before ops n).task? id with
  | none => rfl
  | some task =>
    -- the key it has by now is the one it has in the whole history
    have now : keyIn? (ops.take n) id = some task.key := by
      rw [← taskKey?_after]
      exact congrArg (Option.map _) found
    have same : keyIn? ops id = some task.key := by
      rw [← List.take_append_drop n ops, keyIn?_append, now, Option.some_or]
    simp [Option.filter_some, Option.some.inj (same.symm.trans mine)]

/-- A task of the key is started by the corresponding step of the shorter history, and by that step
only. -/
theorem startsAt_onKey (mine : keyIn? ops id = some key) :
    StartsAt ops n id ↔
      (∃ op, ops[n]? = some op ∧ keyIn? ops op.subject = some key) ∧
        StartsAt (onKey ops key) (countOn ops key n) id := by
  refine startsAt_cutDown mine fun op found own => ?_
  obtain ⟨step, there, alone⟩ := stepAt_onKey copied found own
  exact ⟨step, _, there, alone, rfl⟩

/-- As many calls are in flight at any moment as in the histories of the single keys taken together.
All but finitely many of these have none, so that there is a sum to speak of. -/
theorem inFlight_onKey (n : Nat) :
    ∃ counts : String →₀ ℕ,
      (∀ key, (before (onKey ops key) (countOn ops key n)).inFlight = .ok (counts key)) ∧
        (before ops n).inFlight = .ok (counts.sum fun _ count => count) := by
  obtain ⟨counts, each, total⟩ := registered_eq_sum (before ops n)
  have good := good_before copied n
  refine ⟨counts, fun key => ?_, ?_⟩
  · have alone : ((before ops n).part key).poisoned = false := good
    rw [← part_before copied, inFlight_of_good alone, each]
  · rw [inFlight_of_good good, total]

end Copied

/-- **Keys are independent.** In a history in which no copy of a result fails, whatever else fails
or is dropped, the steps of all tasks of other keys can be left out, and for the tasks of a key:

* at every moment they are the same tasks, and awake or not alike;
* each of their steps is still there, is answered alike, and starts and reports the same;
* their computations are started by the same steps, and by no others.

As many calls are in flight at any moment as there are, taken together, when each key is on its
own. -/
theorem keys_independent (ops : List (FlightOp ν ε)) (copied : ∀ n id, ¬ CopyFailsAt ops n id) :
    (∀ key n id, keyIn? ops id = some key →
      (before (onKey ops key) (countOn ops key n)).task? id = (before ops n).task? id ∧
      (before (onKey ops key) (countOn ops key n)).isAwake id = (before ops n).isAwake id) ∧
    (∀ key n op, ops[n]? = some op → keyIn? ops op.subject = some key →
      (onKey ops key)[countOn ops key n]? = some op ∧
      ∃ step alone, stepAt ops n = some step ∧
        stepAt (onKey ops key) (countOn ops key n) = some alone ∧ alone.answer = step.answer ∧
        alone.started = step.started ∧ alone.events = step.events) ∧
    (∀ key n id, keyIn? ops id = some key →
      (StartsAt ops n id ↔ (∃ op, ops[n]? = some op ∧ keyIn? ops op.subject = some key) ∧
        StartsAt (onKey ops key) (countOn ops key n) id)) ∧
    ∀ n, ∃ counts : String →₀ ℕ,
      (∀ key, (before (onKey ops key) (countOn ops key n)).inFlight = .ok (counts key)) ∧
        (before ops n).inFlight = .ok (counts.sum fun _ count => count) := by
  refine ⟨fun key n id mine => ?_, fun key n op found mine => ?_,
    fun key n id mine => startsAt_onKey copied mine, inFlight_onKey copied⟩
  · have same := task?_before_onKey copied (n := n) mine
    exact ⟨same, congrArg (Option.any Task.isAwake) same⟩
  · obtain ⟨step, there, alone⟩ := stepAt_onKey copied found mine
    exact ⟨getElem?_onKey found mine, step, _, there, alone, rfl, rfl, rfl⟩

/-- Between the steps of two tasks of "a" a task of "b" fails and another one follows in its place.
Without them task 2 is started all the same when task 0 is dropped, at the sixth step instead of the
tenth. -/
theorem keys_independent_interleaved :
    let ops : List (FlightOp Nat Nat) :=
      [.spawn 0 "a" none none, .spawn 1 "b" none (some "no start"), .spawn 2 "a" none none, .poll 0,
        .poll 1, .poll 2, .spawn 3 "b" none none, .abandon 0, .poll 3, .poll 2]
    (∀ n id, ¬ CopyFailsAt ops n id) ∧ countOn ops "a" 9 = 5 ∧
      StartsAt ops 9 2 ∧ StartsAt (onKey ops "a") 5 2 ∧
      (before (onKey ops "a") 5).isAwake 2 = (before ops 9).isAwake 2 := by
  intro ops
  have copied : ∀ n id, ¬ CopyFailsAt ops n id := not_copyFailsAt (by decide)
  have starts : StartsAt ops 9 2 := ⟨_, rfl, List.mem_singleton.mpr rfl⟩
  obtain ⟨tasks, -, started, -⟩ := keys_independent ops copied
  exact ⟨copied, rfl, starts, ((started "a" 9 2 rfl).mp starts).2, (tasks "a" 9 2 rfl).2⟩

end Flight

end PeerCache
