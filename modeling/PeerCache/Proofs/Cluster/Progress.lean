import PeerCache.Proofs.Cluster.Course
import PeerCache.Proofs.Cluster.Due

/-!
# Reads end

When time has passed, every read is `Ready`, so that its next poll ends it, or it `Trails` one that
began earlier: its task is behind the task of that read. No poll of a read undoes either, and
polling the earlier read makes the one that trails it ready. So reads end if each is polled, and
polled after those that began before it (`Sound.done_of_pollsAll`).
-/

namespace PeerCache.Batch

variable {batch : Batch} {cluster : Cluster} {members : List String} {peer other : Peer}
  {read : Read} {task : TaskId} {key : String} {i j k : Nat}

/-! ## Ready reads -/

/-- The read has ended, or the next poll ends it. -/
def Ready (batch : Batch) (i : Nat) : Prop :=
  ∃ read, batch.reads[i]? = some read ∧ (read.Done ∨ ∃ task, read.progress = .waiting task ∧
    ∃ peer ∈ batch.cluster.peers, peer.id = read.owner ∧ peer.flight.Due task)

/-- The task of the read is behind that of another one. -/
def Trails (batch : Batch) (i j : Nat) : Prop :=
  ∃ read ahead, batch.reads[i]? = some read ∧ batch.reads[j]? = some ahead ∧
    ahead.owner = read.owner ∧ ∃ task leader, read.progress = .waiting task ∧
      ahead.progress = .waiting leader ∧ ∃ peer ∈ batch.cluster.peers, peer.id = read.owner ∧
        ∃ key, peer.flight.Behind task leader key

/-! ## One poll -/

/-- When a task of one peer is polled, a peer has its flight as before, or that poll has made it. -/
theorem exists_onlyAt_resume (P : Flight String LoadError → Prop) (sound : cluster.Sound members)
    (mem : peer ∈ cluster.peers) (there : other ∈ cluster.peers)
    (untouched : other ≠ peer → P other.flight)
    (polled : other = peer → other.flight.Loads → P (other.flight.poll task).flight) :
    ∃ later ∈ (cluster.mapPeers
      (Cluster.onlyAt peer.id fun p => (p.resume key task).state)).peers,
      later.id = other.id ∧ P later.flight := by
  refine ⟨_, Cluster.mem_mapPeers.mpr ⟨other, there, rfl⟩,
    Cluster.id_onlyAt fun _ => Peer.id_resume, ?_⟩
  by_cases here : other.id = peer.id
  · obtain ⟨pairs, peerSound⟩ := sound.peers other there
    rw [Cluster.onlyAt_of_eq here, Peer.resume, Peer.flight_receive]
    exact polled (sound.eq_of_id_eq there mem here) peerSound.loads
  · rw [Cluster.onlyAt_of_ne here]
    exact untouched fun same => here (congrArg Peer.id same)

/-- A task that is due brings its read to an end. -/
theorem finished_of_due {pairs : List (String × String)} (sound : peer.Sound pairs)
    (awaits : peer.flight.Awaits task key) (due : peer.flight.Due task) :
    (peer.resume key task).answer = .ok (.finished (Store.load key)) := by
  obtain ⟨loads, -⟩ := sound.loads.continue awaits
  exact (sound.receive_returned loads (sound.loads.returned_of_due awaits due)).1

/-- A task behind a leader keeps its read waiting. -/
theorem waiting_of_behind {pairs : List (String × String)} {leader : TaskId} {wanted : String}
    (sound : peer.Sound pairs) (awaits : peer.flight.Awaits task key)
    (behind : peer.flight.Behind task leader wanted) :
    (peer.resume key task).answer = .ok (.waiting task) := by
  obtain ⟨loads, -⟩ := sound.loads.continue awaits
  exact (sound.receive_pending loads (sound.loads.pending_of_behind behind)).1

/-- A read that has ended stays so. -/
theorem Sound.done_take_resume (sound : batch.Sound members) (found : batch.reads[i]? = some read)
    (done : read.Done) (k : Nat) : (batch.take (.resume k)).state.reads[i]? = some read := by
  obtain ⟨-, resumed⟩ := sound.resumed k
  generalize (batch.take (.resume k)).state = later at resumed ⊢
  cases resumed with
  | idle => exact found
  | went found' waits =>
    have apart : k ≠ i := by
      rintro rfl
      obtain rfl := Option.some.inj (found.symm.trans found')
      cases done.symm.trans waits
    rw [Array.getElem?_setIfInBounds_ne apart, found]

/-- **Polling a ready read ends it.** -/
theorem Sound.done_of_ready (sound : batch.Sound members) (ready : batch.Ready i) :
    ∃ read, (batch.take (.resume i)).state.reads[i]? = some read ∧ read.Done := by
  obtain ⟨read, found, way⟩ := ready
  obtain ⟨-, resumed⟩ := sound.resumed i
  generalize (batch.take (.resume i)).state = later at resumed ⊢
  cases resumed with
  | idle ended => exact ⟨read, found, ended found⟩
  | @went _ task peer _ found' waits mem owner awaits answer =>
    obtain rfl := Option.some.inj (found.symm.trans found')
    rcases way with done | ⟨task', waits', other, there, owner', due⟩
    · cases done.symm.trans waits
    · obtain rfl := Progress.waiting.inj (waits.symm.trans waits')
      obtain rfl := sound.cluster.eq_of_id_eq there mem (owner'.trans owner.symm)
      obtain ⟨pairs, peerSound⟩ := sound.cluster.peers other there
      obtain rfl := Except.ok.inj (answer.symm.trans (finished_of_due peerSound awaits due))
      refine ⟨{ read with progress := .finished (Store.load read.key) }, ?_, rfl⟩
      exact Array.getElem?_setIfInBounds_self_of_lt (Array.getElem?_eq_some_iff.mp found).1

/-- A ready read stays ready while reads are polled. -/
theorem Sound.ready_take_resume (sound : batch.Sound members) (ready : batch.Ready i) (k : Nat) :
    (batch.take (.resume k)).state.Ready i := by
  by_cases same : k = i
  · subst same
    obtain ⟨read, found, done⟩ := sound.done_of_ready ready
    exact ⟨read, found, .inl done⟩
  · obtain ⟨read, found, way⟩ := ready
    obtain ⟨-, resumed⟩ := sound.resumed k
    generalize (batch.take (.resume k)).state = later at resumed ⊢
    cases resumed with
    | idle => exact ⟨read, found, way⟩
    | went found' waits mem owner awaits =>
      refine ⟨read, ?_, way.imp_right ?_⟩
      · rw [Array.getElem?_setIfInBounds_ne same, found]
      · rintro ⟨task', waits', other, there, owner', due⟩
        obtain ⟨later, mem', id, due'⟩ := exists_onlyAt_resume (·.Due task') sound.cluster mem
          there (fun _ => due) fun here loads => by
            subst here
            exact loads.due_of_poll awaits (sound.task_ne same found' found
              (owner.symm.trans owner') waits waits') due
        exact ⟨task', waits', later, mem', id.trans owner', due'⟩

/-- **Polling the read ahead makes the one that trails it ready**; another poll leaves it
trailing. -/
theorem Sound.trails_take_resume (sound : batch.Sound members) (trails : batch.Trails i j)
    (k : Nat) :
    if k = j then (batch.take (.resume k)).state.Ready i
    else (batch.take (.resume k)).state.Trails i j := by
  obtain ⟨read, ahead, found, found', owner', task, leader, waits, waits', other, there, mine,
    wanted, behind⟩ := trails
  obtain ⟨-, resumed⟩ := sound.resumed k
  generalize (batch.take (.resume k)).state = later at resumed ⊢
  cases resumed with
  | idle ended =>
    have apart : k ≠ j := by
      rintro rfl
      cases (ended found').symm.trans waits'
    rw [if_neg apart]
    exact ⟨read, ahead, found, found', owner', task, leader, waits, waits', other, there, mine,
      wanted, behind⟩
  | @went polled current peer progress found'' waits'' mem owner awaits answer =>
    have apart : i ≠ j := by
      rintro rfl
      obtain rfl := Option.some.inj (found.symm.trans found')
      exact behind.ne (Progress.waiting.inj (waits.symm.trans waits'))
    by_cases same : k = j
    · -- the call is published, and that is what the read waits for
      subst same
      rw [if_pos rfl]
      obtain rfl := Option.some.inj (found'.symm.trans found'')
      obtain rfl := Progress.waiting.inj (waits'.symm.trans waits'')
      obtain rfl := sound.cluster.eq_of_id_eq there mem (mine.trans (owner'.symm.trans owner.symm))
      obtain ⟨later, mem', id, due⟩ := @exists_onlyAt_resume _ _ other other leader ahead.key
        (·.Due task) sound.cluster there there (fun apart => absurd rfl apart)
        fun _ loads => loads.due_of_poll_leader behind
      refine ⟨read, ?_, .inr ⟨task, waits, later, mem', id.trans mine, due⟩⟩
      rw [Array.getElem?_setIfInBounds_ne apart.symm, found]
    · rw [if_neg same]
      have leaderApart : other = peer → current ≠ leader := by
        rintro rfl
        exact sound.task_ne same found'' found' (owner.symm.trans (mine.trans owner'.symm)) waits''
          waits'
      obtain ⟨later, mem', id, behind'⟩ := @exists_onlyAt_resume _ _ peer other current polled.key
        (·.Behind task leader wanted) sound.cluster mem there (fun _ => behind) fun here loads => by
          subst here
          exact loads.behind_of_poll awaits (leaderApart rfl) behind
      refine ⟨read, ahead, ?_, ?_, owner', task, leader, waits, waits', later, mem', id.trans mine,
        wanted, behind'⟩
      · by_cases mineToo : k = i
        · -- it is the read that is polled, and it waits on
          subst mineToo
          obtain rfl := Option.some.inj (found.symm.trans found'')
          obtain rfl := Progress.waiting.inj (waits.symm.trans waits'')
          obtain rfl := sound.cluster.eq_of_id_eq there mem (mine.trans owner.symm)
          obtain ⟨pairs, peerSound⟩ := sound.cluster.peers other there
          have answer' := waiting_of_behind peerSound awaits behind
          obtain rfl := Except.ok.inj (answer.symm.trans answer')
          have unchanged : { read with progress := .waiting task } = read := by rw [← waits]
          rw [unchanged, setIfInBounds_of_getElem? found, found]
        · rw [Array.getElem?_setIfInBounds_ne mineToo, found]
      · rw [Array.getElem?_setIfInBounds_ne same, found']

/-! ## Time passes -/

/-- **When time has passed, every read is ready or trails an earlier one.** -/
theorem Sound.ready_or_trails (sound : batch.Sound members) (inside : i < batch.reads.size) :
    (batch.take .elapse).state.Ready i ∨ ∃ j < i, (batch.take .elapse).state.Trails i j := by
  have found : batch.reads[i]? = some batch.reads[i] := Array.getElem?_eq_getElem inside
  rcases sound.reads found with done | ⟨task, waits, -, peer, mem, owner, awaits⟩
  · exact .inl ⟨_, found, .inl done⟩
  · obtain ⟨pairs, peerSound⟩ := sound.cluster.peers peer mem
    have mem' : peer.elapse ∈ (batch.take .elapse).state.cluster.peers := List.mem_map_of_mem mem
    rcases peerSound.loads.due_of_elapse awaits with due | ⟨leader, behind⟩
    · exact .inl ⟨_, found, .inr ⟨task, waits, peer.elapse, mem', owner, due⟩⟩
    · -- the leader is the task of a read as well, and that one began earlier
      obtain ⟨j, ahead, found', owner', waits'⟩ :=
        sound.take_elapse.sound.leaders peer.elapse mem' behind.leads
      have earlier : leader < task := peerSound.loads.elapse.1.earlier behind.follows
      have before : j < i := by
        by_contra later
        rcases Nat.lt_or_eq_of_le (Nat.not_lt.mp later) with behindIt | rfl
        · have := sound.ordered behindIt found found' (owner.symm.trans owner'.symm) waits waits'
          exact Nat.lt_asymm earlier this
        · obtain rfl := Option.some.inj (found.symm.trans found')
          exact behind.ne (Progress.waiting.inj (waits.symm.trans waits'))
      exact .inr ⟨j, before, _, ahead, found, found', owner'.trans owner, task, leader, waits,
        waits', peer.elapse, mem', owner, _, behind⟩

/-! ## Polls one after the other -/

/-- Polls of reads, one after the other. -/
def polls (indices : List Nat) : List ClusterOp :=
  indices.map fun i => .turn (.resume i)

variable {indices front back : List Nat}

theorem after_polls_cons :
    batch.after (polls (k :: indices)) = (batch.take (.resume k)).state.after (polls indices) := rfl

theorem after_polls_append :
    batch.after (polls (front ++ back)) = (batch.after (polls front)).after (polls back) := by
  rw [polls, List.map_append, after_append]
  rfl

/-- Polls of reads leave all reads in order, and begin none. -/
theorem Sound.after_polls (sound : batch.Sound members) (indices : List Nat) :
    (batch.after (polls indices)).Sound members ∧
      (batch.after (polls indices)).keys = batch.keys := by
  induction indices generalizing batch with
  | nil => exact ⟨sound, rfl⟩
  | cons k indices ih =>
    have took := sound.take_resume k
    obtain ⟨sound', keys⟩ := ih took.sound
    exact ⟨sound', keys.trans (took.keys.trans (List.append_nil _))⟩

/-- A read that has ended stays as it is through any number of polls. -/
theorem Sound.done_after_polls (sound : batch.Sound members) (found : batch.reads[i]? = some read)
    (done : read.Done) (indices : List Nat) :
    (batch.after (polls indices)).reads[i]? = some read := by
  induction indices generalizing batch with
  | nil => exact found
  | cons k indices ih =>
    exact ih (sound.take_resume k).sound (sound.done_take_resume found done k)

/-- A ready read stays ready through any number of polls. -/
theorem Sound.ready_after_polls (sound : batch.Sound members) (ready : batch.Ready i)
    (indices : List Nat) : (batch.after (polls indices)).Ready i := by
  induction indices generalizing batch with
  | nil => exact ready
  | cons k indices ih => exact ih (sound.take_resume k).sound (sound.ready_take_resume ready k)

/-- A ready read ends when its turn comes. -/
theorem Sound.done_of_mem_polls (sound : batch.Sound members) (ready : batch.Ready i)
    (mem : i ∈ indices) :
    ∃ read, (batch.after (polls indices)).reads[i]? = some read ∧ read.Done := by
  obtain ⟨front, back, rfl⟩ := List.append_of_mem mem
  obtain ⟨sound', -⟩ := sound.after_polls front
  obtain ⟨read, found, done⟩ := sound'.done_of_ready (sound.ready_after_polls ready front)
  rw [after_polls_append, after_polls_cons]
  exact ⟨read, (sound'.take_resume i).sound.done_after_polls found done back, done⟩

/-- A read that trails becomes ready when the turn of the one ahead comes. -/
theorem Sound.ready_of_mem_polls (sound : batch.Sound members) (trails : batch.Trails i j)
    (mem : j ∈ indices) : (batch.after (polls indices)).Ready i := by
  induction indices generalizing batch with
  | nil => cases mem
  | cons k indices ih =>
    have step := sound.trails_take_resume trails k
    have sound' := (sound.take_resume k).sound
    by_cases same : k = j
    · rw [if_pos same] at step
      exact sound'.ready_after_polls step indices
    · rw [if_neg same] at step
      exact ih sound' step ((List.mem_cons.mp mem).resolve_left (Ne.symm same))

/-- Each of so many reads is polled, and polled after each that began before it. -/
def PollsAll (count : Nat) (indices : List Nat) : Prop :=
  ∀ i < count, i ∈ indices ∧ ∀ j < i, [j, i].Sublist indices

/-- To poll the reads in order is enough. -/
theorem pollsAll_range (count : Nat) : PollsAll count (List.range count) := by
  refine fun i inside => ⟨List.mem_range.mpr inside, fun j before => ?_⟩
  obtain ⟨rest, rfl⟩ := Nat.exists_eq_add_of_lt inside
  rw [Nat.add_assoc, List.range_add]
  have first : [j].Sublist (List.range i) := List.singleton_sublist.mpr (List.mem_range.mpr before)
  refine first.append (List.singleton_sublist.mpr (List.mem_map.mpr ⟨0, ?_, rfl⟩))
  exact List.mem_range.mpr (Nat.succ_pos rest)

/-- No read begins as time passes and reads are polled. -/
theorem Sound.keys_after_polls (sound : batch.Sound members) (indices : List Nat) :
    (batch.after (.turn .elapse :: polls indices)).keys = batch.keys := by
  have took := sound.take_elapse
  exact (took.sound.after_polls indices).2.trans (took.keys.trans (List.append_nil _))

/-- **Reads end.** When time has passed, every read that had begun ends if it is polled, and polled
after those that began before it. -/
theorem Sound.done_of_pollsAll (sound : batch.Sound members)
    (all : PollsAll batch.reads.size indices) :
    ∀ read ∈ (batch.after (.turn .elapse :: polls indices)).reads, read.Done := by
  have took := sound.take_elapse
  have size : (batch.after (.turn .elapse :: polls indices)).reads.size = batch.reads.size := by
    rw [← length_keys, ← length_keys, sound.keys_after_polls]
  intro read mem
  obtain ⟨i, inside, rfl⟩ := Array.mem_iff_getElem.mp mem
  obtain ⟨turn, before⟩ := all i (size ▸ inside)
  suffices ∃ read, (batch.after (.turn .elapse :: polls indices)).reads[i]? = some read ∧
      read.Done by
    obtain ⟨read, found, done⟩ := this
    rw [Array.getElem?_eq_getElem inside] at found
    rwa [Option.some.inj found]
  rcases sound.ready_or_trails (size ▸ inside) with ready | ⟨j, earlier, trails⟩
  · exact took.sound.done_of_mem_polls ready turn
  · -- the turn of the read ahead comes, and then that of the read itself
    obtain ⟨front, back, rfl, ahead, behind⟩ := List.cons_sublist_iff.mp (before j earlier)
    have ready := took.sound.ready_of_mem_polls trails ahead
    rw [after_cons, after_polls_append]
    have sound' := (took.sound.after_polls front).1
    exact sound'.done_of_mem_polls ready (List.singleton_sublist.mp behind)

end PeerCache.Batch
