import Mathlib.Data.Finset.Card
import Mathlib.Data.Finset.Dedup
import PeerCache.Proofs.Cluster.Course
import PeerCache.Proofs.Cluster.Due

/-!
# How many loads a batch of reads causes

Reads that all begin before one of their loads is felt to be done (`Opens`) load every key once that
its owner has not cached, however many of them want it: the first of them finds the key free and
starts a load, the others join it, and since no load is felt to be done the key stays taken and
nothing is cached or dropped (`Sound.opened_apply`). What comes after that only ends reads
(`Closes`), and starts no load whatever is cached or dropped by it (`Sound.counts_after`).
-/

namespace PeerCache

/-! ## Loads of a flight -/

namespace Flight

variable {flight : Flight String LoadError} {id : TaskId} {key wanted : String} {old new : Phase}
  {polled : Polled String LoadError}

/-- A task that is polled for the first time starts a load if its key is free. -/
theorem LoadTurn.started_of_fresh (turn : LoadTurn flight id key .fresh new polled) :
    polled.started = !(flight.leader? key).isSome := by
  cases turn with
  | leads free => rw [free]; rfl
  | joins taken => rw [taken]; rfl

/-- From then on its key is taken. -/
theorem LoadTurn.leader?_of_fresh (turn : LoadTurn flight id key .fresh new polled) :
    (polled.flight.leader? wanted).isSome ↔ wanted = key ∨ (flight.leader? wanted).isSome := by
  cases turn with
  | leads =>
    rw [leader?_register]
    split
    · next same => simp [same]
    · next apart => simp [Ne.symm apart]
  | joins taken =>
    rw [leader?_join]
    refine (or_iff_right_of_imp ?_).symm
    rintro rfl
    rw [taken]
    rfl

/-- A load is started by the first poll of its task or never. -/
theorem LoadTurn.started_of_polled (turn : LoadTurn flight id key old new polled)
    (polledBefore : old ≠ .fresh) : polled.started = false := by
  cases turn with
  | leads => exact absurd rfl polledBefore
  | _ => rfl

/-- A task that waits on leaves the keys to their leaders. -/
theorem LoadTurn.leader?_of_waits (turn : LoadTurn flight id key old new polled)
    (polledBefore : old ≠ .fresh) (waits : polled.answer = .pending) :
    polled.flight.leader? wanted = flight.leader? wanted := by
  cases turn with
  | leads => exact absurd rfl polledBefore
  | joins => exact absurd rfl polledBefore
  | waits => rfl
  | computes => rfl
  | receives => cases waits
  | publishes => cases waits

/-- **A load that begins is counted if its key was free**, and leaves the key taken. -/
theorem Loads.counted_of_begin (loads : flight.Loads) (key : String) :
    let begun := (flight.spawn flight.tasks.size key none none).poll flight.tasks.size
    begun.started = (!(flight.leader? key).isSome) ∧ ∀ wanted,
      (begun.flight.leader? wanted).isSome ↔ wanted = key ∨ (flight.leader? wanted).isSome := by
  obtain ⟨phase, turn, -⟩ := loads.turn_of_begin key
  refine ⟨?_, fun wanted => ?_⟩
  · rw [turn.started_of_fresh, leader?_attend, leader?_spawn]
  · rw [turn.leader?_of_fresh, leader?_attend, leader?_spawn]

/-- **One that goes on is not counted again.** -/
theorem Loads.counted_of_continue (loads : flight.Loads) (awaits : flight.Awaits id key) :
    (flight.poll id).started = false ∧ ((flight.poll id).answer = .pending →
      ∀ wanted, (flight.poll id).flight.leader? wanted = flight.leader? wanted) := by
  obtain ⟨old, new, polledBefore, -, turn⟩ := loads.turn_of_awaits awaits
  exact ⟨turn.started_of_polled polledBefore, fun waits _ =>
    (turn.leader?_of_waits polledBefore waits).trans leader?_attend⟩

/-- Loads that get done keep their keys taken, until their leaders are polled. -/
theorem leader?_elapse : flight.elapse.leader? wanted = flight.leader? wanted := by
  have kept : ∀ (entries : List (String × TaskId)) (flight : Flight String LoadError),
      (entries.foldl (fun flight entry => flight.resolve entry.2 (Store.outcome entry.1))
        flight).leader? wanted = flight.leader? wanted := by
    intro entries
    induction entries with
    | nil => exact fun _ => rfl
    | cons entry entries ih => exact fun flight => (ih _).trans leader?_update
  rw [elapse, Std.ExtTreeMap.foldl_eq_foldl_toList, kept]

end Flight

/-! ## Loads of a peer -/

namespace Peer

variable {peer later last : Peer} {pairs : List (String × String)} {key : String} {task : TaskId}
  {missed : Finset String}

/-- A peer counts a load for each poll that started one, whatever the poll was answered. -/
theorem loads_receive {polled : Polled String LoadError} :
    (peer.receive key task polled).state.loads =
      if polled.started then peer.loads + 1 else peer.loads := by
  unfold receive
  cases polled.answer with
  | returned result => cases result <;> rfl
  | _ => rfl

/-- A peer of which nothing has changed that says whether a read starts a load. -/
structure Alike (peer later : Peer) : Prop where
  id : later.id = peer.id
  loads : later.loads = peer.loads
  holds : ∀ key, later.holds key = peer.holds key
  leader : ∀ key, later.flight.leader? key = peer.flight.leader? key

theorem Alike.refl : peer.Alike peer :=
  ⟨rfl, rfl, fun _ => rfl, fun _ => rfl⟩

/-- A read that starts does not change what is cached. -/
theorem Sound.holds_start (sound : peer.Sound pairs) (key wanted : String) :
    (peer.start key).state.holds wanted = peer.holds wanted := by
  obtain ⟨⟨pairs', after, same⟩, -⟩ := sound.start key
  rw [after.holds, sound.holds]
  exact congrArg Except.ok (decide_eq_decide.mpr (same wanted))

/-- What a look into the cache finds. -/
theorem Sound.get_of_held (sound : peer.Sound pairs) (held : peer.holds key = .ok true) :
    ∃ value, (peer.cache.get key).answer = .ok (some value) := by
  obtain ⟨pairs', keeps, -, answer⟩ := sound.keeps.get key
  obtain ⟨pair, mem, rfl⟩ := List.mem_map.mp (sound.holds_iff.mp held)
  obtain ⟨found, there⟩ := Option.isSome_iff_exists.mp <|
    List.find?_isSome (p := (·.1 == pair.1)).mpr ⟨pair, mem, beq_self_eq_true pair.1⟩
  exact ⟨found.2, by rw [answer, there]; rfl⟩

/-- And where the key is not cached it finds nothing. -/
theorem Sound.get_of_missing (sound : peer.Sound pairs) (missing : peer.holds key = .ok false) :
    (peer.cache.get key).answer = .ok none := by
  obtain ⟨pairs', keeps, -, answer⟩ := sound.keeps.get key
  have absent : pairs.find? (·.1 == key) = none := by
    rw [sound.holds, Except.ok.injEq, decide_eq_false_iff_not] at missing
    rw [List.find?_eq_none]
    intro pair mem mine
    exact missing (List.mem_map.mpr ⟨pair, mem, eq_of_beq mine⟩)
  rw [answer, absent]
  rfl

/-- A read of a cached key starts no load. -/
theorem Sound.alike_start (sound : peer.Sound pairs) (held : peer.holds key = .ok true) :
    peer.Alike (peer.start key).state := by
  obtain ⟨value, answer⟩ := sound.get_of_held held
  refine ⟨id_start, ?_, sound.holds_start key, fun _ => ?_⟩
  · simp only [Peer.start, answer]
  · simp only [Peer.start, answer]

/-- One of a key that is not cached starts a load if none of it is under way. -/
theorem Sound.start_of_missing (sound : peer.Sound pairs) (missing : peer.holds key = .ok false) :
    (peer.start key).state.loads =
        (if (peer.flight.leader? key).isSome then peer.loads else peer.loads + 1) ∧
      ∀ wanted, ((peer.start key).state.flight.leader? wanted).isSome ↔
        wanted = key ∨ (peer.flight.leader? wanted).isSome := by
  obtain ⟨started, taken⟩ := sound.loads.counted_of_begin key
  simp only [Peer.start, sound.get_of_missing missing, loads_receive, flight_receive]
  refine ⟨?_, taken⟩
  rw [started]
  cases (peer.flight.leader? key).isSome <;> rfl

/-- A read that goes on is not counted again. -/
theorem Sound.loads_resume (sound : peer.Sound pairs) (awaits : peer.flight.Awaits task key) :
    (peer.resume key task).state.loads = peer.loads := by
  rw [Peer.resume, loads_receive, (sound.loads.counted_of_continue awaits).1]
  rfl

/-- One that waits on changes nothing. -/
theorem Sound.alike_resume (sound : peer.Sound pairs) (awaits : peer.flight.Awaits task key)
    (waits : (peer.resume key task).answer = .ok (.waiting task)) :
    peer.Alike (peer.resume key task).state := by
  obtain ⟨loads, ⟨pending, -⟩ | ⟨returned, -⟩⟩ := sound.loads.continue awaits
  · obtain ⟨-, after⟩ := sound.receive_pending loads pending
    refine ⟨id_resume, sound.loads_resume awaits, fun wanted => ?_, fun wanted => ?_⟩
    · rw [Peer.resume, after.holds, sound.holds]
    · rw [Peer.resume, flight_receive]
      exact (sound.loads.counted_of_continue awaits).2 pending wanted
  · cases (sound.receive_returned loads returned).1.symm.trans waits

/-- That one load gets done changes nothing by which loads are counted. -/
theorem alike_finish : peer.Alike (peer.finish key) := by
  unfold finish
  split
  · exact ⟨rfl, rfl, fun _ => rfl, fun _ => Flight.leader?_update⟩
  · exact .refl

/-- Nor does it if all of them get done. -/
theorem alike_elapse : peer.Alike peer.elapse :=
  ⟨rfl, rfl, fun _ => rfl, fun _ => Flight.leader?_elapse⟩

/-- What reads of keys that are not cached make of a peer before one of them ends: each of these
keys has been loaded once, and is being loaded still. -/
structure Misses (peer : Peer) (missed : Finset String) (later : Peer) : Prop where
  id : later.id = peer.id
  loads : later.loads = peer.loads + missed.card
  holds : ∀ key, later.holds key = peer.holds key
  leader : ∀ key, (later.flight.leader? key).isSome ↔ key ∈ missed

/-- What changes nothing by which loads are counted keeps the misses. -/
theorem Misses.alike (misses : peer.Misses missed later) (same : later.Alike last) :
    peer.Misses missed last where
  id := same.id.trans misses.id
  loads := same.loads.trans misses.loads
  holds key := (same.holds key).trans (misses.holds key)
  leader key := by rw [same.leader, misses.leader]

/-- **A read of a key that is not cached adds its key**, and a load if the key is new. -/
theorem Misses.start (misses : peer.Misses missed later) (sound : later.Sound pairs)
    (missing : peer.holds key = .ok false) :
    peer.Misses (insert key missed) (later.start key).state := by
  obtain ⟨loads, taken⟩ := sound.start_of_missing ((misses.holds key).trans missing)
  refine ⟨id_start.trans misses.id, ?_, fun wanted => ?_, fun wanted => ?_⟩
  · rw [loads, misses.loads]
    by_cases before : key ∈ missed
    · rw [if_pos ((misses.leader key).mpr before), Finset.insert_eq_of_mem before]
    · rw [if_neg (mt (misses.leader key).mp before), Finset.card_insert_of_notMem before,
        Nat.add_assoc]
  · rw [sound.holds_start, misses.holds]
  · rw [taken, misses.leader, Finset.mem_insert]

end Peer

/-! ## Reads that begin together -/

variable {cluster first : Cluster} {members keys : List String} {peer other : Peer}
  {id key : String} {change : Peer → Peer}

namespace Cluster

/-- The owner of a key is the node that the ring finds for it. -/
theorem owner_eq_ok_iff : cluster.owner key = .ok id ↔ cluster.ring.lookup key = some id := by
  unfold owner
  cases cluster.ring.lookup key <;> simp

/-- The keys among some that a peer owns and has not cached, each once. -/
def missing (cluster : Cluster) (keys : List String) (peer : Peer) : Finset String :=
  keys.toFinset.filter fun key => cluster.owner key = .ok peer.id ∧ peer.holds key = .ok false

/-- A key is missing at a peer that owns it and does not hold it, if it is among those asked for. -/
theorem mem_missing :
    key ∈ cluster.missing keys peer ↔
      key ∈ keys ∧ cluster.owner key = .ok peer.id ∧ peer.holds key = .ok false := by
  rw [missing, Finset.mem_filter, List.mem_toFinset]

/-- A read of a key that its owner does not hold adds it to the missing ones, if it is not among
them. -/
theorem missing_of_missing (owned : cluster.owner key = .ok peer.id)
    (missing : peer.holds key = .ok false) :
    cluster.missing (keys ++ [key]) peer = insert key (cluster.missing keys peer) := by
  ext wanted
  rw [Finset.mem_insert, mem_missing, mem_missing, List.mem_append, List.mem_singleton]
  constructor
  · rintro ⟨before | rfl, rest⟩
    · exact .inr ⟨before, rest⟩
    · exact .inl rfl
  · rintro (rfl | ⟨before, rest⟩)
    · exact ⟨.inr rfl, owned, missing⟩
    · exact ⟨.inl before, rest⟩

/-- A read of a key that the peer does not own, or holds, adds nothing. -/
theorem missing_of_not_missing
    (other : cluster.owner key = .ok peer.id → peer.holds key ≠ .ok false) :
    cluster.missing (keys ++ [key]) peer = cluster.missing keys peer := by
  ext wanted
  rw [mem_missing, mem_missing, List.mem_append, List.mem_singleton]
  refine and_congr_left fun ⟨owned, missing⟩ => or_iff_left ?_
  rintro rfl
  exact other owned missing

/-- The peer that owns the key has not cached it. -/
def Uncached (cluster : Cluster) (key : String) : Prop :=
  ∃ peer ∈ cluster.peers, cluster.owner key = .ok peer.id ∧ peer.holds key = .ok false

/-- The cluster as it is once reads of some keys have begun and none has ended: every peer has
loaded those keys of its own that it had not cached. -/
structure Opened (first : Cluster) (keys : List String) (cluster : Cluster) : Prop where
  ring : cluster.ring = first.ring
  peers : ∀ peer ∈ first.peers, ∃ later ∈ cluster.peers, peer.Misses (first.missing keys peer) later

/-- A change of all peers by which no load is counted keeps the cluster as it is once the reads have
begun. -/
theorem Opened.mapPeers (opened : first.Opened keys cluster)
    (alike : ∀ peer ∈ cluster.peers, peer.Alike (change peer)) :
    first.Opened keys (cluster.mapPeers change) := by
  refine ⟨opened.ring, fun peer mem => ?_⟩
  obtain ⟨later, there, misses⟩ := opened.peers peer mem
  exact ⟨change later, mem_mapPeers.mpr ⟨later, there, rfl⟩, misses.alike (alike later there)⟩

/-- A change at one peer by which no load is counted is one for all peers: the others are not
changed at all. -/
theorem Sound.alike_onlyAt (sound : cluster.Sound members) (mem : peer ∈ cluster.peers)
    (alike : peer.Alike (change peer)) :
    ∀ other ∈ cluster.peers, other.Alike (Cluster.onlyAt peer.id change other) :=
  sound.forall_onlyAt (P := Peer.Alike) mem alike fun _ _ _ => .refl

/-- **A read that begins is counted if its key is missing.** -/
theorem Opened.start (opened : first.Opened keys cluster) (sound : cluster.Sound members)
    (ne : cluster.peers ≠ []) (key : String) :
    first.Opened (keys ++ [key]) (cluster.start key).state := by
  obtain ⟨owner, mem, owned⟩ := sound.exists_owner ne key
  obtain ⟨pairs, ownerSound⟩ := sound.peers owner mem
  rw [sound.start_eq mem owned]
  refine ⟨opened.ring, fun peer there => ?_⟩
  obtain ⟨later, mem', misses⟩ := opened.peers peer there
  refine ⟨_, mem_mapPeers.mpr ⟨later, mem', rfl⟩, ?_⟩
  -- in the cluster as it was the key has the same owner, and is cached there or not as now
  have owns : first.owner key = .ok peer.id ↔ later.id = owner.id := by
    rw [owner_eq_ok_iff, ← opened.ring, owned, Option.some.injEq, ← misses.id, eq_comm]
  by_cases mine : later.id = owner.id
  · obtain rfl := sound.eq_of_id_eq mem' mem mine
    rw [onlyAt_of_eq rfl]
    cases held : decide (key ∈ pairs.map Prod.fst) with
    | false =>
      have missing : peer.holds key = .ok false := by rw [← misses.holds, ownerSound.holds, held]
      rw [missing_of_missing (owns.mpr rfl) missing]
      exact misses.start ownerSound missing
    | true =>
      have cached : later.holds key = .ok true := by rw [ownerSound.holds, held]
      rw [missing_of_not_missing fun _ => by rw [← misses.holds, cached]; nofun]
      exact misses.alike (ownerSound.alike_start cached)
  · rw [onlyAt_of_ne mine, missing_of_not_missing fun owned => absurd (owns.mp owned) mine]
    exact misses

end Cluster

namespace Batch

variable {batch : Batch} {op : ClusterOp} {ops opening closing : List ClusterOp}

/-- What can be done while the reads of a batch begin: they begin, loads get done, and reads are
polled that wait on. -/
def Opens (batch : Batch) : ClusterOp → Prop
  | .turn (.start _) => batch.cluster.peers ≠ []
  | .turn .elapse => True
  | .turn (.resume i) => (batch.take (.resume i)).state.answers = batch.answers
  | .finish id _ => ∃ peer ∈ batch.cluster.peers, peer.id = id
  | .addPeer _ _ | .evict _ _ => False

/-- What can be done until they have ended: loads get done, and reads are polled. -/
def Closes (batch : Batch) : ClusterOp → Prop
  | .turn .elapse | .turn (.resume _) => True
  | .finish id _ => ∃ peer ∈ batch.cluster.peers, peer.id = id
  | .turn (.start _) | .addPeer _ _ | .evict _ _ => False

/-- What can be done while reads begin can be done at all. -/
theorem Opens.allows (opens : batch.Opens op) : batch.Allows op := by
  cases op with
  | turn turn =>
    cases turn with
    | start key => exact opens
    | elapse => trivial
    | resume i => trivial
  | finish id key => exact opens
  | addPeer id known => cases opens
  | evict id key => cases opens

/-- It leaves the cluster sound, with the same members, as nobody joins meanwhile. -/
theorem Sound.opens_apply (sound : batch.Sound members) (opens : batch.Opens op) :
    (batch.apply op).state.Sound members := by
  have later := (sound.apply opens.allows).2.1
  cases op with
  | addPeer id known => cases opens
  | _ => exact (List.append_nil members) ▸ later

/-- What can be done while reads end can be done at all. -/
theorem Closes.allows (closes : batch.Closes op) : batch.Allows op := by
  cases op with
  | turn turn =>
    cases turn with
    | start key => cases closes
    | elapse => trivial
    | resume i => trivial
  | finish id key => exact closes
  | addPeer id known => cases closes
  | evict id key => cases closes

/-- The cluster is the one on which the reads began, none of them, as long as no other is under
way. -/
theorem Sound.opened_nil (sound : batch.Sound members) (settled : batch.Settled) :
    batch.cluster.Opened [] batch.cluster := by
  refine ⟨rfl, fun peer mem => ⟨peer, mem, rfl, rfl, fun _ => rfl, fun key => ?_⟩⟩
  obtain ⟨pairs, peerSound⟩ := sound.cluster.peers peer mem
  have free : peer.flight.leader? key = none := by
    cases found : peer.flight.leader? key with
    | none => rfl
    | some leader =>
      have leads := peerSound.loads.coherent.registered peerSound.loads.good found
      exact absurd leads (sound.idle settled mem)
  rw [free]
  exact iff_of_false nofun fun mem => nomatch (Cluster.mem_missing.mp mem).1

theorem cluster_take_start :
    (batch.take (.start key)).state.cluster = (batch.cluster.start key).state := by
  unfold take
  simp only
  split <;> rfl

/-- A batch has its answers in the order of its reads. -/
theorem getElem?_answers {i : Nat} : batch.answers[i]? = batch.reads[i]?.map Read.answer? := by
  rw [answers, List.getElem?_map, Array.getElem?_toList]

/-- A poll that ends no read changes nothing that loads are counted by. -/
theorem Sound.opened_resume {k : Nat} (sound : batch.Sound members)
    (opened : first.Opened keys batch.cluster)
    (opens : (batch.take (.resume k)).state.answers = batch.answers) :
    first.Opened keys (batch.take (.resume k)).state.cluster := by
  obtain ⟨-, resumed⟩ := sound.resumed k
  generalize (batch.take (.resume k)).state = later at resumed opens ⊢
  cases resumed with
  | idle => exact opened
  | @went read task peer progress found waits mem owner awaits answer =>
    refine opened.mapPeers (sound.cluster.alike_onlyAt mem ?_)
    obtain ⟨pairs, peerSound⟩ := sound.cluster.peers peer mem
    refine peerSound.alike_resume awaits ?_
    obtain ⟨-, ⟨waiting, -⟩ | ⟨finished, -⟩⟩ := peerSound.resume awaits
    · exact waiting
    · -- the read would have an answer now
      obtain rfl := Except.ok.inj (answer.symm.trans finished)
      have same := congrArg (·[k]?) opens
      have inside := (Array.getElem?_eq_some_iff.mp found).1
      simp only [getElem?_answers, found, Array.getElem?_setIfInBounds_self_of_lt inside,
        Option.map_some, Read.answer?, waits] at same
      cases same

/-- **While reads begin, every peer loads those keys of its own that it has not cached.** -/
theorem Sound.opened_apply (sound : batch.Sound members)
    (opened : first.Opened keys batch.cluster) (opens : batch.Opens op) :
    first.Opened (keys ++ op.begins) (batch.apply op).state.cluster := by
  cases op with
  | turn turn =>
    cases turn with
    | start key =>
      show first.Opened (keys ++ [key]) (batch.take (.start key)).state.cluster
      rw [cluster_take_start]
      exact opened.start sound.cluster opens key
    | elapse =>
      show first.Opened (keys ++ []) (batch.cluster.mapPeers Peer.elapse)
      rw [List.append_nil]
      exact opened.mapPeers fun _ _ => Peer.alike_elapse
    | resume i =>
      show first.Opened (keys ++ []) (batch.take (.resume i)).state.cluster
      rw [List.append_nil]
      exact sound.opened_resume opened opens
  | finish id key =>
    obtain ⟨peer, mem, rfl⟩ := opens
    show first.Opened (keys ++ [])
      (batch.cluster.atPeer peer.id fun peer => .done (peer.finish key) ()).state
    rw [List.append_nil, Cluster.atPeer_eq sound.cluster.distinct mem]
    exact opened.mapPeers (sound.cluster.alike_onlyAt mem Peer.alike_finish)
  | addPeer id known => cases opens
  | evict id key => cases opens

/-! ## Reads that end -/

/-- Every peer that was there at first has started so many loads. -/
def Counts (first : Cluster) (count : Peer → Nat) (batch : Batch) : Prop :=
  ∀ peer ∈ first.peers, ∃ later ∈ batch.cluster.peers,
    later.id = peer.id ∧ later.loads = count peer

variable {count : Peer → Nat}

/-- A change of all peers that keeps ids and counts keeps what was counted. -/
theorem Counts.mapPeers {reads : Array Read} (counts : batch.Counts first count)
    (same : ∀ peer ∈ batch.cluster.peers,
      (change peer).id = peer.id ∧ (change peer).loads = peer.loads) :
    Counts first count ⟨batch.cluster.mapPeers change, reads⟩ := by
  intro peer mem
  obtain ⟨later, there, id, loads⟩ := counts peer mem
  obtain ⟨id', loads'⟩ := same later there
  exact ⟨_, Cluster.mem_mapPeers.mpr ⟨later, there, rfl⟩, id'.trans id, loads'.trans loads⟩

/-- A poll of a read counts nothing, even if it ends the read. -/
theorem Sound.counts_resume (sound : batch.Sound members) (counts : batch.Counts first count)
    (k : Nat) : (batch.take (.resume k)).state.Counts first count := by
  obtain ⟨-, resumed⟩ := sound.resumed k
  generalize (batch.take (.resume k)).state = last at resumed ⊢
  cases resumed with
  | idle => exact counts
  | @went read task peer _ _ _ mem _ awaits =>
    obtain ⟨pairs, peerSound⟩ := sound.cluster.peers peer mem
    exact counts.mapPeers <| sound.cluster.forall_onlyAt
      (P := fun other later => later.id = other.id ∧ later.loads = other.loads) mem
      ⟨Peer.id_resume, peerSound.loads_resume awaits⟩ fun _ _ _ => ⟨rfl, rfl⟩

/-- **What ends reads starts no load.** -/
theorem Sound.counts_apply (sound : batch.Sound members) (counts : batch.Counts first count)
    (closes : batch.Closes op) : (batch.apply op).state.Counts first count := by
  cases op with
  | turn turn =>
    cases turn with
    | start key => cases closes
    | elapse => exact counts.mapPeers fun _ _ => ⟨rfl, rfl⟩
    | resume k => exact sound.counts_resume counts k
  | finish id key =>
    obtain ⟨peer, mem, rfl⟩ := closes
    simp only [Batch.apply, Step.within, Cluster.atPeer_eq sound.cluster.distinct mem]
    have alike : ∀ other ∈ batch.cluster.peers,
        other.Alike (Cluster.onlyAt peer.id (·.finish key) other) :=
      sound.cluster.alike_onlyAt mem Peer.alike_finish
    exact counts.mapPeers fun other there => ⟨(alike other there).id, (alike other there).loads⟩
  | addPeer id known => cases closes
  | evict id key => cases closes

/-- **However reads end, the loads stay counted as they were.** -/
theorem Sound.counts_after (sound : batch.Sound members) (counts : batch.Counts first count)
    (admits : batch.Admits Closes closing) : (batch.after closing).Counts first count :=
  sound.after_of_apply admits counts fun sound' closes _ counts' =>
    ⟨closes.allows, sound'.counts_apply counts' closes⟩

/-! ## Which keys are loaded -/

/-- Some peer starts a load by it, and it is a turn of a read of the key. -/
def StartsLoad (batch : Batch) (key : String) : ClusterOp → Prop
  | .turn turn => batch.WorksFor key turn ∧ ∃ peer ∈ batch.cluster.peers,
      ∃ later ∈ (batch.take turn).state.cluster.peers, later.id = peer.id ∧ peer.loads < later.loads
  | .addPeer _ _ | .evict _ _ | .finish _ _ => False

/-- The key is loaded in the course of a history. -/
def LoadsIn (batch : Batch) (key : String) : List ClusterOp → Prop
  | [] => False
  | op :: ops => batch.StartsLoad key op ∨ (batch.apply op).state.LoadsIn key ops

/-- A key is loaded in a longer history if it is loaded in the front of it or, from there, in the
rest. -/
theorem loadsIn_append {more : List ClusterOp} :
    batch.LoadsIn key (ops ++ more) ↔
      batch.LoadsIn key ops ∨ (batch.after ops).LoadsIn key more := by
  induction ops generalizing batch with
  | nil => exact (iff_of_eq (false_or _)).symm
  | cons op ops ih => rw [List.cons_append, LoadsIn, ih, LoadsIn, or_assoc, after_cons]

/-- A turn starts a load if some peer has a key more that it has loaded. -/
theorem Sound.grows_iff {last : Batch} {more : List String} (sound : batch.Sound members)
    (sound' : last.Sound members) (firstSound : first.Sound members)
    (opened : first.Opened keys batch.cluster)
    (opened' : first.Opened (keys ++ more) last.cluster) :
    (∃ peer ∈ batch.cluster.peers, ∃ later ∈ last.cluster.peers,
        later.id = peer.id ∧ peer.loads < later.loads) ↔
      ∃ peer ∈ first.peers, ∃ key ∈ first.missing (keys ++ more) peer, key ∉ keys := by
  constructor
  · rintro ⟨now, mem, later, mem', same, less⟩
    obtain ⟨peer, there, id⟩ := (firstSound.mem_iff now.id).mpr
      ((sound.cluster.mem_iff now.id).mp ⟨now, mem, rfl⟩)
    obtain ⟨_, mem₁, misses⟩ := opened.peers peer there
    obtain ⟨_, mem₂, misses'⟩ := opened'.peers peer there
    obtain rfl := sound.cluster.eq_of_id_eq mem₁ mem (misses.id.trans id)
    obtain rfl := sound'.cluster.eq_of_id_eq mem₂ mem' (misses'.id.trans (id.trans same.symm))
    rw [misses.loads, misses'.loads, Nat.add_lt_add_iff_left] at less
    obtain ⟨key, missing, new⟩ := Finset.exists_mem_notMem_of_card_lt_card less
    refine ⟨peer, there, key, missing, fun before => new ?_⟩
    exact Cluster.mem_missing.mpr ⟨before, (Cluster.mem_missing.mp missing).2⟩
  · rintro ⟨peer, there, key, missing, new⟩
    obtain ⟨now, mem, misses⟩ := opened.peers peer there
    obtain ⟨later, mem', misses'⟩ := opened'.peers peer there
    refine ⟨now, mem, later, mem', misses'.id.trans misses.id.symm, ?_⟩
    rw [misses.loads, misses'.loads, Nat.add_lt_add_iff_left]
    refine Finset.card_lt_card ((Finset.ssubset_iff_of_subset fun old before => ?_).mpr
      ⟨key, missing, fun before => new (Cluster.mem_missing.mp before).1⟩)
    obtain ⟨begun, rest⟩ := Cluster.mem_missing.mp before
    exact Cluster.mem_missing.mpr ⟨List.mem_append_left _ begun, rest⟩

/-- **Of the reads that begin, the first one of a key starts a load**, if the key is not cached. -/
theorem Sound.startsLoad_iff (sound : batch.Sound members) (firstSound : first.Sound members)
    (opened : first.Opened keys batch.cluster) (opens : batch.Opens op) :
    batch.StartsLoad key op ↔ key ∈ op.begins ∧ key ∉ keys ∧ first.Uncached key := by
  have grows := sound.grows_iff (sound.opens_apply opens) firstSound opened
    (sound.opened_apply opened opens)
  cases op with
  | turn turn =>
    -- only a read that begins adds a key
    have starts : batch.StartsLoad key (.turn turn) ↔ batch.WorksFor key turn ∧
        ∃ peer ∈ first.peers, ∃ key ∈ first.missing (keys ++ turn.begins) peer, key ∉ keys :=
      and_congr_right fun _ => grows
    rw [starts]
    cases turn with
    | start begun =>
      simp only [ClusterOp.begins, Turn.begins, Batch.WorksFor, Cluster.mem_missing,
        List.mem_append, List.mem_singleton]
      constructor
      · rintro ⟨rfl, peer, mem, key, ⟨before | rfl, missing⟩, new⟩
        · exact absurd before new
        · exact ⟨rfl, new, peer, mem, missing⟩
      · rintro ⟨rfl, new, peer, mem, missing⟩
        exact ⟨rfl, peer, mem, _, ⟨.inr rfl, missing⟩, new⟩
    | elapse => simp [ClusterOp.begins, Turn.begins, Batch.WorksFor]
    | resume i =>
      simp only [ClusterOp.begins, Turn.begins, List.append_nil, Cluster.mem_missing]
      refine iff_of_false ?_ fun begun => nomatch begun.1
      rintro ⟨-, peer, mem, key, ⟨before, -⟩, new⟩
      exact new before
  | finish id wanted => exact iff_of_false (fun never => never) fun begun => nomatch begun.1
  | addPeer id known => cases opens
  | evict id wanted => cases opens

/-- While reads begin, the keys that are loaded are those asked for that were not asked for before
and that their owners do not hold. Induction on the reads, with the keys that were asked for before
growing on the way. -/
theorem Sound.loadsIn_opening (sound : batch.Sound members) (firstSound : first.Sound members)
    (opened : first.Opened keys batch.cluster) (admits : batch.Admits Opens opening) :
    batch.LoadsIn key opening ↔
      key ∈ opening.flatMap ClusterOp.begins ∧ key ∉ keys ∧ first.Uncached key := by
  induction opening generalizing batch keys with
  | nil => simp [LoadsIn]
  | cons op ops ih =>
    have later := ih (sound.opens_apply admits.1) (sound.opened_apply opened admits.1) admits.2
    rw [LoadsIn, sound.startsLoad_iff firstSound opened admits.1, later, List.flatMap_cons,
      List.mem_append, List.mem_append]
    tauto

/-- What ends reads does not start a load: no peer has counted one more after it. -/
theorem Sound.not_startsLoad (sound : batch.Sound members) (closes : batch.Closes op) :
    ¬ batch.StartsLoad key op := by
  have counts : (batch.apply op).state.Counts batch.cluster Peer.loads :=
    sound.counts_apply (fun peer mem => ⟨peer, mem, rfl, rfl⟩) closes
  have sound' := (sound.apply closes.allows).2.1
  cases op with
  | turn turn =>
    rintro ⟨-, peer, mem, later, there, same, less⟩
    obtain ⟨last, there', id, loads⟩ := counts peer mem
    obtain rfl := sound'.cluster.eq_of_id_eq there there' (same.trans id.symm)
    exact absurd less (Nat.not_lt.mpr (Nat.le_of_eq loads))
  | finish id wanted => exact fun never => never
  | addPeer id known => cases closes
  | evict id wanted => cases closes

/-- No key is loaded while reads end. -/
theorem Sound.not_loadsIn_closing (sound : batch.Sound members)
    (admits : batch.Admits Closes closing) : ¬ batch.LoadsIn key closing := by
  induction closing generalizing batch members with
  | nil => exact fun never => never
  | cons op ops ih =>
    have sound' := (sound.apply admits.1.allows).2.1
    rintro (now | later)
    · exact sound.not_startsLoad admits.1 now
    · exact ih sound' admits.2 later

/-! ## A batch of reads -/

/-- Once all reads have begun, every peer has loaded what was missing there of all the keys asked
for. -/
theorem Sound.opened_after (sound : batch.Sound members) (opened : first.Opened keys batch.cluster)
    (admits : batch.Admits Opens opening) :
    (batch.after opening).Sound members ∧
      first.Opened (keys ++ opening.flatMap ClusterOp.begins) (batch.after opening).cluster := by
  induction opening generalizing batch keys with
  | nil => exact ⟨sound, (List.append_nil keys).symm ▸ opened⟩
  | cons op ops ih =>
    rw [List.flatMap_cons, ← List.append_assoc]
    exact ih (sound.opens_apply admits.1) (sound.opened_apply opened admits.1) admits.2

/-- **A batch loads every key once that its owner has not cached**, and no other. -/
theorem Sound.loads_of_batch (sound : batch.Sound members) (settled : batch.Settled)
    (opens : batch.Admits Opens opening) (closes : (batch.after opening).Admits Closes closing) :
    (batch.after (opening ++ closing)).Counts batch.cluster (fun peer =>
        peer.loads + (batch.cluster.missing (opening.flatMap ClusterOp.begins) peer).card) ∧
      ∀ key, batch.LoadsIn key (opening ++ closing) ↔
        key ∈ opening.flatMap ClusterOp.begins ∧ batch.cluster.Uncached key := by
  have nothing := sound.opened_nil settled
  obtain ⟨sound', opened⟩ := sound.opened_after nothing opens
  rw [after_append]
  constructor
  · refine sound'.counts_after (fun peer mem => ?_) closes
    obtain ⟨later, there, misses⟩ := opened.peers peer mem
    exact ⟨later, there, misses.id, misses.loads⟩
  · intro key
    rw [loadsIn_append, sound.loadsIn_opening sound.cluster nothing opens,
      or_iff_left (sound'.not_loadsIn_closing closes)]
    exact and_congr_right fun _ => and_iff_right nofun

end Batch

end PeerCache
