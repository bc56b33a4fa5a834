import ObsidianSync.Lib.Run
import ObsidianSync.Room.AsyncLock

/-!
# One room for a file, one critical section at a time

The calls on the room of a file begin by asking for it.  The first loads it, those that come
while it is loaded wait for the same load, and later ones find it in the map; then each hands its
body to the lock of the room.  Between two of these steps the other calls go on: what is due is
a queue of continuations.  A load may fail, and the next call tries again.

The calls on one file are what there is here; bodies and loads take their time, and end one way
or the other.  The queue holds what is due outside of the locks, each lock its own, and any
continuation may be the next: the order of the platform is one of those.

## Main definitions

* `FileCalls` — the room manager, as the calls on one file see it.
* `FileCalls.materialize`, `FileCalls.loadRuntime` — as the source has them.
* `FileEvent`, `fileStep` — calls, and what happens to them.
* `FileCalls.Quiet` — nothing is left to happen.

## Main results

* `criticalSections` — **the calls that get a room get the same one, and their bodies run one at
  a time, once each, in the order in which they reached the lock.**
-/

namespace ObsidianSync

/-! ### The room manager -/

/-- The continuations of the calls: an async function that returned the pending load adopts it,
one that waited for a load resumes, and the call goes on with its room, or without one. -/
inductive CallJob
  | adopt (call load : ℕ)
  | resume (call : ℕ) (owner : Bool) (room : Option ℕ)
  | enter (call : ℕ) (room : Option ℕ)
  deriving DecidableEq, Repr

/-- Rooms are named by their locks.  A load is settled with its room, or with nothing where it
failed, and what waits for it is a call, with whether that call started it.  `entered` are the
calls that reached a lock, in this order, and `failed` those that got no room. -/
structure FileCalls where
  rooms : Option ℕ := none
  materializing : Option ℕ := none
  loads : Promise.Heap (ℕ × Bool) (Option ℕ) := []
  locks : List AsyncLock := []
  queue : List CallJob := []
  calls : ℕ := 0
  entered : List (ℕ × ℕ) := []
  failed : List ℕ := []
  deriving DecidableEq, Repr

/-- The continuation of a call that waited for a load. -/
def resumed (given : (ℕ × Bool) × Option ℕ) : CallJob := .resume given.1.1 given.1.2 given.2

namespace FileCalls

/-- `loadRuntime`, up to the store. -/
def loadRuntime (s : FileCalls) : Promise.Heap (ℕ × Bool) (Option ℕ) × ℕ :=
  match s.rooms with
  | some existing => (s.loads ++ [.settled (some existing)], s.loads.length)
  | none => Promise.make s.loads

/-- A call waits for a load. -/
def awaitLoad (s : FileCalls) (load call : ℕ) (owner : Bool) : FileCalls :=
  let (loads, given) := Promise.subscribe s.loads load (call, owner)
  { s with loads, queue := s.queue ++ given.map resumed }

/-- A load ends, and the calls that wait for it get in line. -/
def settleLoad (s : FileCalls) (load : ℕ) (room : Option ℕ) : FileCalls :=
  let (loads, given) := Promise.settle s.loads load room
  { s with loads, queue := s.queue ++ given.map resumed }

/-- `materialize`, up to its first `await`. -/
def materialize (s : FileCalls) (call : ℕ) : FileCalls :=
  match s.rooms with
  | some existing => { s with queue := s.queue ++ [.enter call (some existing)] }
  | none =>
    match s.materializing with
    | some pending => { s with queue := s.queue ++ [.adopt call pending] }
    | none =>
      let (loads, created) := s.loadRuntime
      { s with loads, materializing := some created }.awaitLoad created call true

/-- The rest of `loadRuntime`, when the store has answered, or has failed. -/
def finishLoad (s : FileCalls) (load : ℕ) (ok : Bool) : FileCalls :=
  match s.loads[load]?, ok, s.rooms with
  | some (.pending _), false, _ => s.settleLoad load none
  | some (.pending _), true, some winner => s.settleLoad load (some winner)
  | some (.pending _), true, none =>
    let room := s.locks.length
    { s with
      locks := s.locks ++ [({} : AsyncLock)]
      rooms := some room }.settleLoad load (some room)
  | _, _, _ => s

/-- `room.lock.run` -/
def lockRun (s : FileCalls) (room call : ℕ) : FileCalls :=
  { s with
    locks := s.locks.modify room fun lock => lock.run call
    entered := s.entered ++ [(call, room)] }

/-- The next job in line is done. -/
def perform (s : FileCalls) : CallJob → FileCalls
  | .adopt call load => s.awaitLoad load call false
  | .resume call owner room =>
    { s with
      materializing := if owner then none else s.materializing
      queue := s.queue ++ [.enter call room] }
  | .enter call (some room) => s.lockRun room call
  | .enter call none => { s with failed := s.failed ++ [call] }

end FileCalls

/-- A call asks for the room, the sweep, a disconnect or a timer goes straight to the lock of
the room there is, the store answers a load, the `i`th of the continuations that are due is
performed, and something happens in a lock. -/
inductive FileEvent
  | call
  | lockRoom
  | loaded (load : ℕ) (ok : Bool)
  | perform (i : ℕ)
  | lock (room : ℕ) (event : LockEvent)
  deriving DecidableEq, Repr

/-- The calls on a file after an event. -/
def fileStep (s : FileCalls) : FileEvent → FileCalls
  | .call => { s with calls := s.calls + 1 }.materialize s.calls
  | .lockRoom =>
    match s.rooms with
    | some room => { s with calls := s.calls + 1 }.lockRun room s.calls
    | none => s
  | .loaded load ok => s.finishLoad load ok
  | .perform i =>
    match s.queue[i]? with
    | some job => { s with queue := s.queue.eraseIdx i }.perform job
    | none => s
  | .lock room event => { s with locks := s.locks.modify room fun lock => lockStep lock event }

namespace FileCalls

/-- The event is not a new call, and there is something for it to happen to. -/
def Enabled (s : FileCalls) : FileEvent → Prop
  | .call | .lockRoom => False
  | .loaded load _ => ∃ waiting, s.loads[load]? = some (.pending waiting)
  | .perform i => i < s.queue.length
  | .lock room event => ∃ lock, s.locks[room]? = some lock ∧ lock.Enabled event

/-- Nothing is due, no load is under way, and no body runs. -/
def Quiet (s : FileCalls) : Prop :=
  s.queue = [] ∧ (∀ load ∈ s.loads, load.isPending = false) ∧
    ∀ lock ∈ s.locks, lock.jobs = [] ∧ lock.running = []

/-! ### One room -/

end FileCalls

/-- The room a job goes on with. -/
def CallJob.room : CallJob → Option ℕ
  | .adopt _ _ => none
  | .resume _ _ room => room
  | .enter _ room => room

/-- The call a job is of. -/
def CallJob.call : CallJob → ℕ
  | .adopt call _ => call
  | .resume call _ _ => call
  | .enter call _ => call

namespace FileCalls

/-- There is at most one room, every load that succeeded gave it, and its lock has the calls that
entered. -/
structure OneRoom (s : FileCalls) : Prop where
  shape : (s.rooms = none ∧ s.locks = []) ∨ ∃ lock, s.rooms = some 0 ∧ s.locks = [lock]
  loads : ∀ room, .settled (some room) ∈ s.loads → s.rooms = some room
  queue : ∀ job ∈ s.queue, ∀ room, job.room = some room → s.rooms = some room
  entered : ∀ entry ∈ s.entered, s.rooms = some entry.2
  locks : ∀ lock ∈ s.locks, lock.Inv ∧ lock.called = s.entered.map Prod.fst

namespace OneRoom

variable {s : FileCalls}

theorem initial : OneRoom {} where
  shape := Or.inl ⟨rfl, rfl⟩
  loads _ h := nomatch h
  queue _ h := nomatch h
  entered _ h := nomatch h
  locks _ h := nomatch h

/-- What is due, with the room it is about. -/
theorem enqueue (hs : OneRoom s) {jobs : List CallJob}
    (hjobs : ∀ job ∈ jobs, ∀ room, job.room = some room → s.rooms = some room) :
    OneRoom { s with queue := s.queue ++ jobs } where
  shape := hs.shape
  loads := hs.loads
  queue job hjob := (List.mem_append.mp hjob).elim (hs.queue job) (hjobs job)
  entered := hs.entered
  locks := hs.locks

theorem dequeue (hs : OneRoom s) (i : ℕ) : OneRoom { s with queue := s.queue.eraseIdx i } where
  shape := hs.shape
  loads := hs.loads
  queue job hjob := hs.queue job (List.mem_of_mem_eraseIdx hjob)
  entered := hs.entered
  locks := hs.locks

theorem awaitLoad (hs : OneRoom s) (load call : ℕ) (owner : Bool) :
    OneRoom (s.awaitLoad load call owner) := by
  refine enqueue (s := { s with loads := (Promise.subscribe s.loads load (call, owner)).1 })
    ⟨hs.shape, fun room hroom => hs.loads room (Promise.settled_of_mem_subscribe hroom), hs.queue,
      hs.entered, hs.locks⟩ ?_
  intro job hjob room hroom
  obtain ⟨given, hgiven, rfl⟩ := List.mem_map.mp hjob
  refine hs.loads room ?_
  rw [← show given.2 = some room from hroom]
  exact (Promise.of_mem_subscribe hgiven).2

theorem settleLoad (hs : OneRoom s) {room : Option ℕ}
    (hroom : ∀ r, room = some r → s.rooms = some r) (load : ℕ) :
    OneRoom (s.settleLoad load room) := by
  refine enqueue (s := { s with loads := (Promise.settle s.loads load room).1 })
    ⟨hs.shape, fun r hr => ?_, hs.queue, hs.entered, hs.locks⟩ ?_
  · rcases Promise.settled_of_mem_settle hr with hr | hr
    · exact hs.loads r hr
    · exact hroom r hr.symm
  · intro job hjob r hr
    obtain ⟨given, hgiven, rfl⟩ := List.mem_map.mp hjob
    exact hroom r ((Promise.value_of_mem_settle hgiven).symm.trans hr)

/-- A call reaches the lock of the room. -/
theorem lockRun (hs : OneRoom s) {room : ℕ} (hroom : s.rooms = some room) (call : ℕ) :
    OneRoom (s.lockRun room call) := by
  obtain ⟨hrooms, -⟩ | ⟨lock, hrooms, hlocks⟩ := hs.shape
  · rw [hrooms] at hroom
    cases hroom
  obtain rfl : room = 0 := Option.some.inj (hroom.symm.trans hrooms)
  have hlock := hs.locks lock (by simp [hlocks])
  have hlocks' : (s.lockRun 0 call).locks = [lock.run call] := by
    simp [FileCalls.lockRun, hlocks]
  refine ⟨Or.inr ⟨lock.run call, hrooms, hlocks'⟩, hs.loads, hs.queue, ?_, ?_⟩
  · intro entry hentry
    rcases List.mem_append.mp hentry with hentry | hentry
    · exact hs.entered entry hentry
    · rw [List.mem_singleton.mp hentry]
      exact hrooms
  · rw [hlocks']
    intro lock' hlock'
    obtain rfl := List.mem_singleton.mp hlock'
    obtain ⟨hinv, hcalled, -⟩ := hlock.1.run call
    refine ⟨hinv, ?_⟩
    rw [hcalled, hlock.2]
    simp [FileCalls.lockRun]

theorem materialize (hs : OneRoom s) (call : ℕ) : OneRoom (s.materialize call) := by
  unfold FileCalls.materialize
  split
  · next existing hrooms =>
    refine hs.enqueue fun job hjob room hroom => ?_
    obtain rfl := List.mem_singleton.mp hjob
    rw [hrooms]
    exact hroom
  · next hrooms =>
    split
    · refine hs.enqueue fun job hjob room hroom => ?_
      obtain rfl := List.mem_singleton.mp hjob
      cases hroom
    · refine awaitLoad (s := { s with loads := s.loadRuntime.1, materializing := s.loadRuntime.2 })
        ⟨hs.shape, fun room hroom => ?_, hs.queue, hs.entered, hs.locks⟩ _ _ _
      rw [FileCalls.loadRuntime, hrooms] at hroom
      rcases List.mem_append.mp hroom with hroom | hroom
      · exact hs.loads room hroom
      · cases List.mem_singleton.mp hroom

/-- A load that succeeds gives the room there is, or makes the first one. -/
theorem finishLoad (hs : OneRoom s) (load : ℕ) (ok : Bool) : OneRoom (s.finishLoad load ok) := by
  unfold FileCalls.finishLoad
  split
  · exact hs.settleLoad (by rintro _ ⟨⟩) load
  · next winner _ hrooms =>
    refine hs.settleLoad (fun room hroom => ?_) load
    rw [hrooms]
    exact hroom
  · next hrooms =>
    obtain ⟨-, hlocks⟩ | ⟨lock, hroom, -⟩ := hs.shape
    · -- nobody has a room yet
      have hnone : ∀ room, s.rooms ≠ some room := by simp [hrooms]
      have hentered : s.entered = [] :=
        List.eq_nil_iff_forall_not_mem.mpr fun entry hentry => hnone _ (hs.entered entry hentry)
      dsimp only
      rw [hlocks]
      refine settleLoad ⟨Or.inr ⟨{}, rfl, rfl⟩, ?_, ?_, ?_, ?_⟩ (fun _ hroom => hroom) load
      · exact fun room hroom => absurd (hs.loads room hroom) (hnone room)
      · exact fun job hjob room hroom => absurd (hs.queue job hjob room hroom) (hnone room)
      · exact fun entry hentry => absurd (hs.entered entry hentry) (hnone _)
      · intro lock hlock
        obtain rfl := List.mem_singleton.mp hlock
        exact ⟨AsyncLock.inv_fresh, by simp [hentered]⟩
    · rw [hrooms] at hroom
      cases hroom
  · exact hs

theorem perform (hs : OneRoom s) (job : CallJob)
    (hjob : ∀ room, job.room = some room → s.rooms = some room) : OneRoom (s.perform job) := by
  cases job with
  | adopt call load => exact hs.awaitLoad load call false
  | resume call owner room =>
    refine enqueue (s := { s with materializing := if owner then none else s.materializing })
      ⟨hs.shape, hs.loads, hs.queue, hs.entered, hs.locks⟩ fun job hmem => ?_
    obtain rfl := List.mem_singleton.mp hmem
    exact hjob
  | enter call room =>
    cases room with
    | none => exact ⟨hs.shape, hs.loads, hs.queue, hs.entered, hs.locks⟩
    | some room => exact hs.lockRun (hjob room rfl) call

theorem lock (hs : OneRoom s) (room : ℕ) (event : LockEvent) :
    OneRoom { s with locks := s.locks.modify room fun lock => lockStep lock event } := by
  obtain ⟨hrooms, hlocks⟩ | ⟨lock, hrooms, hlocks⟩ := hs.shape
  · refine ⟨Or.inl ⟨hrooms, by simp [hlocks]⟩, hs.loads, hs.queue, hs.entered, ?_⟩
    simp [hlocks]
  · obtain ⟨hinv, hcalled⟩ := hs.locks lock (by simp [hlocks])
    obtain ⟨hinv', hcalled'⟩ := hinv.step event
    cases room with
    | zero =>
      refine ⟨Or.inr ⟨lockStep lock event, hrooms, by simp [hlocks]⟩, hs.loads, hs.queue,
        hs.entered, ?_⟩
      simpa [hlocks] using ⟨hinv', hcalled'.trans hcalled⟩
    | succ room =>
      refine ⟨Or.inr ⟨lock, hrooms, by simp [hlocks]⟩, hs.loads, hs.queue, hs.entered, ?_⟩
      simpa [hlocks] using ⟨hinv, hcalled⟩

/-- **There is one room.** -/
theorem step (hs : OneRoom s) (event : FileEvent) : OneRoom (fileStep s event) := by
  have hcalls : OneRoom { s with calls := s.calls + 1 } :=
    ⟨hs.shape, hs.loads, hs.queue, hs.entered, hs.locks⟩
  cases event with
  | call => exact hcalls.materialize s.calls
  | lockRoom =>
    rw [fileStep]
    split
    · next room hrooms => exact hcalls.lockRun hrooms s.calls
    · exact hs
  | loaded load ok => exact hs.finishLoad load ok
  | perform i =>
    rw [fileStep]
    split
    · next job hjob =>
      exact (hs.dequeue i).perform job (hs.queue job (List.mem_of_getElem? hjob))
    · exact hs
  | lock room event => exact hs.lock room event

end OneRoom

/-! ### Every call -/

/-- Where the calls are: due to go on, waiting for a load, in the lock, or without a room. -/
def known (s : FileCalls) : Multiset ℕ :=
  ↑(s.queue.map CallJob.call) + ↑((Promise.reactions s.loads).map Prod.fst) +
    ↑(s.entered.map Prod.fst) + ↑s.failed

/-- Who waits for a load waits for one there is. -/
structure Waits (s : FileCalls) : Prop where
  adopted : ∀ call load, .adopt call load ∈ s.queue → load < s.loads.length
  pending : ∀ load, s.materializing = some load → load < s.loads.length

section

variable {s : FileCalls}

theorem known_enqueue (jobs : List CallJob) :
    { s with queue := s.queue ++ jobs }.known = s.known + ↑(jobs.map CallJob.call) := by
  simp only [known, List.map_append, ← Multiset.coe_add]
  abel

theorem add_exchange {queue given waiting rest failed waiting' more : Multiset ℕ}
    (h : waiting + given = waiting' + more) :
    queue + given + waiting + rest + failed = queue + waiting' + rest + failed + more :=
  calc queue + given + waiting + rest + failed
    _ = queue + (waiting + given) + rest + failed := by abel
    _ = queue + waiting' + rest + failed + more := by rw [h]; abel

/-- The queue takes what the loads give away. -/
theorem known_exchange {loads : Promise.Heap (ℕ × Bool) (Option ℕ)}
    {given : List ((ℕ × Bool) × Option ℕ)} {more : List (ℕ × Bool)}
    (h : (Promise.reactions loads ++ given.map Prod.fst).Perm (Promise.reactions s.loads ++ more)) :
    { s with loads, queue := s.queue ++ given.map resumed }.known =
      s.known + ↑(more.map Prod.fst) := by
  have hgiven : (given.map resumed).map CallJob.call = (given.map Prod.fst).map Prod.fst := by
    rw [List.map_map, List.map_map]
    rfl
  have hcalls := Multiset.coe_eq_coe.mpr (h.map Prod.fst)
  rw [List.map_append, List.map_append, ← Multiset.coe_add, ← Multiset.coe_add, ← hgiven] at hcalls
  simp only [known, List.map_append, ← Multiset.coe_add]
  exact add_exchange hcalls

theorem known_awaitLoad {load : ℕ} (hload : load < s.loads.length) (call : ℕ) (owner : Bool) :
    (s.awaitLoad load call owner).known = s.known + {call} :=
  known_exchange (Promise.perm_subscribe hload (call, owner))

theorem known_settleLoad (load : ℕ) (room : Option ℕ) :
    (s.settleLoad load room).known = s.known := by
  have hperm := Promise.perm_settle s.loads load room
  rw [← List.append_nil (Promise.reactions s.loads)] at hperm
  exact (known_exchange hperm).trans (add_zero _)

theorem known_lockRun (room call : ℕ) : (s.lockRun room call).known = s.known + {call} := by
  simp only [known, lockRun, List.map_append, ← Multiset.coe_add]
  rw [show ([(call, room)].map Prod.fst : Multiset ℕ) = {call} from rfl]
  abel

theorem known_dequeue {i : ℕ} {job : CallJob} (hjob : s.queue[i]? = some job) :
    { s with queue := s.queue.eraseIdx i }.known + {job.call} = s.known := by
  obtain ⟨hi, rfl⟩ := List.getElem?_eq_some_iff.mp hjob
  have hperm := (List.getElem_cons_eraseIdx_perm hi).map CallJob.call
  rw [List.map_cons, ← Multiset.coe_eq_coe, ← Multiset.cons_coe, ← Multiset.singleton_add] at hperm
  simp only [known, ← hperm]
  abel

theorem known_perform {job : CallJob}
    (hjob : ∀ call load, job = .adopt call load → load < s.loads.length) :
    (s.perform job).known = s.known + {job.call} := by
  cases job with
  | adopt call load => exact known_awaitLoad (hjob call load rfl) call false
  | resume call owner room => exact known_enqueue [.enter call room]
  | enter call room =>
    cases room with
    | none =>
      simp only [known, perform, CallJob.call, ← Multiset.coe_add]
      rw [Multiset.coe_singleton]
      abel
    | some room => exact known_lockRun room call

theorem known_loadRuntime (hrooms : s.rooms = none) :
    { s with loads := s.loadRuntime.1, materializing := some s.loadRuntime.2 }.known = s.known := by
  simp only [known, loadRuntime, hrooms, Promise.reactions_make]

theorem known_materialize (call : ℕ) : (s.materialize call).known = s.known + {call} := by
  unfold materialize
  split
  · exact known_enqueue [_]
  · next hrooms =>
    split
    · exact known_enqueue [_]
    · dsimp only
      rw [known_awaitLoad, known_loadRuntime hrooms]
      simp [loadRuntime, hrooms, Promise.make]

end

namespace Waits

variable {s s' : FileCalls}

theorem initial : Waits {} where
  adopted _ _ h := nomatch h
  pending _ h := nomatch h

/-- There are more loads, and the queue has no other continuations that adopt one. -/
theorem of_le (hs : Waits s) (hloads : s.loads.length ≤ s'.loads.length)
    (hqueue : ∀ call load, .adopt call load ∈ s'.queue → .adopt call load ∈ s.queue)
    (hpending : ∀ load, s'.materializing = some load → load < s'.loads.length) : Waits s' where
  adopted call load h := (hs.adopted call load (hqueue call load h)).trans_le hloads
  pending := hpending

theorem adopt_of_mem_resumed {queue : List CallJob} {given : List ((ℕ × Bool) × Option ℕ)}
    {call load : ℕ} (h : .adopt call load ∈ queue ++ given.map resumed) :
    .adopt call load ∈ queue := by
  rcases List.mem_append.mp h with h | h
  · exact h
  · obtain ⟨_, -, heq⟩ := List.mem_map.mp h
    cases heq

theorem adopt_of_mem_concat {queue : List CallJob} {job : CallJob} {call load : ℕ}
    (hjob : ∀ call load, job ≠ .adopt call load) (h : .adopt call load ∈ queue ++ [job]) :
    .adopt call load ∈ queue := by
  rcases List.mem_append.mp h with h | h
  · exact h
  · exact absurd (List.mem_singleton.mp h).symm (hjob call load)

theorem awaitLoad (hs : Waits s) (load call : ℕ) (owner : Bool) :
    Waits (s.awaitLoad load call owner) := by
  have hlength : (s.awaitLoad load call owner).loads.length = s.loads.length :=
    Promise.length_subscribe
  refine hs.of_le hlength.ge (fun _ _ => adopt_of_mem_resumed) fun load h => ?_
  rw [hlength]
  exact hs.pending load h

theorem settleLoad (hs : Waits s) (load : ℕ) (room : Option ℕ) :
    Waits (s.settleLoad load room) := by
  have hlength : (s.settleLoad load room).loads.length = s.loads.length := Promise.length_settle
  refine hs.of_le hlength.ge (fun _ _ => adopt_of_mem_resumed) fun load h => ?_
  rw [hlength]
  exact hs.pending load h

theorem materialize (hs : Waits s) (call : ℕ) : Waits (s.materialize call) := by
  unfold FileCalls.materialize
  split
  · exact hs.of_le le_rfl (fun _ _ => adopt_of_mem_concat (by simp)) hs.pending
  · next hrooms =>
    split
    · next pending hpending =>
      refine ⟨fun call' load h => ?_, hs.pending⟩
      rcases List.mem_append.mp h with h | h
      · exact hs.adopted call' load h
      · cases List.mem_singleton.mp h
        exact hs.pending _ hpending
    · have hmade : s.loadRuntime = Promise.make s.loads := by rw [loadRuntime, hrooms]
      dsimp only
      rw [hmade]
      refine awaitLoad ?_ _ _ _
      refine hs.of_le ?_ (fun _ _ => id) ?_
      · simp [Promise.make]
      · rintro _ ⟨⟩
        simp [Promise.make]

theorem finishLoad (hs : Waits s) (load : ℕ) (ok : Bool) : Waits (s.finishLoad load ok) := by
  unfold FileCalls.finishLoad
  split
  · exact hs.settleLoad load none
  · exact hs.settleLoad load _
  · refine settleLoad ?_ load _
    exact ⟨hs.adopted, hs.pending⟩
  · exact hs

theorem perform (hs : Waits s) (job : CallJob) : Waits (s.perform job) := by
  cases job with
  | adopt call load => exact hs.awaitLoad load call false
  | resume call owner room =>
    refine hs.of_le le_rfl (fun _ _ => adopt_of_mem_concat (by simp)) fun load h => ?_
    cases owner with
    | false => exact hs.pending load h
    | true => cases h
  | enter call room => cases room <;> exact ⟨hs.adopted, hs.pending⟩

theorem step (hs : Waits s) (event : FileEvent) : Waits (fileStep s event) := by
  have hcalls : Waits { s with calls := s.calls + 1 } := ⟨hs.adopted, hs.pending⟩
  cases event with
  | call => exact hcalls.materialize s.calls
  | lockRoom =>
    rw [fileStep]
    split
    · exact ⟨hs.adopted, hs.pending⟩
    · exact hs
  | loaded load ok => exact hs.finishLoad load ok
  | perform i =>
    rw [fileStep]
    split
    · refine perform ?_ _
      exact hs.of_le le_rfl (fun _ _ => List.mem_of_mem_eraseIdx) hs.pending
    · exact hs
  | lock room event => exact ⟨hs.adopted, hs.pending⟩

end Waits

section

variable {s : FileCalls}

@[simp] theorem calls_settleLoad (load : ℕ) (room : Option ℕ) :
    (s.settleLoad load room).calls = s.calls := rfl

theorem known_finishLoad (load : ℕ) (ok : Bool) :
    (s.finishLoad load ok).known = s.known ∧ (s.finishLoad load ok).calls = s.calls := by
  unfold finishLoad
  split
  · exact ⟨known_settleLoad load none, rfl⟩
  · exact ⟨known_settleLoad load _, rfl⟩
  · exact ⟨known_settleLoad load _, rfl⟩
  · exact ⟨rfl, rfl⟩

theorem calls_materialize (call : ℕ) : (s.materialize call).calls = s.calls := by
  unfold materialize
  split
  · rfl
  · split <;> rfl

theorem calls_perform (job : CallJob) : (s.perform job).calls = s.calls := by
  cases job with
  | enter call room => cases room <;> rfl
  | _ => rfl

/-- **No call is lost, and none is in two places.** -/
theorem known_step (hwaits : s.Waits) (hs : s.known = List.range s.calls) (event : FileEvent) :
    (fileStep s event).known = List.range (fileStep s event).calls := by
  have hcall : ({ s with calls := s.calls + 1 } : FileCalls).known + {s.calls} =
      List.range (s.calls + 1) := by
    rw [List.range_succ, ← Multiset.coe_add, ← hs]
    rfl
  cases event with
  | call =>
    rw [fileStep, known_materialize, calls_materialize]
    exact hcall
  | lockRoom =>
    rw [fileStep]
    split
    · rw [known_lockRun]
      exact hcall
    · exact hs
  | loaded load ok =>
    rw [fileStep, (known_finishLoad load ok).1, (known_finishLoad load ok).2, hs]
  | perform i =>
    rw [fileStep]
    split
    · next job hjob =>
      rw [known_perform, known_dequeue hjob, calls_perform, hs]
      rintro call load rfl
      exact hwaits.adopted call load (List.mem_of_getElem? hjob)
    · exact hs
  | lock room event => exact hs

end

/-! ### What is left to do -/

end FileCalls

/-- How many jobs a job may still lead to. -/
def CallJob.weight : CallJob → ℕ
  | .adopt _ _ => 7
  | .resume _ _ _ => 6
  | .enter _ _ => 5

namespace FileCalls

/-- What remains to be done. -/
def work (s : FileCalls) : ℕ :=
  (s.queue.map CallJob.weight).sum + Promise.pendingCount s.loads +
    6 * (Promise.reactions s.loads).length + (s.locks.map AsyncLock.work).sum

section

variable {s : FileCalls}

theorem sum_weight_resumed (given : List ((ℕ × Bool) × Option ℕ)) :
    ((given.map resumed).map CallJob.weight).sum = 6 * given.length := by
  induction given with
  | nil => rfl
  | cons first given ih =>
    simp only [List.map_cons, List.sum_cons, ih, List.length_cons, resumed, CallJob.weight]
    omega

theorem work_awaitLoad (load call : ℕ) (owner : Bool) :
    (s.awaitLoad load call owner).work ≤ s.work + 6 := by
  have hle := Promise.length_reactions_subscribe_le (h := s.loads) (p := load) (j := (call, owner))
  simp only [work, awaitLoad, List.map_append, List.sum_append, sum_weight_resumed,
    Promise.pendingCount_subscribe]
  omega

theorem work_settleLoad {load : ℕ} {waiting : List (ℕ × Bool)}
    (hload : s.loads[load]? = some (.pending waiting)) (room : Option ℕ) :
    (s.settleLoad load room).work + 1 = s.work := by
  have hlength := (Promise.perm_settle s.loads load room).length_eq
  have hcount := @Promise.pendingCount_settle _ _ s.loads load room _ hload
  simp only [List.length_append, List.length_map] at hlength
  simp only [work, settleLoad, List.map_append, List.sum_append, sum_weight_resumed]
  omega

theorem work_finishLoad {load : ℕ} {waiting : List (ℕ × Bool)}
    (hload : s.loads[load]? = some (.pending waiting)) (ok : Bool) :
    (s.finishLoad load ok).work + 1 = s.work := by
  have hfresh : ({} : AsyncLock).work = 0 := rfl
  unfold finishLoad
  rw [hload]
  cases ok with
  | false => exact work_settleLoad hload none
  | true =>
    cases hrooms : s.rooms with
    | some winner => exact work_settleLoad hload (some winner)
    | none =>
      have hsettle := @work_settleLoad
        { s with locks := s.locks ++ [({} : AsyncLock)], rooms := some s.locks.length } load waiting
        hload (some s.locks.length)
      refine hsettle.trans ?_
      simp [work, hfresh]

theorem work_dequeue {i : ℕ} {job : CallJob} (hjob : s.queue[i]? = some job) :
    ({ s with queue := s.queue.eraseIdx i } : FileCalls).work + job.weight = s.work := by
  obtain ⟨hi, rfl⟩ := List.getElem?_eq_some_iff.mp hjob
  have hsum := ((List.getElem_cons_eraseIdx_perm hi).map CallJob.weight).sum_eq
  rw [List.map_cons, List.sum_cons] at hsum
  simp only [work]
  omega

theorem OneRoom.work_lockRun (hs : OneRoom s) {room : ℕ} (hroom : s.rooms = some room)
    (call : ℕ) : (s.lockRun room call).work = s.work + 4 := by
  obtain ⟨hrooms, -⟩ | ⟨lock, hrooms, hlocks⟩ := hs.shape
  · rw [hrooms] at hroom
    cases hroom
  obtain rfl : room = 0 := Option.some.inj (hroom.symm.trans hrooms)
  have hlock := ((hs.locks lock (by simp [hlocks])).1.run call).2.2
  simp [work, FileCalls.lockRun, hlocks, hlock]
  omega

theorem OneRoom.work_lock (hs : OneRoom s) {room : ℕ} {lock : AsyncLock} {event : LockEvent}
    (hlock : s.locks[room]? = some lock) (henabled : lock.Enabled event) :
    ({ s with locks := s.locks.modify room fun lock => lockStep lock event } : FileCalls).work + 1 =
      s.work := by
  obtain ⟨-, hlocks⟩ | ⟨lock', -, hlocks⟩ := hs.shape
  · simp [hlocks] at hlock
  cases room with
  | succ room => simp [hlocks] at hlock
  | zero =>
    obtain rfl : lock' = lock := by simpa [hlocks] using hlock
    have hstep := ((hs.locks lock' (by simp [hlocks])).1.lockStep_of_enabled henabled).2.2
    simp [work, hlocks]
    omega

theorem OneRoom.work_perform (hs : OneRoom s) {job : CallJob}
    (hjob : ∀ room, job.room = some room → s.rooms = some room) :
    (s.perform job).work < s.work + job.weight := by
  cases job with
  | adopt call load => exact Nat.lt_succ_of_le (work_awaitLoad load call false)
  | resume call owner room =>
    simp [work, FileCalls.perform, CallJob.weight]
    omega
  | enter call room =>
    cases room with
    | none => exact Nat.lt_add_of_pos_right (Nat.succ_pos _)
    | some room =>
      rw [FileCalls.perform, hs.work_lockRun (hjob room rfl)]
      exact Nat.lt_succ_self _

/-- What happens to the calls there are brings them nearer to their end. -/
theorem OneRoom.work_step (hs : OneRoom s) {event : FileEvent} (henabled : s.Enabled event) :
    (fileStep s event).work < s.work := by
  cases event with
  | call => exact henabled.elim
  | lockRoom => exact henabled.elim
  | loaded load ok =>
    obtain ⟨waiting, hload⟩ := henabled
    rw [← work_finishLoad hload ok]
    exact Nat.lt_succ_self _
  | perform i =>
    obtain ⟨job, hjob⟩ : ∃ job, s.queue[i]? = some job := ⟨_, List.getElem?_eq_getElem henabled⟩
    rw [fileStep, hjob, ← work_dequeue hjob]
    exact (hs.dequeue i).work_perform (hs.queue job (List.mem_of_getElem? hjob))
  | lock room event =>
    obtain ⟨lock, hlock, henabled⟩ := henabled
    rw [← hs.work_lock hlock henabled]
    exact Nat.lt_succ_self _

/-- Where not all is done, something can happen. -/
theorem exists_enabled (hs : ¬ s.Quiet) : ∃ event, s.Enabled event := by
  by_contra hnone
  rw [not_exists] at hnone
  refine hs ⟨?_, fun cell hcell => ?_, fun lock hlock => ⟨?_, ?_⟩⟩
  · by_contra hqueue
    exact hnone (.perform 0) (List.length_pos_of_ne_nil hqueue)
  · obtain ⟨load, hload⟩ := List.mem_iff_getElem?.mp hcell
    cases cell with
    | settled room => rfl
    | pending waiting => exact absurd ⟨waiting, hload⟩ (hnone (.loaded load true))
  · by_contra hjobs
    obtain ⟨room, hroom⟩ := List.mem_iff_getElem?.mp hlock
    exact hnone (.lock room (.perform 0)) ⟨lock, hroom, List.length_pos_of_ne_nil hjobs⟩
  · by_contra hrunning
    obtain ⟨room, hroom⟩ := List.mem_iff_getElem?.mp hlock
    exact hnone (.lock room (.bodyEnds 0 true)) ⟨lock, hroom, List.length_pos_of_ne_nil hrunning⟩

end

/-! ### Critical sections -/

/-- One room and one critical section at a time. -/
structure Serialized (s : FileCalls) : Prop where
  /-- The calls that got a room got the one there is. -/
  oneRoom : ∀ entry ∈ s.entered, s.rooms = some entry.2 ∧
    ∃ lock, s.locks = [lock] ∧ s.locks[entry.2]? = some lock
  /-- They reached its lock once. -/
  once : (s.entered.map Prod.fst ++ s.failed).Nodup
  called : ∀ lock ∈ s.locks, lock.called = s.entered.map Prod.fst
  /-- At most one body runs. -/
  exclusive : ∀ lock ∈ s.locks, lock.running.length ≤ 1
  /-- The bodies were started in the order of the calls, and each after those before it. -/
  inOrder : ∀ lock ∈ s.locks, lock.started <+: lock.called ∧
    lock.started = lock.ended ++ lock.running.map Prod.fst

/-- Every call has had its body, or has failed without a room. -/
structure Finished (s : FileCalls) : Prop where
  all : (s.entered.map Prod.fst ++ s.failed).Perm (List.range s.calls)
  ended : ∀ lock ∈ s.locks, lock.ended = s.entered.map Prod.fst

/-- The invariant of the calls on one file. -/
structure CallInv (s : FileCalls) : Prop where
  oneRoom : s.OneRoom
  waits : s.Waits
  known : s.known = List.range s.calls

theorem CallInv.initial : CallInv {} := ⟨OneRoom.initial, Waits.initial, rfl⟩

theorem CallInv.step {s : FileCalls} (hs : s.CallInv) (event : FileEvent) :
    (fileStep s event).CallInv :=
  ⟨hs.oneRoom.step event, hs.waits.step event, known_step hs.waits hs.known event⟩

theorem CallInv.serialized {s : FileCalls} (hs : s.CallInv) : s.Serialized where
  oneRoom entry hentry := by
    have hroom := hs.oneRoom.entered entry hentry
    refine ⟨hroom, ?_⟩
    obtain ⟨hrooms, -⟩ | ⟨lock, hrooms, hlocks⟩ := hs.oneRoom.shape
    · rw [hrooms] at hroom
      cases hroom
    · refine ⟨lock, hlocks, ?_⟩
      rw [hlocks, ← Option.some.inj (hrooms.symm.trans hroom)]
      rfl
  once := by
    have hnodup : s.known.Nodup := by
      rw [hs.known]
      exact List.nodup_range
    have hle : (↑(s.entered.map Prod.fst ++ s.failed) : Multiset ℕ) ≤ s.known := by
      rw [FileCalls.known, add_assoc, ← Multiset.coe_add]
      exact Multiset.le_add_left _ _
    exact Multiset.coe_nodup.mp (Multiset.nodup_of_le hle hnodup)
  called lock hlock := (hs.oneRoom.locks lock hlock).2
  exclusive lock hlock := (hs.oneRoom.locks lock hlock).1.running_length
  inOrder lock hlock :=
    ⟨(hs.oneRoom.locks lock hlock).1.started_inOrder, (hs.oneRoom.locks lock hlock).1.started_eq⟩

theorem CallInv.finished {s : FileCalls} (hs : s.CallInv) (hquiet : s.Quiet) : s.Finished where
  all := by
    obtain ⟨hqueue, hloads, -⟩ := hquiet
    have hreactions : Promise.reactions s.loads = [] := Promise.reactions_eq_nil hloads
    have hknown := hs.known
    rw [FileCalls.known, hqueue, hreactions, add_assoc, Multiset.coe_add] at hknown
    exact Multiset.coe_eq_coe.mp ((zero_add _).symm.trans hknown)
  ended lock hlock := by
    obtain ⟨hinv, hcalled⟩ := hs.oneRoom.locks lock hlock
    obtain ⟨hjobs, hrunning⟩ := hquiet.2.2 lock hlock
    exact (hinv.ended_eq_called hjobs hrunning).trans hcalled

end FileCalls

/-- **One room for a file, one critical section at a time.**  However the calls, the loads and
the bodies interleave, the calls that get a room get the same one, and their bodies run one at a
time, once each, in the order in which they reached the lock; and without new calls all comes to
its end, where each call has had its body or got no room. -/
theorem criticalSections (es : List FileEvent) :
    let s := Run.final fileStep {} es
    s.Serialized ∧ (s.Quiet → s.Finished) ∧ (¬ s.Quiet → ∃ event, s.Enabled event) ∧
      ∃ n, ∀ fs, Run.EachStep fileStep FileCalls.Enabled s fs → fs.length ≤ n := by
  intro s
  have hs : s.CallInv :=
    (Run.throughout_of_step (fun _ event h => h.step event) FileCalls.CallInv.initial es).final
  refine ⟨hs.serialized, hs.finished, FileCalls.exists_enabled, s.work, fun fs hfs => ?_⟩
  exact Run.length_le_of_measure FileCalls.work (fun _ event h => h.step event)
    (fun _ _ h henabled => h.oneRoom.work_step henabled) hs hfs

/-- Two first calls at the same time: the second waits for the load of the first. -/
example :
    let s := Run.final fileStep {} [.call, .call, .perform 0, .loaded 0 true, .perform 0,
      .perform 0, .perform 0, .perform 0]
    s.entered = [(0, 0), (1, 0)] ∧ s.locks.length = 1 := by
  decide

end ObsidianSync
