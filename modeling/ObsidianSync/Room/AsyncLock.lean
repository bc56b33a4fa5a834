import Mathlib.Algebra.Order.BigOperators.Group.List
import ObsidianSync.Lib.Promise

/-!
# The lock of a room

The lock of a room is a promise, its tail.  A call hands over a body, which starts when the tail
is settled, and the promise of the call is settled when the body has ended.  The new tail follows
that promise, and forgets whether the body threw.

Promises are those of one lock here: no other code gets hold of a tail.  The platform performs
the continuations that are due first to last; here any of them may be next.

## Main definitions

* `AsyncLock`, `AsyncLock.run` — the lock and its operation, as the source has them.
* `LockEvent`, `lockStep` — a continuation that is due is performed, a body ends.
* `AsyncLock.idle`, `AsyncLock.turn` — what a lock looks like, with the calls that wait.

## Main results

* `AsyncLock.Inv.run`, `AsyncLock.Inv.step` — a lock looks like that after every event.
* `AsyncLock.Inv.running_length`, `AsyncLock.Inv.started_inOrder` — **one body at a time, in the
  order of the calls.**
* `AsyncLock.Inv.lockStep_of_enabled`, `AsyncLock.Inv.ended_eq_called` — what was called is done
  in the end.
-/

namespace ObsidianSync

/-- What waits for a promise of the lock: the body of a call, the settling of the promise of
the call, and that of a tail. -/
inductive LockJob
  | start (call run : ℕ)
  | settleRun (run : ℕ)
  | settleTail (tail : ℕ)
  deriving DecidableEq, Repr

/-- A promise of the lock is settled with whether it was fulfilled.  `running` are the bodies
that have not ended, with the promises of their calls; the last three fields are the record. -/
structure AsyncLock where
  tail : ℕ := 0
  promises : Promise.Heap LockJob Bool := [.settled true]
  jobs : List (LockJob × Bool) := []
  running : List (ℕ × ℕ) := []
  called : List ℕ := []
  started : List ℕ := []
  ended : List ℕ := []
  deriving DecidableEq, Repr

namespace AsyncLock

/-- `run`, with the number of the call for its body. -/
def run (lock : AsyncLock) (call : ℕ) : AsyncLock :=
  -- `const run = this.tail.then(fn, fn)`
  let (promises, run) := Promise.make lock.promises
  let (promises, now) := Promise.subscribe promises lock.tail (.start call run)
  -- `this.tail = run.catch(() => undefined)`
  let (promises, tail) := Promise.make promises
  let (promises, later) := Promise.subscribe promises run (.settleTail tail)
  { lock with
    tail, promises
    jobs := lock.jobs ++ now ++ later
    called := lock.called ++ [call] }

/-- A promise is settled, and what waits for it gets in line. -/
def settle (lock : AsyncLock) (promise : ℕ) (ok : Bool) : AsyncLock :=
  let (promises, given) := Promise.settle lock.promises promise ok
  { lock with promises, jobs := lock.jobs ++ given }

/-- A continuation is performed, with the outcome of what it waited for. -/
def perform (lock : AsyncLock) : LockJob × Bool → AsyncLock
  -- the body is started after a failure as well
  | (.start call run, _) =>
    { lock with running := lock.running ++ [(call, run)], started := lock.started ++ [call] }
  | (.settleRun run, ok) => lock.settle run ok
  | (.settleTail tail, _) => lock.settle tail true

end AsyncLock

/-- The `i`th of the continuations that are due is performed, or the `i`th of the bodies that
run returns or throws. -/
inductive LockEvent
  | perform (i : ℕ)
  | bodyEnds (i : ℕ) (ok : Bool)
  deriving DecidableEq, Repr

/-- The lock after an event. -/
def lockStep (lock : AsyncLock) : LockEvent → AsyncLock
  | .perform i =>
    match lock.jobs[i]? with
    | some job => { lock with jobs := lock.jobs.eraseIdx i }.perform job
    | none => lock
  | .bodyEnds i ok =>
    match lock.running[i]? with
    | some (call, run) =>
      { lock with
        running := lock.running.eraseIdx i
        ended := lock.ended ++ [call]
        jobs := lock.jobs ++ [(.settleRun run, ok)] }
    | none => lock

/-- There is something for the event to happen to. -/
def AsyncLock.Enabled (lock : AsyncLock) : LockEvent → Prop
  | .perform i => i < lock.jobs.length
  | .bodyEnds i _ => i < lock.running.length

namespace AsyncLock

/-! ### What a lock looks like

The promises of the `k`th call are `2 * k + 1`, which is settled when the call is done, and
`2 * k + 2`, the tail it leaves.
-/

/-- A tail and what comes after it, where `calls` wait and the first of them is the `k`th. -/
def waitingLine (k : ℕ) : List ℕ → Promise.Heap LockJob Bool
  | [] => [.pending []]
  | call :: calls =>
    .pending [.start call (2 * k + 1)] :: .pending [.settleTail (2 * k + 2)] ::
      waitingLine (k + 1) calls

/-- How far the call is whose turn it is. -/
inductive Stage
  | starting (ok : Bool)
  | running
  | ending (ok : Bool)
  | closing (ok : Bool)

namespace Stage

/-- The promise of the call, until it is settled. -/
def unsettled (k : ℕ) : Stage → Promise.Heap LockJob Bool
  | closing _ => []
  | _ => [.pending [.settleTail (2 * k + 2)]]

/-- The jobs in line for a call in a stage. -/
def jobs (k call : ℕ) : Stage → List (LockJob × Bool)
  | starting ok => [(.start call (2 * k + 1), ok)]
  | running => []
  | ending ok => [(.settleRun (2 * k + 1), ok)]
  | closing ok => [(.settleTail (2 * k + 2), ok)]

/-- The bodies that are running, for a call in a stage. -/
def bodies (k call : ℕ) : Stage → List (ℕ × ℕ)
  | running => [(call, 2 * k + 1)]
  | _ => []

/-- The calls whose body has begun. -/
def started (call : ℕ) : Stage → List ℕ
  | starting _ => []
  | _ => [call]

/-- The calls whose body has ended. -/
def ended (call : ℕ) : Stage → List ℕ
  | starting _ | running => []
  | _ => [call]

end Stage

/-- The calls `done` have had their turn, and no call waits. -/
def idle (values : List Bool) (done : List ℕ) : AsyncLock where
  tail := 2 * done.length
  promises := values.map .settled
  jobs := []
  running := []
  called := done
  started := done
  ended := done

/-- The calls `done` have had their turn, it is that of `call`, and the calls `waiting` wait. -/
def turn (values : List Bool) (done : List ℕ) (call : ℕ) (stage : Stage) (waiting : List ℕ) :
    AsyncLock where
  tail := 2 * (done.length + 1 + waiting.length)
  promises := values.map .settled ++ stage.unsettled done.length ++
    waitingLine (done.length + 1) waiting
  jobs := stage.jobs done.length call
  running := stage.bodies done.length call
  called := done ++ call :: waiting
  started := done ++ stage.started call
  ended := done ++ stage.ended call

/-- What a lock looks like. -/
inductive Inv : AsyncLock → Prop
  | idle {values : List Bool} {done : List ℕ} (hvalues : values.length = 2 * done.length + 1) :
    Inv (idle values done)
  | turn {values : List Bool} {done : List ℕ} {call : ℕ} {stage : Stage} {waiting : List ℕ}
    (hvalues : values.length + (stage.unsettled done.length).length = 2 * (done.length + 1)) :
    Inv (turn values done call stage waiting)

theorem inv_fresh : Inv {} := @Inv.idle [true] [] rfl

/-! ### Calls -/

/-- One more call waits: its body for the last tail, and a new tail for its promise. -/
theorem exists_waitingLine (k : ℕ) (waiting : List ℕ) :
    ∃ ahead : Promise.Heap LockJob Bool, ahead.length = 2 * waiting.length ∧
      waitingLine k waiting = ahead ++ [.pending []] ∧
      ∀ call, waitingLine k (waiting ++ [call]) =
        ahead ++ [.pending [.start call (2 * (k + waiting.length) + 1)],
          .pending [.settleTail (2 * (k + waiting.length) + 2)], .pending []] := by
  induction waiting generalizing k with
  | nil => exact ⟨[], rfl, rfl, fun _ => rfl⟩
  | cons first waiting ih =>
    obtain ⟨ahead, hlength, hline, hmore⟩ := ih (k + 1)
    refine ⟨.pending [.start first (2 * k + 1)] :: .pending [.settleTail (2 * k + 2)] :: ahead,
      ?_, ?_, fun call => ?_⟩
    · simp only [List.length_cons, hlength]
      omega
    · rw [waitingLine, hline]
      rfl
    · have hk : k + 1 + waiting.length = k + (first :: waiting).length := by
        rw [List.length_cons]
        omega
      rw [List.cons_append, waitingLine, hmore, hk]
      rfl

section

variable {lock : AsyncLock} {before : Promise.Heap LockJob Bool} {call : ℕ}

/-- A call on a lock whose tail is pending waits. -/
theorem run_of_pending (htail : lock.tail = before.length)
    (hpromises : lock.promises = before ++ [.pending []]) :
    lock.run call = { lock with
      tail := before.length + 2
      promises := before ++ [.pending [.start call (before.length + 1)],
        .pending [.settleTail (before.length + 2)], .pending []]
      called := lock.called ++ [call] } := by
  simp only [run, Promise.make, hpromises, htail, List.append_assoc, List.cons_append,
    List.nil_append, List.length_append, List.length_cons, List.length_nil]
  rw [Promise.subscribe_at rfl]
  simp only [List.length_append, List.length_cons, List.length_nil, List.append_assoc,
    List.cons_append, List.nil_append]
  rw [List.append_cons before, Promise.subscribe_at (by simp)]
  simp

/-- The body of a call on a lock whose tail is settled is due. -/
theorem run_of_settled {ok : Bool} (htail : lock.tail = before.length)
    (hpromises : lock.promises = before ++ [.settled ok]) :
    lock.run call = { lock with
      tail := before.length + 2
      promises := before ++ [.settled ok, .pending [.settleTail (before.length + 2)], .pending []]
      jobs := lock.jobs ++ [(.start call (before.length + 1), ok)]
      called := lock.called ++ [call] } := by
  simp only [run, Promise.make, hpromises, htail, List.append_assoc, List.cons_append,
    List.nil_append, List.length_append, List.length_cons, List.length_nil]
  rw [Promise.subscribe_at_settled rfl]
  simp only [List.length_append, List.length_cons, List.length_nil, List.append_assoc,
    List.cons_append, List.nil_append]
  rw [List.append_cons before, Promise.subscribe_at (by simp)]
  simp

end

section

variable {values : List Bool} {done : List ℕ} {call : ℕ} {stage : Stage} {waiting : List ℕ}

/-- The first call on a lock gets its turn. -/
theorem run_idle (hvalues : values.length = 2 * done.length + 1) :
    ∃ ok, (idle values done).run call = turn values done call (.starting ok) [] := by
  obtain rfl | ⟨earlier, ok, rfl⟩ := values.eq_nil_or_concat'
  · simp at hvalues
  · have hlength :
        (earlier.map (Promise.Cell.settled (J := LockJob))).length = 2 * done.length := by
      simpa using hvalues
    refine ⟨ok, ?_⟩
    rw [@run_of_settled _ (earlier.map .settled) _ ok hlength.symm (by simp [idle])]
    simp [turn, idle, hlength, Stage.jobs, Stage.bodies, Stage.started, Stage.ended,
      Stage.unsettled, waitingLine]
    omega

/-- A later one waits. -/
theorem run_turn
    (hvalues : values.length + (stage.unsettled done.length).length = 2 * (done.length + 1))
    (last : ℕ) :
    (turn values done call stage waiting).run last =
      turn values done call stage (waiting ++ [last]) := by
  obtain ⟨ahead, hlength, hline, hmore⟩ := exists_waitingLine (done.length + 1) waiting
  have hbefore : 2 * (done.length + 1 + waiting.length) =
      (values.map (Promise.Cell.settled (J := LockJob)) ++ stage.unsettled done.length ++
        ahead).length := by
    simp only [List.length_append, List.length_map, hlength]
    omega
  rw [run_of_pending hbefore (by simp [turn, hline])]
  simp [turn, hmore]
  omega

/-! ### Events -/

theorem perform_starting (ok : Bool) :
    lockStep (turn values done call (.starting ok) waiting) (.perform 0) =
      turn values done call .running waiting := by
  simp [lockStep, turn, Stage.jobs, perform, Stage.bodies, Stage.started, Stage.ended,
    Stage.unsettled]

theorem bodyEnds_running (ok : Bool) :
    lockStep (turn values done call .running waiting) (.bodyEnds 0 ok) =
      turn values done call (.ending ok) waiting := by
  simp [lockStep, turn, Stage.jobs, Stage.bodies, Stage.started, Stage.ended, Stage.unsettled]

theorem perform_ending (hvalues : values.length = 2 * done.length + 1) (ok : Bool) :
    lockStep (turn values done call (.ending ok) waiting) (.perform 0) =
      turn (values ++ [ok]) done call (.closing ok) waiting := by
  have hlength : (values.map (Promise.Cell.settled (J := LockJob))).length =
      2 * done.length + 1 := by
    simpa using hvalues
  simp [lockStep, turn, Stage.jobs, perform, settle, Stage.unsettled, Stage.bodies,
    Stage.started, Stage.ended, Promise.settle_at hlength]

theorem perform_closing_last (hvalues : values.length = 2 * (done.length + 1)) (ok : Bool) :
    lockStep (turn values done call (.closing ok) []) (.perform 0) =
      idle (values ++ [true]) (done ++ [call]) := by
  have hlength : (values.map (Promise.Cell.settled (J := LockJob))).length =
      2 * done.length + 2 := by
    rw [List.length_map, hvalues]
    omega
  simp [lockStep, turn, idle, Stage.jobs, perform, settle, Stage.unsettled, Stage.bodies,
    Stage.started, Stage.ended, waitingLine, Promise.settle_at hlength]

theorem perform_closing (hvalues : values.length = 2 * (done.length + 1)) (ok : Bool)
    (next : ℕ) :
    lockStep (turn values done call (.closing ok) (next :: waiting)) (.perform 0) =
      turn (values ++ [true]) (done ++ [call]) next (.starting true) waiting := by
  have hlength : (values.map (Promise.Cell.settled (J := LockJob))).length =
      2 * done.length + 2 := by
    rw [List.length_map, hvalues]
    omega
  simp [lockStep, turn, Stage.jobs, perform, settle, Stage.unsettled, Stage.bodies,
    Stage.started, Stage.ended, waitingLine, Promise.settle_at hlength]
  omega

theorem enabled_turn {event : LockEvent}
    (henabled : (turn values done call stage waiting).Enabled event) :
    (stage = .running ∧ ∃ ok, event = .bodyEnds 0 ok) ∨
      (stage ≠ .running ∧ event = .perform 0) := by
  cases stage <;> cases event <;>
    simp_all [Enabled, turn, Stage.jobs, Stage.bodies]

end

/-- What remains to be done. -/
def work (lock : AsyncLock) : ℕ :=
  4 * (lock.called.length - lock.started.length) + 3 * lock.running.length +
    (lock.jobs.map fun job =>
      match job.1 with
      | .start _ _ => 0
      | .settleRun _ => 2
      | .settleTail _ => 1).sum

theorem lockStep_of_not_enabled {lock : AsyncLock} {event : LockEvent}
    (henabled : ¬ lock.Enabled event) : lockStep lock event = lock := by
  cases event with
  | perform i => simp [lockStep, List.getElem?_eq_none (Nat.le_of_not_lt henabled)]
  | bodyEnds i ok => simp [lockStep, List.getElem?_eq_none (Nat.le_of_not_lt henabled)]

namespace Inv

variable {lock : AsyncLock} {event : LockEvent}

theorem run (hlock : Inv lock) (call : ℕ) :
    Inv (lock.run call) ∧ (lock.run call).called = lock.called ++ [call] ∧
      (lock.run call).work = lock.work + 4 := by
  cases hlock with
  | @idle values done hvalues =>
    obtain ⟨ok, hrun⟩ := @run_idle _ _ call hvalues
    rw [hrun]
    refine ⟨Inv.turn ?_, rfl, ?_⟩
    · simp [Stage.unsettled, hvalues]
      omega
    · simp [work, AsyncLock.turn, AsyncLock.idle, Stage.jobs, Stage.bodies, Stage.started]
  | @turn values done first stage waiting hvalues =>
    rw [run_turn hvalues]
    refine ⟨Inv.turn hvalues, ?_, ?_⟩
    · simp [AsyncLock.turn]
    · cases stage <;>
        simp [work, AsyncLock.turn, Stage.jobs, Stage.bodies, Stage.started] <;> omega

/-- An event brings the lock nearer to its end. -/
theorem lockStep_of_enabled (hlock : Inv lock) (henabled : lock.Enabled event) :
    Inv (lockStep lock event) ∧ (lockStep lock event).called = lock.called ∧
      (lockStep lock event).work + 1 = lock.work := by
  cases hlock with
  | idle hvalues => cases event <;> exact absurd henabled (Nat.not_lt_zero _)
  | @turn values done call stage waiting hvalues =>
    obtain ⟨rfl, ok, rfl⟩ | ⟨hstage, rfl⟩ := enabled_turn henabled
    · rw [bodyEnds_running]
      refine ⟨Inv.turn hvalues, rfl, ?_⟩
      simp [work, AsyncLock.turn, Stage.jobs, Stage.bodies, Stage.started]
    cases stage with
    | starting ok =>
      rw [perform_starting]
      refine ⟨Inv.turn hvalues, rfl, ?_⟩
      simp [work, AsyncLock.turn, Stage.jobs, Stage.bodies, Stage.started]
      omega
    | running => exact absurd rfl hstage
    | ending ok =>
      have hsettled : values.length = 2 * done.length + 1 := by
        simpa [Stage.unsettled, Nat.mul_add] using hvalues
      rw [perform_ending hsettled]
      refine ⟨Inv.turn ?_, rfl, ?_⟩
      · simp [Stage.unsettled, hsettled]
        omega
      · simp [work, AsyncLock.turn, Stage.jobs, Stage.bodies, Stage.started]
    | closing ok =>
      have hsettled : values.length = 2 * (done.length + 1) := by
        simpa [Stage.unsettled] using hvalues
      cases waiting with
      | nil =>
        rw [perform_closing_last hsettled]
        refine ⟨Inv.idle (by simp [hsettled]), rfl, ?_⟩
        simp [work, AsyncLock.turn, AsyncLock.idle, Stage.jobs, Stage.bodies, Stage.started]
      | cons next waiting =>
        rw [perform_closing hsettled]
        refine ⟨Inv.turn ?_, ?_, ?_⟩
        · simp [Stage.unsettled, hsettled]
          omega
        · simp [AsyncLock.turn]
        · simp [work, AsyncLock.turn, Stage.jobs, Stage.bodies, Stage.started]

theorem step (hlock : Inv lock) (event : LockEvent) :
    Inv (lockStep lock event) ∧ (lockStep lock event).called = lock.called := by
  by_cases henabled : lock.Enabled event
  · exact ⟨(hlock.lockStep_of_enabled henabled).1, (hlock.lockStep_of_enabled henabled).2.1⟩
  · rw [lockStep_of_not_enabled henabled]
    exact ⟨hlock, rfl⟩

/-- The bodies of the lock do not overlap. -/
theorem running_length (hlock : Inv lock) : lock.running.length ≤ 1 := by
  cases hlock with
  | idle hvalues => exact Nat.zero_le 1
  | @turn values done call stage waiting hvalues =>
    cases stage <;> simp [AsyncLock.turn, Stage.bodies]

/-- They are started in the order of the calls. -/
theorem started_inOrder (hlock : Inv lock) : lock.started <+: lock.called := by
  cases hlock with
  | idle hvalues => exact List.prefix_rfl
  | @turn values done call stage waiting hvalues =>
    cases stage <;> simp [AsyncLock.turn, Stage.started]

/-- What was started runs or has ended, in this order. -/
theorem started_eq (hlock : Inv lock) :
    lock.started = lock.ended ++ lock.running.map Prod.fst := by
  cases hlock with
  | idle hvalues => exact (List.append_nil _).symm
  | @turn values done call stage waiting hvalues =>
    cases stage <;> simp [AsyncLock.turn, Stage.started, Stage.ended, Stage.bodies]

/-- A lock on which nothing can happen has had every body. -/
theorem ended_eq_called (hlock : Inv lock) (hjobs : lock.jobs = []) (hrunning : lock.running = []) :
    lock.ended = lock.called := by
  cases hlock with
  | idle hvalues => rfl
  | @turn values done call stage waiting hvalues =>
    cases stage <;> simp [AsyncLock.turn, Stage.jobs, Stage.bodies] at hjobs hrunning

end Inv

end AsyncLock

end ObsidianSync
