import ObsidianSync.History.Retention
import ObsidianSync.Lib.Run

/-!
# The job of the collector

The collector runs on a timer: when it fires a run begins, and after the run the timer is set
again.  Stopping the job clears the timer and waits for the run that is going on.  The job only
knows one timer, so that a second one is forgotten: it goes on firing after the job was stopped.
That takes a call of `start` while the callback of the timer is on its way.

Each statement of a run is a wait, in which calls of the job and other timers may come.

## Main definitions

* `YjsGcJob` — the job, the timers that are set, and the runs that are going on.
* `gcJobStep` — what a call, a timer, or an answer of the database does.
* `OneTimer` — stopping the job stops it.
* `Orderly` — calls that do not start what is going on, or was stopped.

## Main results

* `oneTimer_iff` — **in which runs the job has one timer at most**, and does nothing any more
  when it was stopped.
-/

namespace ObsidianSync

/-! ### The job -/

/-- What a run deleted. -/
structure YjsGcResult where
  historyPruned : ℕ := 0
  snapshotsPruned : ℕ := 0
  updatesPruned : ℕ := 0
  deriving DecidableEq, Repr

/-- The statement whose answer `runOnce` waits for, with what it has learned so far. -/
inductive GcPhase
  | listSnapshotHistoryForGc
  | pruneSnapshotHistory (rows : List GcSnapshotRow) (versionIds : List String)
  /-- The two statements of `pruneSupersededYjsData`. -/
  | supersededSnapshots (rows : List GcSnapshotRow) (historyPruned : ℕ)
  | compactedUpdates (rows : List GcSnapshotRow) (historyPruned snapshotsPruned : ℕ)
  deriving DecidableEq, Repr

/-- A call of `runOnce` that found the job not running. -/
structure GcRun where
  /-- The callback of the timer has called. -/
  fromTimer : Bool
  phase : GcPhase := .listSnapshotHistoryForGc
  deriving DecidableEq, Repr

/-- What a statement of a run is answered with. -/
inductive GcAnswer
  | rows (rows : List GcSnapshotRow)
  | count (count : ℕ)
  | failed
  deriving DecidableEq, Repr

/-- The job, with the timers and runs that it has going. -/
structure YjsGcJob where
  timer : Option ℕ := none
  running : Bool := false
  stopped : Bool := false
  /-- The timers that are set, and the number of those that ever were. -/
  timers : List ℕ := []
  made : ℕ := 0
  runs : List GcRun := []
  /-- The callbacks whose run is over, and which will set the timer again. -/
  settling : ℕ := 0
  /-- The calls of `stop` that wait for the run. -/
  stopping : ℕ := 0
  /-- A call of `stop` has returned. -/
  hasStopped : Bool := false
  /-- What the runs returned, nothing for one that threw. -/
  results : List (Option YjsGcResult) := []
  deriving DecidableEq, Repr

/-- Where an answer leads: to the next statement, or to the end of the run. -/
def GcPhase.answered (locale : Collation) (retainedVersionsPerFile : ℕ) :
    GcPhase → GcAnswer → GcPhase ⊕ Option YjsGcResult
  | .listSnapshotHistoryForGc, .rows rows =>
    let plan := selectYjsHistoryRetention locale rows retainedVersionsPerFile
    -- without ids `pruneSnapshotHistory` makes no statement
    if plan.pruneVersionIds = [] then .inl (.supersededSnapshots rows 0)
    else .inl (.pruneSnapshotHistory rows plan.pruneVersionIds)
  | .pruneSnapshotHistory rows _, .count historyPruned =>
    .inl (.supersededSnapshots rows historyPruned)
  | .supersededSnapshots rows historyPruned, .count snapshotsPruned =>
    .inl (.compactedUpdates rows historyPruned snapshotsPruned)
  | .compactedUpdates _ historyPruned snapshotsPruned, .count updatesPruned =>
    .inr (some { historyPruned, snapshotsPruned, updatesPruned })
  | _, _ => .inr none

namespace YjsGcJob

variable (job : YjsGcJob)

/-- The timer for the next run is set. -/
def schedule : YjsGcJob :=
  if job.stopped then job
  else
    { job with timer := some job.made, timers := job.timers ++ [job.made], made := job.made + 1 }

/-- The job begins to run by its timer. -/
def start (intervalMs : ℤ) : YjsGcJob :=
  if job.timer.isSome ∨ intervalMs ≤ 0 then job else job.schedule

/-- A call returns or throws; after it comes the `finally` of the callback. -/
def settle (fromTimer : Bool) (result : Option YjsGcResult) : YjsGcJob :=
  { job with
    results := job.results ++ [result]
    settling := job.settling + if fromTimer then 1 else 0 }

/-- A run begins, unless one is going on. -/
def runOnce (fromTimer : Bool) : YjsGcJob :=
  if job.running then job.settle fromTimer (some {})
  else { job with running := true, runs := job.runs ++ [{ fromTimer }] }

/-- The callback of a timer that is set. -/
def fires (timer : ℕ) : YjsGcJob :=
  if timer ∈ job.timers then
    { job with timers := job.timers.erase timer, timer := none }.runOnce true
  else job

/-- The `finally` of the callback. -/
def settled : YjsGcJob :=
  if job.settling = 0 then job else { job with settling := job.settling - 1 }.schedule

/-- The beginning of `stop`; then it looks whether a run is going on. -/
def stop : YjsGcJob :=
  { job with
    stopped := true
    timers := job.timers.filter fun timer => job.timer ≠ some timer
    timer := none
    stopping := job.stopping + 1 }

/-- A call of `stop` looks whether the run is over. -/
def poll : YjsGcJob :=
  if job.stopping = 0 ∨ job.running then job
  else { job with stopping := job.stopping - 1, hasStopped := true }

/-- The database answers a run. -/
def answered (locale : Collation) (retainedVersionsPerFile run : ℕ) (answer : GcAnswer) :
    YjsGcJob :=
  match job.runs[run]? with
  | none => job
  | some going =>
    match going.phase.answered locale retainedVersionsPerFile answer with
    | .inl phase => { job with runs := job.runs.set run { going with phase } }
    | .inr result =>
      { job with runs := job.runs.eraseIdx run, running := false }.settle going.fromTimer result

end YjsGcJob

/-- A call of the job, or its timers. -/
inductive GcJobCall
  | start
  | runOnce
  | fires (timer : ℕ)
  | settled
  | stop
  | poll
  deriving DecidableEq, Repr

/-- The job after a call. -/
def YjsGcJob.call (intervalMs : ℤ) (job : YjsGcJob) : GcJobCall → YjsGcJob
  | .start => job.start intervalMs
  | .runOnce => job.runOnce false
  | .fires timer => job.fires timer
  | .settled => job.settled
  | .stop => job.stop.poll
  | .poll => job.poll

/-- What happens to a job. -/
inductive GcJobEvent
  | call (call : GcJobCall)
  | answered (run : ℕ) (answer : GcAnswer)
  deriving DecidableEq, Repr

/-- The job after an event. -/
def gcJobStep (locale : Collation) (retainedVersionsPerFile : ℕ) (intervalMs : ℤ)
    (job : YjsGcJob) : GcJobEvent → YjsGcJob
  | .call call => job.call intervalMs call
  | .answered run answer => job.answered locale retainedVersionsPerFile run answer

/-! ### What stopping does -/

/-- The callbacks of the timer that are on their way. -/
def YjsGcJob.callbacks (job : YjsGcJob) : ℕ :=
  job.runs.countP (·.fromTimer) + job.settling

/-- One run at most is going on, and one timer is set or one of its callbacks is on its way.  The
timer is the one that the job knows, so that stopping clears it; when a call of `stop` has
returned no run is going on. -/
structure OneTimer (job : YjsGcJob) : Prop where
  timers : job.timers = job.timer.toList
  stopped : job.stopped = true → job.timers = []
  once : job.timers.length + job.callbacks ≤ 1
  alone : job.runs.length ≤ 1
  hasStopped : job.hasStopped = true → job.runs = []

/-- The job is not started while a callback of its timer is on its way, and no run is asked for
when a call of `stop` has returned. -/
def Orderly (intervalMs : ℤ) (job : YjsGcJob) : GcJobEvent → Prop
  | .call .start =>
    job.timer.isSome = true ∨ intervalMs ≤ 0 ∨ job.stopped = true ∨ job.callbacks = 0
  | .call .runOnce => job.hasStopped = false
  | _ => True

/-! ### Every step -/

/-- One timer, of a job that is running when it has a run. -/
structure Tidy (job : YjsGcJob) : Prop extends OneTimer job where
  running : job.running = true ↔ job.runs ≠ []
  isStopped : job.hasStopped = true → job.stopped = true
  isStopping : job.stopping ≠ 0 → job.stopped = true

section

variable {locale : Collation} {retainedVersionsPerFile : ℕ} {intervalMs : ℤ} {job : YjsGcJob}

theorem Tidy.runs_nil (h : Tidy job) (hrunning : job.running = false) : job.runs = [] := by
  by_contra hruns
  rw [h.running.mpr hruns] at hrunning
  cases hrunning

theorem callbacks_settle (job : YjsGcJob) (fromTimer : Bool) (result : Option YjsGcResult) :
    (job.settle fromTimer result).callbacks = job.callbacks + if fromTimer then 1 else 0 := by
  simp only [YjsGcJob.callbacks, YjsGcJob.settle, Nat.add_assoc]

/-- The timer is set where none is, and no callback is on its way. -/
theorem Tidy.schedule (h : Tidy job) (hnone : job.timer = none) (hcallbacks : job.callbacks = 0) :
    Tidy job.schedule := by
  unfold YjsGcJob.schedule
  split
  · exact h
  · next hstopped =>
    have htimers : job.timers = [] := h.timers.trans (congrArg Option.toList hnone)
    exact
      { timers := congrArg (· ++ [job.made]) htimers
        stopped := fun hstop => absurd hstop hstopped
        once := by
          show (job.timers ++ [job.made]).length + job.callbacks ≤ 1
          rw [htimers, hcallbacks]
          exact Nat.le_refl 1
        alone := h.alone
        hasStopped := h.hasStopped
        running := h.running
        isStopped := h.isStopped
        isStopping := h.isStopping }

/-- A call of the timer, or of somebody while no call of `stop` has returned. -/
theorem Tidy.runOnce (h : Tidy job) {fromTimer : Bool}
    (honce : job.timers.length + job.callbacks + (if fromTimer then 1 else 0) ≤ 1)
    (hgoing : job.hasStopped = false) : Tidy (job.runOnce fromTimer) := by
  unfold YjsGcJob.runOnce
  split
  · have hcallbacks := callbacks_settle job fromTimer (some {})
    refine { h with once := ?_ }
    show job.timers.length + (job.settle fromTimer (some {})).callbacks ≤ 1
    omega
  · next hrunning =>
    have hruns : job.runs = [] := h.runs_nil (Bool.eq_false_iff.mpr hrunning)
    have hcallbacks : job.callbacks = job.settling := by
      unfold YjsGcJob.callbacks
      rw [hruns, List.countP_nil, Nat.zero_add]
    refine { h with once := ?_, alone := ?_, hasStopped := ?_, running := ?_ }
    · show job.timers.length
        + ((job.runs ++ [GcRun.mk fromTimer .listSnapshotHistoryForGc]).countP (·.fromTimer)
          + job.settling) ≤ 1
      rw [hruns, List.nil_append, List.countP_singleton]
      show job.timers.length + ((if fromTimer then 1 else 0) + job.settling) ≤ 1
      omega
    · show (job.runs ++ [_]).length ≤ 1
      rw [hruns]
      exact Nat.le_refl 1
    · intro hstopped
      rw [show job.hasStopped = true from hstopped] at hgoing
      cases hgoing
    · exact iff_of_true rfl (List.append_ne_nil_of_right_ne_nil _ (List.cons_ne_nil _ _))

theorem Tidy.start (h : Tidy job) (horderly : Orderly intervalMs job (.call .start)) :
    Tidy (job.start intervalMs) := by
  unfold YjsGcJob.start
  split
  · exact h
  · next hstarts =>
    rw [not_or] at hstarts
    rcases horderly with hset | hinterval | hstopped | hcallbacks
    · exact absurd hset hstarts.1
    · exact absurd hinterval hstarts.2
    · unfold YjsGcJob.schedule
      rw [if_pos hstopped]
      exact h
    · exact h.schedule (Option.not_isSome_iff_eq_none.mp hstarts.1) hcallbacks

/-- A timer that fires is the one the job knows. -/
theorem Tidy.fires (h : Tidy job) (timer : ℕ) : Tidy (job.fires timer) := by
  unfold YjsGcJob.fires
  split
  · next hset =>
    have htimer : job.timer = some timer := by
      rw [h.timers, Option.mem_toList] at hset
      exact hset
    have htimers : job.timers = [timer] := h.timers.trans (congrArg Option.toList htimer)
    have herased : job.timers.erase timer = [] := by
      rw [htimers, List.erase_cons_head]
    have honce := h.once
    rw [htimers, List.length_singleton] at honce
    have hgoing : job.hasStopped = false := by
      rw [Bool.eq_false_iff]
      intro hstopped
      have hnone := h.stopped (h.isStopped hstopped)
      rw [htimers] at hnone
      cases hnone
    have hcallbacks : job.callbacks = 0 := by omega
    have hfired : Tidy { job with timers := job.timers.erase timer, timer := none } := by
      refine { h with timers := herased, stopped := fun _ => herased, once := ?_ }
      show (job.timers.erase timer).length + job.callbacks ≤ 1
      rw [herased, hcallbacks]
      exact Nat.zero_le 1
    refine hfired.runOnce ?_ hgoing
    show (job.timers.erase timer).length + job.callbacks + 1 ≤ 1
    rw [herased, hcallbacks]
    exact Nat.le_refl 1
  · exact h

/-- While a callback is on its way no timer is set. -/
theorem Tidy.settled (h : Tidy job) : Tidy job.settled := by
  unfold YjsGcJob.settled
  split
  · exact h
  · next hsettling =>
    have honce := h.once
    unfold YjsGcJob.callbacks at honce
    have hempty : job.timers = [] := List.length_eq_zero_iff.mp (by omega)
    have hnone : job.timer = none := by
      rw [h.timers] at hempty
      exact Option.toList_eq_nil_iff.mp hempty
    refine Tidy.schedule { h with once := ?_ } hnone ?_
    · show job.timers.length + (job.runs.countP (·.fromTimer) + (job.settling - 1)) ≤ 1
      omega
    · show job.runs.countP (·.fromTimer) + (job.settling - 1) = 0
      omega

theorem Tidy.stop (h : Tidy job) : Tidy job.stop := by
  have hcleared : (job.timers.filter fun timer => job.timer ≠ some timer) = [] := by
    rw [h.timers, List.filter_eq_nil_iff]
    intro timer hmem
    simp [Option.mem_toList.mp hmem]
  refine { h with timers := hcleared, stopped := fun _ => hcleared, once := ?_,
                  isStopped := fun _ => rfl, isStopping := fun _ => rfl }
  have honce := h.once
  show (job.timers.filter _).length + job.callbacks ≤ 1
  rw [hcleared, List.length_nil]
  omega

theorem Tidy.poll (h : Tidy job) : Tidy job.poll := by
  unfold YjsGcJob.poll
  split
  · exact h
  · next hover =>
    rw [not_or] at hover
    have hruns : job.runs = [] := h.runs_nil (Bool.eq_false_iff.mpr hover.2)
    have hstopped : job.stopped = true := h.isStopping hover.1
    exact { h with
      hasStopped := fun _ => hruns
      isStopped := fun _ => hstopped, isStopping := fun _ => hstopped }

/-- An answer leads a run on, or ends it. -/
theorem Tidy.answered (h : Tidy job) (run : ℕ) (answer : GcAnswer) :
    Tidy (job.answered locale retainedVersionsPerFile run answer) := by
  unfold YjsGcJob.answered
  split
  · exact h
  · next going hgoing =>
    -- there is one run only
    obtain ⟨rfl, hruns⟩ : run = 0 ∧ job.runs = [going] := by
      have halone := h.alone
      rcases hlist : job.runs with _ | ⟨first, _ | ⟨second, rest⟩⟩
      · rw [hlist] at hgoing
        cases hgoing
      · rw [hlist] at hgoing
        cases run with
        | zero => exact ⟨rfl, congrArg (fun r => [r]) (Option.some.inj hgoing)⟩
        | succ run => cases hgoing
      · rw [hlist] at halone
        exact absurd halone (by simp)
    have honce := h.once
    have hnotStopped : job.hasStopped = false := by
      rw [Bool.eq_false_iff]
      intro hstopped
      have hnone := h.hasStopped hstopped
      rw [hruns] at hnone
      cases hnone
    have hcallbacks : job.callbacks = (if going.fromTimer then 1 else 0) + job.settling := by
      unfold YjsGcJob.callbacks
      rw [hruns, List.countP_singleton]
    split
    · next phase _ =>
      refine { h with once := ?_, alone := ?_, hasStopped := ?_, running := ?_ }
      · show job.timers.length
          + ((job.runs.set 0 { going with phase }).countP (·.fromTimer) + job.settling) ≤ 1
        rw [hruns, List.set_cons_zero, List.countP_singleton]
        show job.timers.length + ((if going.fromTimer then 1 else 0) + job.settling) ≤ 1
        omega
      · show (job.runs.set 0 _).length ≤ 1
        rw [List.length_set]
        exact h.alone
      · intro hstopped
        rw [show job.hasStopped = true from hstopped] at hnotStopped
        cases hnotStopped
      · refine iff_of_true (h.running.mpr (by simp [hruns])) ?_
        show job.runs.set 0 _ ≠ []
        rw [hruns]
        exact List.cons_ne_nil _ _
    · next result _ =>
      have herased : job.runs.eraseIdx 0 = [] := by rw [hruns, List.eraseIdx_cons_zero]
      refine { h with once := ?_, alone := ?_, hasStopped := fun _ => herased, running := ?_ }
      · rw [callbacks_settle]
        show job.timers.length + ((job.runs.eraseIdx 0).countP (·.fromTimer) + job.settling
          + if going.fromTimer then 1 else 0) ≤ 1
        rw [herased, List.countP_nil]
        omega
      · show (job.runs.eraseIdx 0).length ≤ 1
        rw [herased]
        exact Nat.zero_le 1
      · exact iff_of_false Bool.false_ne_true (not_not_intro herased)

/-! ### Runs -/

theorem Tidy.step (h : Tidy job) (event : GcJobEvent) (horderly : Orderly intervalMs job event) :
    Tidy (gcJobStep locale retainedVersionsPerFile intervalMs job event) := by
  rcases event with (_ | _ | timer | _ | _ | _) | ⟨run, answer⟩
  · exact h.start horderly
  · exact h.runOnce h.once horderly
  · exact h.fires timer
  · exact h.settled
  · exact h.stop.poll
  · exact h.poll
  · exact h.answered run answer

/-- A second timer, or a run after the job was stopped. -/
theorem Tidy.orderly_of_step (h : Tidy job) (event : GcJobEvent)
    (hafter : OneTimer (gcJobStep locale retainedVersionsPerFile intervalMs job event)) :
    Orderly intervalMs job event := by
  rcases event with (_ | _ | timer | _ | _ | _) | ⟨run, answer⟩
  · by_contra hnot
    simp only [Orderly, not_or] at hnot
    obtain ⟨hset, hinterval, hstopped, hcallbacks⟩ := hnot
    have hafter' : OneTimer (job.start intervalMs) := hafter
    unfold YjsGcJob.start YjsGcJob.schedule at hafter'
    rw [if_neg (not_or.mpr ⟨hset, hinterval⟩), if_neg hstopped] at hafter'
    have honce : (job.timers ++ [job.made]).length + job.callbacks ≤ 1 := hafter'.once
    rw [List.length_append, List.length_singleton] at honce
    omega
  · show job.hasStopped = false
    rw [Bool.eq_false_iff]
    intro hstopped
    have hruns := h.hasStopped hstopped
    have hrunning : job.running = false := by
      rw [Bool.eq_false_iff]
      exact fun hgoing => h.running.mp hgoing hruns
    have hafter' : OneTimer (job.runOnce false) := hafter
    unfold YjsGcJob.runOnce at hafter'
    rw [hrunning] at hafter'
    exact List.append_ne_nil_of_right_ne_nil _ (List.cons_ne_nil _ _) (hafter'.hasStopped hstopped)
  all_goals trivial

theorem tidy_initial : Tidy {} where
  timers := rfl
  stopped := fun _ => rfl
  once := Nat.zero_le 1
  alone := Nat.zero_le 1
  hasStopped := fun _ => rfl
  running := iff_of_false Bool.false_ne_true (not_not_intro rfl)
  isStopped := nofun
  isStopping := fun hstopping => absurd rfl hstopping

end

/-- **The job has one timer at most, and does nothing any more when it was stopped**, in exactly
the runs in which it is not started while a callback is on its way, nor asked for a run after it
was stopped. -/
theorem oneTimer_iff (locale : Collation) (retainedVersionsPerFile : ℕ) (intervalMs : ℤ)
    (es : List GcJobEvent) :
    Run.Throughout (gcJobStep locale retainedVersionsPerFile intervalMs) OneTimer {} es ↔
      Run.EachStep (gcJobStep locale retainedVersionsPerFile intervalMs) (Orderly intervalMs)
        {} es :=
  Run.throughout_iff_of_breaks (G := Tidy) (A := fun _ _ => True) (fun _ h => h.toOneTimer)
    (fun _ event h _ => h.step event) (fun _ event h _ => h.orderly_of_step event) tidy_initial
    (Run.eachStep_of_forall (fun _ _ => trivial) _ _)

/-- A job that is started again while a run is going on goes on after it was stopped. -/
example :
    let job := Run.final (gcJobStep codePoints 1 1000) {} [.call .start, .call (.fires 0),
      .call .start, .answered 0 .failed, .call .settled, .call .stop, .call (.fires 1)]
    job.hasStopped = true ∧ job.runs = [{ fromTimer := true }] := by
  decide +kernel

end ObsidianSync
