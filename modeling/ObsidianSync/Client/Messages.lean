import ObsidianSync.Client.Engine

/-!
# Messages of a client

How the engine follows its connection and takes the messages of the server.  A
batch of ops is applied with a pause at every op, since `applyOp` waits for the
disk and for content; other messages are handled meanwhile.

## Main definitions

* `handleTransportState` — what a change of the connection does.
* `handleMessage` — what a message does, up to the first pause.
* `Batch`, `resumeBatch` — a batch that waits for an op, and what comes after it.

## Main results

* `applySorted_eq` — a batch nothing interrupts is the loop of `applyOps`.
* `nextToSend_spec`, `flushOutbox_cases` — what a flush sends.
* `SameEntries` — what leaves the entries and the applied sequence alone.
-/

namespace ObsidianSync

namespace Engine

/-- The states of the transport. -/
inductive TransportState
  | closed
  | connecting
  | opened
  | ready
  deriving DecidableEq, Repr

/-- `handleTransportState`, with `transport.readyState` as it is then. -/
def handleTransportState (cfg : ClientConfig) (state : TransportState) (e : Engine) : Engine :=
  let e := { e with transportReady := state = .ready }
  if e.paused then e
  else
    match state with
    | .opened =>
      let e := { e with handshakeComplete := false, awaitingCatchup := false }
      e.send (.hello cfg.deviceId cfg.vaultId e.index.device.appliedSeq)
    | .connecting | .closed => { e with handshakeComplete := false, awaitingCatchup := false }
    | .ready => e

/-- The engine has caught up, and sends what waits. -/
def finishHandshake (now : Time) (e : Engine) : Engine :=
  flushOutbox now { e with awaitingCatchup := false, handshakeComplete := true }

/-- What comes after a batch that was applied to its end. -/
def finishOps (now : Time) (more : Bool) (e : Engine) : Engine :=
  if more then requestResync e
  else if e.awaitingCatchup then finishHandshake now e
  else e

/-! ### Batches -/

/-- A batch that waits in `applyOp`: the op it applies, the ones after it, and
whether the server has more. -/
structure Batch where
  current : AppliedOp
  rest : List AppliedOp
  more : Bool
  deriving DecidableEq

/-- Where the loop of `applyOps` gets to without applying an op. -/
inductive NextItem
  | finished
  | gap
  | apply (item : AppliedOp) (rest : List AppliedOp)
  deriving DecidableEq

/-- Pass over the ops that were applied before. -/
def nextItem (appliedSeq : ℕ) : List AppliedOp → NextItem
  | [] => .finished
  | item :: rest =>
    if item.vaultSeq ≤ appliedSeq then nextItem appliedSeq rest
    else if item.vaultSeq ≠ appliedSeq + 1 then .gap
    else .apply item rest

/-- A batch that waits for its next op, or the engine after its end. -/
def goOn (now : Time) (items : List AppliedOp) (more : Bool) (e : Engine) :
    Engine × Option Batch :=
  match nextItem e.index.device.appliedSeq items with
  | .finished => (finishOps now more e, none)
  | .gap => (requestResync e, none)
  | .apply current rest => (e, some { current, rest, more })

/-- The op of a batch is applied and the batch goes on; the sequence of the op is
returned unless it could not be applied. -/
def resumeBatch (P : Platform) (cfg : ClientConfig) (now : Time) (batch : Batch) (e : Engine) :
    Engine × Option Batch × Option ℕ :=
  match applyOp P cfg now batch.current.op batch.current.resultingClocks.contentVV
      batch.current.resultingClocks.pathClock e with
  | (false, e) => (e, none, none)
  | (true, e) =>
    let e := { e with index := e.index.setAppliedSeq batch.current.vaultSeq }
    let (e, batch') := goOn now batch.rest batch.more e
    (e, batch', some batch.current.vaultSeq)

/-- The loop of `applyOps`, one op at a time. -/
theorem applySorted_eq (P : Platform) (cfg : ClientConfig) (now : Time) (items : List AppliedOp)
    (e : Engine) :
    applySorted P cfg now items e =
      match nextItem e.index.device.appliedSeq items with
      | .finished => (.done, e)
      | .gap => (.gap, requestResync e)
      | .apply item rest =>
        match applyOp P cfg now item.op item.resultingClocks.contentVV
            item.resultingClocks.pathClock e with
        | (false, e) => (.threw, e)
        | (true, e) =>
          applySorted P cfg now rest { e with index := e.index.setAppliedSeq item.vaultSeq } := by
  induction items with
  | nil => rfl
  | cons item rest ih =>
    rw [applySorted, nextItem]
    split
    · exact ih
    · split <;> rfl

/-- The op a batch waits for is the next one. -/
theorem vaultSeq_of_nextItem {appliedSeq : ℕ} {items rest : List AppliedOp} {item : AppliedOp}
    (h : nextItem appliedSeq items = .apply item rest) : item.vaultSeq = appliedSeq + 1 := by
  induction items with
  | nil => simp [nextItem] at h
  | cons head tail ih =>
    rw [nextItem] at h
    split at h
    · exact ih h
    split at h
    · simp at h
    · next hseq =>
      obtain ⟨rfl, -⟩ := NextItem.apply.inj h
      exact not_not.mp hseq

/-! ### Messages -/

/-- `handleMessage`, up to the first op it applies.  Errors only show in the state
the user sees. -/
def handleMessage (cfg : ClientConfig) (now : Time) (message : ServerMessage) (e : Engine) :
    Engine × Option Batch :=
  match message with
  | .welcome currentSeq =>
    -- the transport is ready before the listeners run
    let e := { e with transportReady := true }
    if currentSeq > e.index.device.appliedSeq then
      (requestResync { e with awaitingCatchup := true }, none)
    else (finishHandshake now e, none)
  | .ops ops more => goOn now (sortedBatch ops) more e
  | .opAck opId vaultSeq _ conflictId => (handleAck now opId vaultSeq conflictId e, none)
  | .reject opId code message _ => (handleReject cfg now opId code message e, none)
  | .conflict conflict => ({ e with index := e.index.addConflict conflict.conflictId }, none)
  | .conflictState conflictId status =>
    if status = .resolved then
      ({ e with index := e.index.removeConflict conflictId }, none)
    else (e, none)
  | .error _ _ => (e, none)

/-! ### What is sent -/

/-- In a sorted list, what `find?` finds is below whatever else it could have. -/
theorem rel_of_find?_pairwise {α : Type*} {r : α → α → Prop} (hrefl : ∀ a, r a a) {l : List α}
    (hl : l.Pairwise r) {p : α → Bool} {a b : α} (ha : l.find? p = some a) (hb : b ∈ l)
    (hp : p b = true) : r a b := by
  obtain ⟨-, front, back, rfl, hfront⟩ := List.find?_eq_some_iff_append.mp ha
  rw [List.mem_append, List.mem_cons] at hb
  rcases hb with hb | rfl | hb
  · have := hfront b hb
    simp [hp] at this
  · exact hrefl b
  · exact (List.pairwise_cons.mp (List.pairwise_append.mp hl).2.1).1 b hb

/-- The entry that is sent is in flight already, or nothing is and it is the queued
one with the lowest sequence. -/
theorem nextToSend_spec {e : Engine} {entry : OutboxEntry} (h : e.nextToSend = some entry) :
    entry ∈ e.outbox.map.rows ∧ (entry.status = .inflight ∨ entry.status = .queued ∧
      (∀ row ∈ e.outbox.map.rows, row.status ≠ .inflight) ∧
      ∀ row ∈ e.outbox.map.rows, row.status = .queued →
        entry.op.deviceSeq ≤ row.op.deviceSeq) := by
  have hretryable : ∀ row, row ∈ e.outbox.retryable ↔
      row ∈ e.outbox.map.rows ∧ (row.status = .queued ∨ row.status = .inflight) := by
    intro row
    rw [OutboxManager.retryable, List.mem_filter, OutboxManager.mem_entries, decide_eq_true_eq]
  have hsorted : e.outbox.retryable.Pairwise fun a b => a.op.deviceSeq ≤ b.op.deviceSeq :=
    (List.pairwise_insertionSort _ _).filter _
  unfold nextToSend at h
  split at h
  · next entry' hfind =>
    obtain rfl : entry' = entry := by simpa using h
    have hmem := (hretryable _).mp (List.mem_of_find?_eq_some hfind)
    exact ⟨hmem.1, Or.inl (by simpa using List.find?_some hfind)⟩
  · next hnone =>
    have hmem := (hretryable _).mp (List.mem_of_find?_eq_some h)
    refine ⟨hmem.1, Or.inr ⟨by simpa using List.find?_some h, ?_, ?_⟩⟩
    · intro row hrow hinflight
      have := List.find?_eq_none.mp hnone row ((hretryable row).mpr ⟨hrow, Or.inr hinflight⟩)
      simp [hinflight] at this
    · intro row hrow hqueued
      exact rel_of_find?_pairwise (r := fun a b => a.op.deviceSeq ≤ b.op.deviceSeq)
        (fun a => Nat.le_refl _) hsorted h ((hretryable row).mpr ⟨hrow, Or.inl hqueued⟩)
        (by simpa using hqueued)

/-- What a flush does: nothing, or it sends that entry and marks it. -/
theorem flushOutbox_cases (now : Time) (e : Engine) :
    flushOutbox now e = e ∨ ∃ entry, e.nextToSend = some entry ∧
      ((entry.status = .inflight ∧ flushOutbox now e = e.send (.fileOp entry.op)) ∨
        flushOutbox now e = persistOutbox (send
          { e with outbox := e.outbox.markInflight now entry.op.opId } (.fileOp entry.op))) := by
  unfold flushOutbox
  split
  · exact Or.inl rfl
  split
  · exact Or.inl rfl
  · next entry hnext =>
    split
    · next hinflight => exact Or.inr ⟨entry, hnext, Or.inl ⟨hinflight, rfl⟩⟩
    · exact Or.inr ⟨entry, hnext, Or.inr rfl⟩

/-! ### What leaves the entries alone -/

/-- The same entries and the same applied sequence. -/
structure SameEntries (e e' : Engine) : Prop where
  files : e'.index.files = e.index.files
  appliedSeq : e'.index.device.appliedSeq = e.index.device.appliedSeq

namespace SameEntries

variable {e e' e'' : Engine}

theorem refl (e : Engine) : SameEntries e e := ⟨rfl, rfl⟩

theorem trans (h : SameEntries e e') (h' : SameEntries e' e'') : SameEntries e e'' :=
  ⟨h'.files.trans h.files, h'.appliedSeq.trans h.appliedSeq⟩

end SameEntries

theorem sameEntries_flushOutbox (now : Time) (e : Engine) : SameEntries e (flushOutbox now e) := by
  unfold flushOutbox
  split
  · exact .refl e
  split
  · exact .refl e
  split
  · exact ⟨rfl, rfl⟩
  · exact ⟨rfl, rfl⟩

theorem sameEntries_enqueueLocalChange (now : Time) (uuid : Uuid) (draft : FileOpDraft)
    (e : Engine) : SameEntries e (enqueueLocalChange now uuid draft e) := by
  have hpersist : SameEntries e (persistOutbox { e with
      outbox := (e.outbox.enqueue now uuid draft).2 }) := ⟨rfl, rfl⟩
  exact hpersist.trans (sameEntries_flushOutbox now _)

theorem sameEntries_syncPath (P : Platform) (cfg : ClientConfig) (now : Time) (opId fileId : Uuid)
    (path : String) (e : Engine) : SameEntries e (syncPath P cfg now opId fileId path e) := by
  unfold syncPath
  split
  · exact .refl e
  dsimp only
  split
  · exact .refl e
  · exact sameEntries_enqueueLocalChange now opId _ e

theorem sameEntries_handleRename (P : Platform) (cfg : ClientConfig) (now : Time)
    (opId fileId : Uuid) (oldPath newPath : String) (e : Engine) :
    SameEntries e (handleRename P cfg now opId fileId oldPath newPath e) := by
  unfold handleRename
  split
  · exact .refl e
  split
  · split
    · exact .refl e
    split
    · exact sameEntries_syncPath P cfg now opId fileId _ e
    · exact ⟨(sameEntries_enqueueLocalChange now opId _ _).files,
        (sameEntries_enqueueLocalChange now opId _ _).appliedSeq⟩
  · exact .refl e

theorem sameEntries_handleDelete (P : Platform) (cfg : ClientConfig) (now : Time) (opId : Uuid)
    (path : String) (e : Engine) : SameEntries e (handleDelete P cfg now opId path e) := by
  unfold handleDelete
  split
  · exact .refl e
  split
  · exact .refl e
  dsimp only
  split
  · exact .refl e
  · exact ⟨(sameEntries_enqueueLocalChange now opId _ _).files,
      (sameEntries_enqueueLocalChange now opId _ _).appliedSeq⟩

theorem sameEntries_promote (cfg : ClientConfig) (fileId : String) (e : Engine) :
    SameEntries e (promote cfg fileId e) := by
  unfold promote
  split <;> exact ⟨rfl, rfl⟩

theorem sameEntries_handleReject (cfg : ClientConfig) (now : Time) (opId : Option String)
    (code : ErrorCode) (message : String) (e : Engine) :
    SameEntries e (handleReject cfg now opId code message e) := by
  unfold handleReject
  split
  · exact .refl e
  dsimp only
  split
  · exact ⟨rfl, rfl⟩
  · refine .trans ?_ (sameEntries_flushOutbox now _)
    split
    · exact ⟨rfl, rfl⟩
    split
    · split
      · exact ⟨rfl, rfl⟩
      · exact .trans (sameEntries_promote cfg _ e) ⟨rfl, rfl⟩
    · exact ⟨rfl, rfl⟩

theorem sameEntries_finishHandshake (now : Time) (e : Engine) :
    SameEntries e (finishHandshake now e) :=
  have hdone : SameEntries e { e with awaitingCatchup := false, handshakeComplete := true } :=
    ⟨rfl, rfl⟩
  hdone.trans (sameEntries_flushOutbox now _)

theorem sameEntries_finishOps (now : Time) (more : Bool) (e : Engine) :
    SameEntries e (finishOps now more e) := by
  unfold finishOps
  split
  · exact ⟨rfl, rfl⟩
  split
  · exact sameEntries_finishHandshake now e
  · exact .refl e

theorem sameEntries_handleTransportState (cfg : ClientConfig) (state : TransportState)
    (e : Engine) : SameEntries e (handleTransportState cfg state e) := by
  unfold handleTransportState
  dsimp only
  split
  · exact ⟨rfl, rfl⟩
  · cases state <;> exact ⟨rfl, rfl⟩

theorem sameEntries_goOn (now : Time) (items : List AppliedOp) (more : Bool) (e : Engine) :
    SameEntries e (goOn now items more e).1 := by
  unfold goOn
  split
  · exact sameEntries_finishOps now more e
  · exact ⟨rfl, rfl⟩
  · exact .refl e

/-- A batch that waits does so for the next op. -/
theorem vaultSeq_of_goOn {now : Time} {items : List AppliedOp} {more : Bool} {e : Engine}
    {batch : Batch} (h : batch ∈ (goOn now items more e).2) :
    batch.current.vaultSeq = e.index.device.appliedSeq + 1 := by
  unfold goOn at h
  split at h
  · simp at h
  · simp at h
  · next current rest hnext =>
    obtain rfl : ({ current, rest, more } : Batch) = batch := by simpa using h
    exact vaultSeq_of_nextItem hnext

/-- An ack leaves the entries alone and moves the applied sequence to its own. -/
theorem index_handleAck (now : Time) (opId : String) (vaultSeq : ℕ) (conflictId : Option String)
    (e : Engine) :
    (handleAck now opId vaultSeq conflictId e).index.files = e.index.files ∧
      (handleAck now opId vaultSeq conflictId e).index.device.appliedSeq
        = max e.index.device.appliedSeq vaultSeq := by
  have hwaiter : ∀ (result : ForcePushOpResult) (e : Engine),
      (if e.forceWaiters.contains opId then settleWaiter opId result e else e).index = e.index := by
    intro result e
    split <;> rfl
  unfold handleAck
  dsimp only
  rw [(sameEntries_flushOutbox now _).files, (sameEntries_flushOutbox now _).appliedSeq, hwaiter]
  exact ⟨rfl, rfl⟩

/-- Applying an op leaves the applied sequence to the loop. -/
theorem appliedSeq_applyOp (P : Platform) (cfg : ClientConfig) (now : Time) (op : FileOp)
    (contentVV : Option VersionVector) (pathClock : Option PathClock) (e : Engine) :
    (applyOp P cfg now op contentVV pathClock e).2.index.device.appliedSeq
      = e.index.device.appliedSeq := by
  have hfetch : ∀ target hash enc (e : Engine),
      (fetchAndWriteBlob P cfg target hash enc e).2.index.device.appliedSeq
        = e.index.device.appliedSeq := by
    intro target hash enc e
    unfold fetchAndWriteBlob
    split
    · rfl
    split <;> rfl
  unfold applyOp
  dsimp only
  split
  · exact LocalIndex.appliedSeq_markDeleted _ _
  split
  · split
    · split
      · split <;> rfl
      · rfl
    · rfl
  split
  · split
    · rfl
    split
    · rfl
    split
    · next e' hw =>
      split at hw
      · simp at hw
      · exact (congrArg (·.2.index.device.appliedSeq) hw).symm.trans (hfetch _ _ _ _)
    · next e' hw =>
      split at hw
      · rw [Prod.mk.injEq] at hw
        rw [← hw.2]
        rfl
      · exact (congrArg (·.2.index.device.appliedSeq) hw).symm.trans (hfetch _ _ _ _)
  · rfl

end Engine

end ObsidianSync
