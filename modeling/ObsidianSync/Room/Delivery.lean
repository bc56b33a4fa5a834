import ObsidianSync.Room.Calls
import ObsidianSync.Room.HandOff

/-!
# What a close that completes has delivered

A close writes the text of the room to its note with an op whose id depends on the
epoch only, and goes on with calls that may throw.  Then the room is still open with
the op in the log: a close that is tried again is answered from there and writes
nothing, so it has delivered the text exactly if that is still the one of the first try.

## Main definitions

* `Offered` — a hash the note or an unresolved conflict of it holds.
* `FinalTextDelivered` — a close that completes leaves the text of the room there.
* `FlushLogged` — the room is open and its flush is logged.
* `KeepsFlushed` — what may happen between a close that failed and the next try.

## Main results

* `offered_of_ack` — a new op of the room that is acknowledged delivers its text.
* `finalTextDelivered_of_keepsFlushed` — in undisturbed runs every close that completes
  has delivered the text.
* `not_finalTextDelivered_editedRetry` — an edit before the second try is lost.
-/

namespace ObsidianSync

section

variable {D : Type} [SemilatticeSup D] [OrderBot D]

/-! ### The claim -/

/-- A hash that is the note's, or the other side of an unresolved conflict it has. -/
def Offered (cfg : RoomConfig D) (data : Store) (hash : String) : Prop :=
  ∃ row ∈ data.getFile cfg.vaultId cfg.fileId,
    row.contentHash = some hash ∨
      ∃ id ∈ row.conflictId, ∃ conflict ∈ data.getConflict id,
        conflict.fileId = cfg.fileId ∧ conflict.status ≠ .resolved ∧
          conflict.theirsHash = some hash

instance (cfg : RoomConfig D) (data : Store) (hash : String) :
    Decidable (Offered cfg data hash) :=
  inferInstanceAs (Decidable (∃ _ ∈ _, _))

/-- The hash of the text in the document of a room. -/
def Room.textHash (cfg : RoomConfig D) (r : Room D) : String :=
  contentHashText cfg.platform (cfg.crdt.content textName r.runtime.doc)

omit [SemilatticeSup D] [OrderBot D] in
/-- The close an event comes to, if it comes to one. -/
def RoomEvent.close (r : Room D) : RoomEvent D → Option (Time × Uuid × RoomClosedReason)
  | .demote now uuid _ roomEpoch reason =>
    if r.demotes roomEpoch then some (now, uuid, reason) else none
  | .closingTimer now uuid => if r.timerDemotes then some (now, uuid, .demoted) else none
  | .sweepExpired now uuid => if r.expired now then some (now, uuid, .leaseExpired) else none
  | .closeAll now uuid reason => some (now, uuid, reason)
  | _ => none

/-- A close of an active room that completes, none of its store calls throwing, leaves the
text of the room with the note. -/
def FinalTextDelivered (cfg : RoomConfig D) (s : RoomServer D) (call : RoomEvent D × Option ℕ) :
    Prop :=
  ∀ r ∈ call.1.finds s, r.runtime.persisted.active = true →
    (∀ k ∈ call.2, (storeCalls cfg r call.1).length ≤ k) →
    ∀ close ∈ call.1.close r,
      (r.demoteLocked cfg ready close.1 close.2.1 close.2.2).result.isOk = true →
        Offered cfg (faultStep cfg s call).data (r.textHash cfg)

/-! ### The condition -/

/-- The room is open, and the op that flushes it is logged. -/
def FlushLogged (cfg : RoomConfig D) (r : Room D) : Prop :=
  r.runtime.persisted.active = true ∧ (r.data.getOpById (r.flushOp cfg).opId).isSome = true

instance (cfg : RoomConfig D) (r : Room D) : Decidable (FlushLogged cfg r) :=
  inferInstanceAs (Decidable (_ ∧ _))

/-- A step that keeps the flush of the room, once it is logged, the text of the room.
A change of the store does not log an op under the id of the flush, and leaves what the
note offers; a new epoch has no op under its id; and once the flush is logged an update
leaves the text, a restore that changes the text writes the note as well, and a restart
brings the text back. -/
def KeepsFlushed (cfg : RoomConfig D) (s : RoomServer D) : RoomEvent D × Option ℕ → Prop
  | (.layer1 event, _) =>
    let r := s.materialize
    let t : Room D := { r with data := serverStep cfg.platform s.data event }
    FlushLogged cfg t →
      FlushLogged cfg r ∧
        (Offered cfg r.data (r.textHash cfg) → Offered cfg t.data (r.textHash cfg))
  | (.promote now clientID deviceId userId connection, _) =>
    let r := s.materialize
    let t := (r.promote cfg now clientID deviceId userId connection).room
    t.runtime.persisted.epoch ≠ r.runtime.persisted.epoch → ¬ FlushLogged cfg t
  | (.handleUpdate now deviceId userId roomEpoch updateId update, fault) =>
    FlushLogged cfg s.materialize →
      (faultStep cfg s (.handleUpdate now deviceId userId roomEpoch updateId update,
          fault)).materialize.textHash cfg = s.materialize.textHash cfg
  | (.restoreHistoryVersion now uuid clientID deviceId userId versionId requestId, fault) =>
    let r := s.materialize
    (r.restoreHistoryVersion cfg ready now uuid clientID deviceId userId versionId
        requestId).result.isOk = true →
      r.runtime.persisted.active = true →
      (FlushLogged cfg r ∨ requestId = (r.flushOp cfg).opId) → fault ≠ some 0 →
        r.data.getOpById requestId = none ∧ fault ≠ some 1 ∨
          ∀ version ∈ r.roomStore.getSnapshotVersion versionId,
            contentHashText cfg.platform (textFromSnapshot cfg version.snapshot) = r.textHash cfg
  | (.restart, _) =>
    let t := (roomStep cfg s .restart).materialize
    FlushLogged cfg t → Offered cfg t.data (t.textHash cfg)
  | _ => True

/-! ### Bookkeeping -/

variable {cfg : RoomConfig D} {data data' : Store} {hash : String}

/-- What the note offers depends on its content and on the conflicts. -/
theorem Offered.mono
    (hrow : ∀ row ∈ data.getFile cfg.vaultId cfg.fileId,
      ∃ row' ∈ data'.getFile cfg.vaultId cfg.fileId,
        row'.contentHash = row.contentHash ∧ row'.conflictId = row.conflictId)
    (hconflicts : data'.conflicts = data.conflicts) (h : Offered cfg data hash) :
    Offered cfg data' hash := by
  obtain ⟨row, hget, h⟩ := h
  obtain ⟨row', hget', hhash, hid⟩ := hrow row hget
  have hsame : ∀ id, data'.getConflict id = data.getConflict id := by
    intro id
    rw [Store.getConflict, Store.getConflict, hconflicts]
  refine ⟨row', hget', ?_⟩
  rw [hhash, hid]
  simpa only [hsame] using h

/-- The bookkeeping of the row leaves what the note offers, and the log. -/
structure SameOffer (cfg : RoomConfig D) (data data' : Store) : Prop where
  offered : ∀ {hash}, Offered cfg data hash → Offered cfg data' hash
  ops : data'.ops = data.ops

theorem SameOffer.refl (cfg : RoomConfig D) (data : Store) : SameOffer cfg data data := ⟨id, rfl⟩

theorem sameOffer_setActiveUntil (activeUntil : Option Time) :
    SameOffer cfg data (setActiveUntil cfg.vaultId cfg.fileId activeUntil data) where
  offered h := by
    refine h.mono ?_ ?_
    · intro row hget
      rw [getFile_setActiveUntil, hget]
      exact ⟨_, rfl, rfl, rfl⟩
    · unfold setActiveUntil
      split <;> rfl
  ops := by
    unfold setActiveUntil
    split <;> rfl

theorem sameOffer_clearActiveUntil :
    SameOffer cfg data (clearActiveUntil cfg.vaultId cfg.fileId data) where
  offered h := by
    refine h.mono ?_ ?_
    · intro row hget
      rw [getFile_clearActiveUntil, hget]
      exact ⟨_, rfl, rfl, rfl⟩
    · unfold clearActiveUntil
      repeat' split
      all_goals rfl
  ops := by
    unfold clearActiveUntil
    repeat' split
    all_goals rfl

omit [SemilatticeSup D] [OrderBot D] in
/-- A store call that is not an op. -/
def StoreCall.isBookkeeping : StoreCall D → Bool
  | .process .. => false
  | _ => true

theorem sameOffer_runData {call : StoreCall D} (h : call.isBookkeeping = true) :
    SameOffer cfg data (call.runData cfg data) := by
  cases call with
  | process => simp [StoreCall.isBookkeeping] at h
  | saveRow activeUntil => exact sameOffer_setActiveUntil activeUntil
  | clearRow => exact sameOffer_clearActiveUntil
  | getRole | getContent | saveRoom | appendUpdate | saveSnapshot | deleteUpdatesThrough =>
    exact .refl cfg data

/-- So do any number of such calls. -/
theorem sameOffer_ran {r : Room D} {calls : StoreCalls D} {runtime : RuntimeRoom D}
    (h : ∀ call ∈ calls, call.1.isBookkeeping = true) :
    SameOffer cfg r.data (r.ran cfg calls runtime).data := by
  have hfold : ∀ data : Store,
      SameOffer cfg data (calls.foldl (fun data call => call.1.runData cfg data) data) := by
    induction calls with
    | nil => exact SameOffer.refl cfg
    | cons call calls ih =>
      intro data
      have hcall : SameOffer cfg data (call.1.runData cfg data) :=
        sameOffer_runData (h call List.mem_cons_self)
      have hrest := ih (fun c hc => h c (List.mem_cons_of_mem _ hc)) (call.1.runData cfg data)
      exact ⟨fun ho => hrest.offered (hcall.offered ho), hrest.ops.trans hcall.ops⟩
  exact hfold r.data

/-! ### Ops of the room -/

section

variable {op : FileOp} {text : String} {now : Time} {uuid : Uuid}

/-- The conflict an op opens, or finds open, is unresolved and has its hash. -/
theorem conflictOf_spec (uuid : Uuid) (op : FileOp) (row : StoredFile) (s : Store) :
    (conflictOf uuid op row s).2.conflicts.get? (conflictOf uuid op row s).1.conflictId
        = some (conflictOf uuid op row s).1 ∧
      (conflictOf uuid op row s).1.fileId = op.fileId ∧
      (conflictOf uuid op row s).1.status ≠ .resolved ∧
      (conflictOf uuid op row s).1.theirsHash = op.contentHash.or op.blobRef := by
  unfold conflictOf Store.createConflict
  dsimp only
  split
  · next existing hfind =>
    have hsame := List.find?_some hfind
    simp only [decide_eq_true_eq] at hsame
    exact ⟨Table.get?_key (List.mem_of_find?_eq_some hfind), hsame.1, hsame.2.2.2.2,
      hsame.2.2.2.1⟩
  · exact ⟨Table.get?_set_self _ _, rfl, by simp, rfl⟩

/-- **A new op of the room that is acknowledged delivers its text**: to the row, or to the
conflict it opens. -/
theorem offered_of_ack {answer : OpAckResult} (hop : WritesText cfg op text)
    (hfresh : data.getOpById op.opId = none)
    (h : process cfg.platform now uuid op none data = (.ok (.ack answer), data')) :
    Offered cfg data' (contentHashText cfg.platform text) ∧
      (data'.getOpById op.opId).isSome = true := by
  obtain ⟨applied, ha, rfl⟩ := accepted_of_ack (syntheticCollab_of_writesText hop) hfresh h
  have hspec := accepted_spec ha
  have hget : (commit now op none applied).2.getFile cfg.vaultId cfg.fileId
      = some applied.file := by
    have hkey : applied.file.key = (cfg.vaultId, cfg.fileId) := by
      rw [key_of_effect hspec.effect, hop.vaultId, hop.fileId]
    rw [Store.getFile, commit_files, Table.get?_set, if_pos hkey]
  constructor
  · refine ⟨applied.file, hget, ?_⟩
    have hkind := hop.kind
    cases hspec.effect with
    | updated row => exact Or.inl (by simp [updatedFile, hop.contentHash])
    | @conflicted file tx row kind concurrent conflicts =>
      obtain ⟨hrec, hfile, hstatus, htheirs⟩ := conflictOf_spec uuid op file data
      refine Or.inr ⟨_, rfl, (conflictOf uuid op file data).1, ?_, hfile.trans hop.fileId,
        hstatus, ?_⟩
      · show (commit now op none _).2.conflicts.get? _ = _
        rw [commit_conflicts]
        exact conflicts ▸ hrec
      · rw [htheirs, hop.contentHash, Option.some_or]
    | created kind => simp [hkind] at kind
    | lostRename row kind => simp [hkind] at kind
    | renamed row kind => simp [hkind] at kind
    | deleted row kind => simp [hkind] at kind
    | restored row kind => simp [hkind] at kind
  · have hlog : (commit now op none applied).2.getOpById op.opId
        = some (loggedOp now op applied (applied.tx.nextSeq op.vaultId)) := by
      unfold Store.getOpById
      rw [commit_ops, List.reverse_append]
      simp [loggedOp]
    rw [hlog, Option.isSome_some]

/-- An op of the room that is not acknowledged leaves what the note offers, and the log. -/
theorem sameOffer_of_not_ack
    (hnot : ∀ answer, (process cfg.platform now uuid op none data).1 ≠ .ok (.ack answer)) :
    SameOffer cfg data (process cfg.platform now uuid op none data).2 := by
  have hnone : accepted cfg.platform now uuid op none data = none := by
    cases ha : accepted cfg.platform now uuid op none data with
    | none => rfl
    | some applied =>
      rw [process_of_accepted ha] at hnot
      exact absurd rfl (hnot _)
  obtain ⟨hframe, hconflicts⟩ := frame_of_not_accepted hnone
  refine ⟨fun h => h.mono ?_ hconflicts, hframe.ops⟩
  intro row hrow
  exact ⟨row, (hframe.getFile _ _).trans hrow, rfl, rfl⟩

end

/-! ### The room while a call runs -/

/-- A room in memory under the same epoch with the same document, open at most if the
other one was. -/
structure Kept (r : Room D) (runtime : RuntimeRoom D) : Prop where
  active : runtime.persisted.active = true → r.runtime.persisted.active = true
  epoch : runtime.persisted.epoch = r.runtime.persisted.epoch
  doc : runtime.doc = r.runtime.doc
  snapshot : r.runtime.persisted.snapshot.isSome = true →
    runtime.persisted.snapshot.isSome = true

section

variable {r t : Room D} {now : Time} {deviceId userId : String} {uuid : Uuid}

omit [SemilatticeSup D] [OrderBot D] in
theorem Kept.refl (r : Room D) : Kept r r.runtime := ⟨id, rfl, rfl, id⟩

omit [SemilatticeSup D] [OrderBot D] in
theorem Kept.trans {runtime : RuntimeRoom D} (h : Kept r t.runtime) (h' : Kept t runtime) :
    Kept r runtime :=
  ⟨fun hactive => h.active (h'.active hactive), h'.epoch.trans h.epoch, h'.doc.trans h.doc,
    fun hsome => h'.snapshot (h.snapshot hsome)⟩

/-- What is stored about a room is what is in memory when it is stored. -/
def Saves (call : StoreCall D × RuntimeRoom D) : Prop :=
  ∀ room, call.1 = .saveRoom room → room = call.2.persisted

omit [SemilatticeSup D] [OrderBot D] in
theorem mem_saveRuntimeCalls {runtime : RuntimeRoom D} {call : StoreCall D × RuntimeRoom D}
    (h : call ∈ saveRuntimeCalls runtime) :
    call.1.isBookkeeping = true ∧ Saves call ∧ call.2 = runtime := by
  simp only [saveRuntimeCalls, List.mem_cons, List.not_mem_nil, or_false] at h
  rcases h with rfl | rfl
  · exact ⟨rfl, fun room h => (StoreCall.saveRoom.inj h).symm, rfl⟩
  · exact ⟨rfl, fun room h => absurd h (by simp), rfl⟩

/-- A call of a method that keeps the room. -/
structure Quiet (r : Room D) (call : StoreCall D × RuntimeRoom D) : Prop where
  bookkeeping : call.1.isBookkeeping = true
  saves : Saves call
  kept : Kept r call.2

omit [SemilatticeSup D] [OrderBot D] in
theorem quiet_of_kept {call : StoreCall D} {runtime : RuntimeRoom D}
    (hbook : call.isBookkeeping = true) (hnot : ∀ room, call ≠ .saveRoom room)
    (hkept : Kept r runtime) : Quiet r (call, runtime) :=
  ⟨hbook, fun room h => absurd h (hnot room), hkept⟩

omit [SemilatticeSup D] [OrderBot D] in
theorem quiet_saveRuntimeCalls {runtime : RuntimeRoom D} (hkept : Kept r runtime) :
    ∀ call ∈ saveRuntimeCalls runtime, Quiet r call := by
  intro call h
  obtain ⟨hbook, hsaves, hruntime⟩ := mem_saveRuntimeCalls h
  exact ⟨hbook, hsaves, hruntime ▸ hkept⟩

theorem quiet_heartbeatCalls {roomEpoch : ℕ} :
    ∀ call ∈ r.heartbeatCalls cfg now deviceId roomEpoch, Quiet r call := by
  unfold Room.heartbeatCalls
  split
  · simp
  split
  · simp
  · exact quiet_saveRuntimeCalls ⟨id, rfl, rfl, id⟩

theorem quiet_joinCalls : ∀ call ∈ r.joinCalls cfg now deviceId, Quiet r call := by
  intro call h
  rcases List.mem_append.mp h with h | h
  · have hkept : Kept r (r.extendLease cfg now deviceId).runtime := ⟨id, rfl, rfl, id⟩
    exact quiet_saveRuntimeCalls hkept call h
  · obtain rfl := List.mem_singleton.mp h
    exact quiet_of_kept rfl nofun ⟨id, rfl, rfl, id⟩

omit [SemilatticeSup D] [OrderBot D] in
theorem quiet_compactCalls {throughSeq : Option ℕ} :
    ∀ call ∈ r.compactCalls now throughSeq, Quiet r call := by
  intro call h
  rcases List.mem_cons.mp h with rfl | h
  · exact quiet_of_kept rfl nofun (.refl r)
  rcases List.mem_cons.mp h with rfl | h
  · exact quiet_of_kept rfl nofun ⟨id, rfl, rfl, fun _ => rfl⟩
  · refine quiet_saveRuntimeCalls ?_ call h
    exact ⟨id, rfl, rfl, fun _ => rfl⟩

omit [SemilatticeSup D] [OrderBot D] in
theorem quiet_closeDeletedCalls : ∀ call ∈ r.closeDeletedCalls, Quiet r call := by
  unfold Room.closeDeletedCalls
  split
  · intro call h
    rcases List.mem_append.mp h with h | h
    · refine quiet_saveRuntimeCalls ?_ call h
      exact ⟨nofun, rfl, rfl, id⟩
    · obtain rfl := List.mem_singleton.mp h
      exact quiet_of_kept rfl nofun ⟨nofun, rfl, rfl, id⟩
  · simp

/-- The calls of a close after its op. -/
theorem quiet_demoteLockedCalls {call : StoreCall D × RuntimeRoom D}
    {calls : StoreCalls D} (h : r.demoteLockedCalls cfg now uuid = call :: calls) :
    call = (.process now uuid (r.flushOp cfg), r.runtime) ∧ r.runtime.persisted.active = true ∧
      (∀ call ∈ calls, Quiet r call) ∧
      (calls ≠ [] → ∃ answer data, process cfg.platform now uuid (r.flushOp cfg) none r.data
        = (.ok (.ack answer), data)) := by
  unfold Room.demoteLockedCalls at h
  cases hactive : r.runtime.persisted.active with
  | false => simp [hactive] at h
  | true =>
    simp only [hactive, Bool.not_true, Bool.false_eq_true, if_false, List.cons.injEq] at h
    obtain ⟨rfl, rfl⟩ := h
    rcases hprocess : process cfg.platform now uuid (r.flushOp cfg) none r.data with
      ⟨e | result, data⟩
    · simp
    · cases result with
      | reject answer => simp
      | ack answer =>
        refine ⟨rfl, rfl, ?_, fun _ => ⟨answer, data, rfl⟩⟩
        intro call h
        rcases List.mem_cons.mp h with rfl | h
        · exact quiet_of_kept rfl nofun (.refl r)
        rcases List.mem_append.mp h with h | h
        · refine quiet_saveRuntimeCalls ?_ call h
          exact ⟨nofun, rfl, rfl, fun _ => rfl⟩
        · obtain rfl := List.mem_singleton.mp h
          exact quiet_of_kept rfl nofun ⟨nofun, rfl, rfl, fun _ => rfl⟩

/-- The room with an update merged. -/
def merged (r : Room D) (update : D) : Room D :=
  { r with runtime := { r.runtime with doc := r.runtime.doc ⊔ update } }

/-- The calls of an update: the room is as it was, and after the first one with the update
merged. -/
theorem quiet_handleUpdateCalls {roomEpoch : ℕ} {update : D} :
    ∀ call ∈ r.handleUpdateCalls cfg now deviceId userId roomEpoch update,
      Quiet r call ∨ Quiet (merged r update) call := by
  unfold Room.handleUpdateCalls
  cases requireRole cfg.vaultId deviceId userId true r.data with
  | error e => simp
  | ok role =>
    dsimp only
    split
    · simp
    split
    · simp
    split
    · simp
    split
    · simp
    split
    · simp
    intro call h
    unfold Room.acceptUpdateCalls at h
    dsimp only at h
    rcases List.mem_append.mp h with h | h
    · rcases List.mem_cons.mp h with rfl | h
      · exact Or.inl (quiet_of_kept rfl nofun ⟨id, rfl, rfl, id⟩)
      · split at h
        · obtain rfl := List.mem_singleton.mp h
          exact Or.inr (quiet_of_kept rfl nofun ⟨id, rfl, rfl, id⟩)
        · exact absurd h List.not_mem_nil
    · refine Or.inr (quiet_saveRuntimeCalls ?_ call h)
      split
      · exact ⟨id, rfl, rfl, fun _ => rfl⟩
      · exact ⟨id, rfl, rfl, id⟩

/-- The update by which a restore replaces the text. -/
def replacement (cfg : RoomConfig D) (r : Room D) (clientID : ℕ) (text : String) : D :=
  let nextDoc := ⊥ ⊔ r.runtime.doc
  cfg.crdt.diff (nextDoc ⊔ cfg.crdt.change clientID textName text nextDoc) r.runtime.doc

/-- The calls by which a restore replaces the text: the first one finds the room as it
was. -/
theorem quiet_replaceTextCalls (cfg : RoomConfig D) (r : Room D) (now : Time) (clientID : ℕ)
    (deviceId userId text : String) :
    ∃ call calls, r.replaceTextCalls cfg now clientID deviceId userId text = call :: calls ∧
      Quiet r call ∧ ∀ call ∈ calls, Quiet (merged r (replacement cfg r clientID text)) call := by
  refine ⟨_, _, rfl, quiet_of_kept rfl nofun (.refl r), ?_⟩
  intro call h
  rcases List.mem_cons.mp h with rfl | h
  · exact quiet_of_kept rfl nofun ⟨id, rfl, rfl, id⟩
  · refine quiet_saveRuntimeCalls ?_ call h
    exact ⟨id, rfl, rfl, fun _ => rfl⟩

/-- The calls of an activation: a read before the room is another, then the room of the
new epoch. -/
theorem quiet_activateCalls {clientID : ℕ} {file : StoredFile} :
    ∀ call ∈ r.activateCalls cfg now clientID file deviceId,
      (call.1.isBookkeeping = true ∧ Saves call ∧ r.runtime.persisted.snapshot = none ∧
        call.2.persisted = r.runtime.persisted) ∨
      Quiet (r.activate cfg now clientID file deviceId) call := by
  intro call h
  unfold Room.activateCalls at h
  dsimp only at h
  rcases List.mem_append.mp h with h | h
  · rcases List.mem_append.mp h with h | h
    · split at h
      · next hread =>
        obtain rfl := List.mem_singleton.mp h
        rw [Bool.and_eq_true] at hread
        exact Or.inl ⟨rfl, fun room h => absurd h (by simp),
          Option.isNone_iff_eq_none.mp hread.1, rfl⟩
      · exact absurd h List.not_mem_nil
    · exact Or.inr (quiet_saveRuntimeCalls (.refl _) call h)
  · obtain rfl := List.mem_singleton.mp h
    exact Or.inr (quiet_of_kept rfl nofun (.refl _))

end

/-! ### The room after a call -/

section

variable {r t : Room D} {now : Time} {deviceId userId : String} {uuid : Uuid}
  {busy : RoomSink → Bool}

theorem kept_heartbeat {roomEpoch : ℕ} :
    Kept r (r.heartbeat cfg now deviceId roomEpoch).room.runtime := by
  rcases r.heartbeat_cases with hroom | ⟨-, hroom⟩ <;> rw [hroom]
  · exact .refl r
  · exact ⟨id, rfl, rfl, id⟩

omit [SemilatticeSup D] [OrderBot D] in
theorem kept_removeParticipant (participant : Participant) :
    Kept r (r.removeParticipant participant).runtime := by
  unfold Room.removeParticipant Room.scheduleClosingIfEmpty
  split <;> exact ⟨id, rfl, rfl, id⟩

theorem kept_join {file : StoredFile} {connection : ℕ} :
    Kept r (r.join cfg now file deviceId userId connection).room.runtime := by
  rcases r.join_cases with ⟨e, hjoin⟩ | ⟨role, joined, rfl, hjoin⟩ <;> rw [hjoin]
  · exact ⟨id, rfl, rfl, id⟩
  · exact ⟨id, rfl, rfl, id⟩

theorem kept_demoteLocked {reason : RoomClosedReason} :
    Kept r (r.demoteLocked cfg busy now uuid reason).room.runtime := by
  rcases r.demoteLocked_cases with
    ⟨-, hroom⟩ | ⟨-, ⟨data, -, -, hroom⟩ | ⟨answer, data, -, hroom⟩⟩ <;> rw [hroom]
  · exact .refl r
  · exact ⟨id, rfl, rfl, id⟩
  · exact ⟨nofun, rfl, rfl, fun _ => rfl⟩

theorem kept_of_flushOf (h : Room.FlushOf cfg busy now uuid r t) : Kept r t.runtime := by
  rcases h with rfl | ⟨reason, rfl | ⟨-, -, rfl⟩⟩
  · exact .refl _
  · exact kept_demoteLocked
  · have hkept : Kept r (r.demoteLocked cfg busy now uuid reason).room.runtime := kept_demoteLocked
    exact ⟨hkept.active, hkept.epoch, hkept.doc, hkept.snapshot⟩

theorem kept_closeDeleted : Kept r (r.closeDeleted cfg busy).room.runtime := by
  unfold Room.closeDeleted
  split
  · exact ⟨nofun, rfl, rfl, id⟩
  · exact .refl r

theorem kept_handleUpdate {roomEpoch updateId : ℕ} {update : D} :
    Kept r (r.handleUpdate cfg busy now deviceId userId roomEpoch updateId update).room.runtime ∨
      Kept (merged r update)
        (r.handleUpdate cfg busy now deviceId userId roomEpoch updateId update).room.runtime := by
  rcases r.handleUpdate_cases with hroom | ⟨participant, -, -, -, hroom | hallowed⟩
  · rw [hroom]
    exact Or.inl (.refl r)
  · rw [hroom]
    exact Or.inl ⟨id, rfl, rfl, id⟩
  · rw [Room.handleUpdate_of_allowed hallowed]
    unfold Room.acceptUpdate
    dsimp only
    refine Or.inr ?_
    split
    · exact ⟨id, rfl, rfl, fun _ => rfl⟩
    · exact ⟨id, rfl, rfl, id⟩

/-- What a promotion does, with the calls it makes. -/
theorem promoteCalls_cases (cfg : RoomConfig D) (r : Room D) (now : Time) (clientID : ℕ)
    (deviceId userId : String) (connection : ℕ) :
    (r.promoteCalls cfg now clientID deviceId userId = [] ∧
      (r.promote cfg now clientID deviceId userId connection).room = r) ∨
    ∃ file,
      (r.activates = false ∧ r.promoteCalls cfg now clientID deviceId userId
          = r.joinCalls cfg now deviceId ∧
        (r.promote cfg now clientID deviceId userId connection).room
          = (r.join cfg now file deviceId userId connection).room) ∨
      r.activates = true ∧ r.promoteCalls cfg now clientID deviceId userId
          = r.activateCalls cfg now clientID file deviceId ++
            (r.activate cfg now clientID file deviceId).joinCalls cfg now deviceId ∧
        (r.promote cfg now clientID deviceId userId connection).room
          = ((r.activate cfg now clientID file deviceId).join cfg now file deviceId userId
              connection).room := by
  unfold Room.promoteCalls Room.promote
  cases requireRole cfg.vaultId deviceId userId true r.data with
  | error e => exact Or.inl ⟨rfl, rfl⟩
  | ok role =>
    cases requiredLiveFile cfg.vaultId cfg.fileId r.data with
    | error e => exact Or.inl ⟨rfl, rfl⟩
    | ok file =>
      dsimp only
      split
      · exact Or.inl ⟨rfl, rfl⟩
      · refine Or.inr ⟨file, ?_⟩
        cases r.activates with
        | false => exact Or.inl ⟨rfl, rfl, rfl⟩
        | true => exact Or.inr ⟨rfl, rfl, rfl⟩

/-- What a restore does, with the calls it makes. -/
theorem restoreCalls_cases (cfg : RoomConfig D) (r : Room D) (now : Time) (uuid : Uuid)
    (clientID : ℕ) (deviceId userId : String) (versionId : ℕ) (requestId : String) :
    (r.restoreHistoryVersionCalls cfg now uuid clientID deviceId userId versionId requestId = [] ∧
      (r.restoreHistoryVersion cfg ready now uuid clientID deviceId userId versionId
        requestId).room = r) ∨
    ∃ file version, r.roomStore.getSnapshotVersion versionId = some version ∧
      let text := textFromSnapshot cfg version.snapshot
      let op := Room.restoreOp cfg file text requestId
      ((∀ answer, (process cfg.platform now uuid op none r.data).1 ≠ .ok (.ack answer)) ∧
          r.restoreHistoryVersionCalls cfg now uuid clientID deviceId userId versionId requestId
            = [(.process now uuid op, r.runtime)] ∧
          (r.restoreHistoryVersion cfg ready now uuid clientID deviceId userId versionId
            requestId).room.runtime = r.runtime) ∨
        ∃ answer data, process cfg.platform now uuid op none r.data = (.ok (.ack answer), data) ∧
          (r.restoreHistoryVersion cfg ready now uuid clientID deviceId userId versionId
            requestId).result.isOk = true ∧
          r.restoreHistoryVersionCalls cfg now uuid clientID deviceId userId versionId requestId
            = (.process now uuid op, r.runtime) ::
              r.replaceTextCalls cfg now clientID deviceId userId text ∧
          Kept (merged r (replacement cfg r clientID text))
            (r.restoreHistoryVersion cfg ready now uuid clientID deviceId userId versionId
              requestId).room.runtime := by
  unfold Room.restoreHistoryVersionCalls Room.restoreHistoryVersion
  cases requireRole cfg.vaultId deviceId userId true r.data with
  | error e => exact Or.inl ⟨rfl, rfl⟩
  | ok role =>
    cases requiredLiveFile cfg.vaultId cfg.fileId r.data with
    | error e => exact Or.inl ⟨rfl, rfl⟩
    | ok file =>
      cases hversion : r.roomStore.getSnapshotVersion versionId with
      | none => exact Or.inl ⟨rfl, rfl⟩
      | some version =>
        refine Or.inr ⟨file, version, rfl, ?_⟩
        dsimp only
        rcases hprocess : process cfg.platform now uuid (Room.restoreOp cfg file
          (textFromSnapshot cfg version.snapshot) requestId) none r.data with ⟨e | result, data⟩
        · exact Or.inl ⟨by simp, rfl, rfl⟩
        · cases result with
          | reject answer => exact Or.inl ⟨by simp, rfl, rfl⟩
          | ack answer =>
            exact Or.inr ⟨answer, data, rfl, rfl, rfl, ⟨id, rfl, rfl, fun _ => rfl⟩⟩

end

/-! ### The invariant -/

/-- An active room has a snapshot. -/
def HasSnapshot (persisted : PersistedYjsRoom D) : Prop :=
  persisted.active = true → persisted.snapshot.isSome = true

/-- Once the flush of a room is logged its text is delivered; besides, an active room has
a snapshot, in memory and stored. -/
structure Delivers (cfg : RoomConfig D) (r : Room D) : Prop where
  flushed : FlushLogged cfg r → Offered cfg r.data (r.textHash cfg)
  memory : HasSnapshot r.runtime.persisted
  stored : ∀ room ∈ r.roomStore.room, HasSnapshot room

section

variable {r t : Room D} {e : RoomEvent D} {now : Time} {deviceId userId : String} {uuid : Uuid}

omit [SemilatticeSup D] [OrderBot D] in
theorem Kept.hasSnapshot {runtime : RuntimeRoom D} (h : Kept r runtime)
    (hr : HasSnapshot r.runtime.persisted) : HasSnapshot runtime.persisted :=
  fun hactive => h.snapshot (hr (h.active hactive))

omit [SemilatticeSup D] [OrderBot D] in
/-- Storing rooms and snapshots keeps the stored room one that has a snapshot if it is
active. -/
theorem hasSnapshot_runRoomStore {store : YjsRoomStore D} {call : StoreCall D × RuntimeRoom D}
    (hsaves : Saves call) (hmemory : HasSnapshot call.2.persisted)
    (h : ∀ room ∈ store.room, HasSnapshot room) :
    ∀ room ∈ (call.1.runRoomStore store).room, HasSnapshot room := by
  obtain ⟨call, runtime⟩ := call
  cases call with
  | saveRoom saved =>
    intro room hroom
    obtain rfl : saved = room := by
      simpa [StoreCall.runRoomStore, YjsRoomStore.saveRoom] using hroom
    rw [hsaves saved rfl]
    exact hmemory
  | saveSnapshot version =>
    intro room hroom
    obtain ⟨old, hold, rfl⟩ := Option.map_eq_some_iff.mp hroom
    split
    · exact fun _ => rfl
    · exact h old hold
  | getRole | getContent | process | saveRow | clearRow | appendUpdate | deleteUpdatesThrough =>
    exact h

theorem hasSnapshot_ran {calls : StoreCalls D} {runtime : RuntimeRoom D}
    (hsaves : ∀ call ∈ calls, Saves call ∧ HasSnapshot call.2.persisted)
    (h : ∀ room ∈ r.roomStore.room, HasSnapshot room) :
    ∀ room ∈ (r.ran cfg calls runtime).roomStore.room, HasSnapshot room := by
  have hfold : ∀ store : YjsRoomStore D, (∀ room ∈ store.room, HasSnapshot room) →
      ∀ room ∈ (calls.foldl (fun store call => call.1.runRoomStore store) store).room,
        HasSnapshot room := by
    induction calls with
    | nil => exact fun store h => h
    | cons call calls ih =>
      intro store h
      obtain ⟨hsave, hmemory⟩ := hsaves call List.mem_cons_self
      exact ih (fun c hc => hsaves c (List.mem_cons_of_mem _ hc)) _
        (hasSnapshot_runRoomStore hsave hmemory h)
  exact hfold r.roomStore h

/-- The room when a call throws is the one in memory at that call, or at the end. -/
theorem runtime_cutAt {Q : RuntimeRoom D → Prop} (hcalls : ∀ call ∈ storeCalls cfg r e, Q call.2)
    (hfinal : Q (e.room cfg r).runtime) (k : ℕ) : Q (r.cutAt cfg e k).runtime := by
  show Q (((storeCalls cfg r e)[k]?.map Prod.snd).getD (e.room cfg r).runtime)
  cases hget : (storeCalls cfg r e)[k]? with
  | none => exact hfinal
  | some call => exact hcalls call (List.mem_of_getElem? hget)

/-- What is stored is in order whatever call throws. -/
theorem delivers_cutAt_of_flushed (h : Delivers cfg r) {k : ℕ}
    (hcalls : ∀ call ∈ storeCalls cfg r e, Saves call ∧ HasSnapshot call.2.persisted)
    (hfinal : HasSnapshot (e.room cfg r).runtime.persisted)
    (hflushed : FlushLogged cfg (r.cutAt cfg e k) →
      Offered cfg (r.cutAt cfg e k).data ((r.cutAt cfg e k).textHash cfg)) :
    Delivers cfg (r.cutAt cfg e k) where
  flushed := hflushed
  memory := runtime_cutAt (Q := fun runtime => HasSnapshot runtime.persisted)
    (fun call hcall => (hcalls call hcall).2) hfinal k
  stored := hasSnapshot_ran (fun call hcall => hcalls call (List.mem_of_mem_take hcall)) h.stored

theorem FlushLogged.of_kept (hops : t.data.ops = r.data.ops) (hkept : Kept r t.runtime)
    (h : FlushLogged cfg t) : FlushLogged cfg r := by
  obtain ⟨hactive, hlogged⟩ := h
  refine ⟨hkept.active hactive, ?_⟩
  have hid : (t.flushOp cfg).opId = (r.flushOp cfg).opId :=
    congrArg (stableOpId cfg.platform cfg.vaultId cfg.fileId) hkept.epoch
  rw [hid, Store.getOpById, hops] at hlogged
  exact hlogged

theorem Kept.textHash (h : Kept r t.runtime) : t.textHash cfg = r.textHash cfg := by
  unfold Room.textHash
  rw [h.doc]

/-- A room that is kept stays delivered. -/
theorem flushed_of_kept (h : FlushLogged cfg r → Offered cfg r.data (r.textHash cfg))
    (hdata : SameOffer cfg r.data t.data) (hkept : Kept r t.runtime) (hlogged : FlushLogged cfg t) :
    Offered cfg t.data (t.textHash cfg) := by
  rw [hkept.textHash]
  exact hdata.offered (h (hlogged.of_kept hdata.ops hkept))

/-- **A call that keeps the room** keeps it delivered, whichever of its store calls throws. -/
theorem delivers_of_quiet (h : Delivers cfg r) (hcalls : ∀ call ∈ storeCalls cfg r e, Quiet r call)
    (hfinal : Kept r (e.room cfg r).runtime) (k : ℕ) : Delivers cfg (r.cutAt cfg e k) := by
  refine delivers_cutAt_of_flushed h ?_ (hfinal.hasSnapshot h.memory) ?_
  · intro call hcall
    exact ⟨(hcalls call hcall).saves, (hcalls call hcall).kept.hasSnapshot h.memory⟩
  · have hdata : SameOffer cfg r.data (r.cutAt cfg e k).data :=
      sameOffer_ran fun call hcall => (hcalls call (List.mem_of_mem_take hcall)).bookkeeping
    have hkept : Kept r (r.cutAt cfg e k).runtime :=
      runtime_cutAt (fun call hcall => (hcalls call hcall).kept) hfinal k
    exact flushed_of_kept h.flushed hdata hkept

/-! ### Closing -/

/-- An acknowledged flush has delivered the text: a new one writes it, and a logged one
was of the same text. -/
theorem offered_of_flush {answer : OpAckResult} {data : Store} (h : Delivers cfg r)
    (hactive : r.runtime.persisted.active = true)
    (hack : process cfg.platform now uuid (r.flushOp cfg) none r.data
      = (.ok (.ack answer), data)) : Offered cfg data (r.textHash cfg) := by
  cases hlogged : r.data.getOpById (r.flushOp cfg).opId with
  | none => exact (offered_of_ack (writesText_flushOp r) hlogged hack).1
  | some logged =>
    have hsame : data = r.data := by
      unfold process at hack
      rw [hlogged] at hack
      exact (Prod.mk.inj hack).2.symm
    rw [hsame]
    exact h.flushed ⟨hactive, by rw [hlogged, Option.isSome_some]⟩

/-- What a close whose op was processed leaves to the note. -/
theorem sameOffer_ran_process {calls : StoreCalls D} {runtime runtime' : RuntimeRoom D}
    {op : FileOp} (h : ∀ call ∈ calls, call.1.isBookkeeping = true) :
    SameOffer cfg (process cfg.platform now uuid op none r.data).2
      (r.ran cfg ((.process now uuid op, runtime) :: calls) runtime').data :=
  sameOffer_ran (r := { r with data := (process cfg.platform now uuid op none r.data).2 }) h

/-- **A close** keeps the room delivered, whichever of its store calls throws. -/
theorem delivers_of_close (h : Delivers cfg r)
    (hcalls : storeCalls cfg r e = r.demoteLockedCalls cfg now uuid)
    (hfinal : Kept r (e.room cfg r).runtime) (k : ℕ) : Delivers cfg (r.cutAt cfg e k) := by
  cases hclose : r.demoteLockedCalls cfg now uuid with
  | nil =>
    rw [hclose] at hcalls
    exact delivers_of_quiet h (by simp [hcalls]) hfinal k
  | cons call calls =>
    obtain ⟨rfl, hactive, hquiet, hack⟩ := quiet_demoteLockedCalls hclose
    rw [hclose] at hcalls
    have hkept : ∀ call ∈ storeCalls cfg r e, Saves call ∧ Kept r call.2 := by
      intro call hcall
      rw [hcalls] at hcall
      rcases List.mem_cons.mp hcall with rfl | hcall
      · exact ⟨fun room h => absurd h (by simp), .refl r⟩
      · exact ⟨(hquiet call hcall).saves, (hquiet call hcall).kept⟩
    have hkept' : Kept r (r.cutAt cfg e k).runtime :=
      runtime_cutAt (fun call hcall => (hkept call hcall).2) hfinal k
    refine delivers_cutAt_of_flushed h
      (fun call hcall => ⟨(hkept call hcall).1, (hkept call hcall).2.hasSnapshot h.memory⟩)
      (hfinal.hasSnapshot h.memory) ?_
    intro hlogged
    have hdata : (r.cutAt cfg e k).data
        = (r.ran cfg ((storeCalls cfg r e).take k) r.runtime).data := rfl
    rw [hcalls] at hdata
    cases k with
    | zero => exact flushed_of_kept h.flushed (hdata ▸ .refl cfg r.data) hkept' hlogged
    | succ k =>
      rw [List.take_succ_cons] at hdata
      have hsame : SameOffer cfg (process cfg.platform now uuid (r.flushOp cfg) none r.data).2
          (r.cutAt cfg e (k + 1)).data := by
        rw [hdata]
        exact sameOffer_ran_process fun call hcall =>
          (hquiet call (List.mem_of_mem_take hcall)).bookkeeping
      by_cases hnot : ∀ answer, (process cfg.platform now uuid (r.flushOp cfg) none r.data).1
          ≠ .ok (.ack answer)
      · have hsame' := sameOffer_of_not_ack hnot
        exact flushed_of_kept h.flushed
          ⟨fun ho => hsame.offered (hsame'.offered ho), hsame.ops.trans hsame'.ops⟩ hkept' hlogged
      · simp only [not_forall, not_not] at hnot
        obtain ⟨answer, hanswer⟩ := hnot
        rw [hkept'.textHash]
        exact hsame.offered (offered_of_flush h hactive (Prod.ext hanswer rfl))

/-! ### Updates, restores and promotions -/

/-- **An update** keeps the room delivered if it leaves the text once the flush is logged. -/
theorem delivers_of_update {roomEpoch updateId : ℕ} {update : D} {k : ℕ} (h : Delivers cfg r)
    (he : e = .handleUpdate now deviceId userId roomEpoch updateId update)
    (htext : FlushLogged cfg r → (r.cutAt cfg e k).textHash cfg = r.textHash cfg) :
    Delivers cfg (r.cutAt cfg e k) := by
  subst he
  have hcalls : ∀ call ∈ storeCalls cfg r
      (.handleUpdate now deviceId userId roomEpoch updateId update),
      Quiet r call ∨ Quiet (merged r update) call := quiet_handleUpdateCalls
  have hfinal : Kept r _ ∨ Kept (merged r update) (RoomEvent.room cfg r
      (.handleUpdate now deviceId userId roomEpoch updateId update)).runtime := kept_handleUpdate
  have hkept := runtime_cutAt (Q := fun runtime => Kept r runtime ∨ Kept (merged r update) runtime)
    (fun call hcall => (hcalls call hcall).imp Quiet.kept Quiet.kept) hfinal k
  refine delivers_cutAt_of_flushed h ?_ ?_ ?_
  · intro call hcall
    rcases hcalls call hcall with hquiet | hquiet
    · exact ⟨hquiet.saves, hquiet.kept.hasSnapshot h.memory⟩
    · exact ⟨hquiet.saves, hquiet.kept.hasSnapshot h.memory⟩
  · rcases hfinal with hkept | hkept
    · exact hkept.hasSnapshot h.memory
    · exact hkept.hasSnapshot h.memory
  · intro hlogged
    have hdata : SameOffer cfg r.data (r.cutAt cfg
        (.handleUpdate now deviceId userId roomEpoch updateId update) k).data :=
      sameOffer_ran fun call hcall =>
        (hcalls call (List.mem_of_mem_take hcall)).elim Quiet.bookkeeping Quiet.bookkeeping
    have hlogged' : FlushLogged cfg r := by
      rcases hkept with hkept | hkept
      · exact hlogged.of_kept hdata.ops hkept
      · exact FlushLogged.of_kept (r := merged r update) hdata.ops hkept hlogged
    rw [htext hlogged']
    exact hdata.offered (h.flushed hlogged')

/-- The text of a room after a restore replaced it. -/
theorem textHash_replacement (clientID : ℕ) (text : String) :
    (merged r (replacement cfg r clientID text)).textHash cfg = contentHashText cfg.platform text :=
  congrArg (contentHashText cfg.platform) (content_replaceText cfg clientID text r.runtime.doc)

/-- What an acknowledged op adds to the log is the op. -/
theorem logged_of_ack_of_fresh {P : Platform} {op : FileOp} {s s' : Store} {answer : OpAckResult}
    {opId : String} (hcollab : syntheticCollab op = true) (hfresh : s.getOpById op.opId = none)
    (hack : process P now uuid op none s = (.ok (.ack answer), s'))
    (h : (s'.getOpById opId).isSome = true) :
    (s.getOpById opId).isSome = true ∨ op.opId = opId := by
  obtain ⟨applied, ha, rfl⟩ := accepted_of_ack hcollab hfresh hack
  have hops : (commit now op none applied).2.ops
      = s.ops ++ [loggedOp now op applied (applied.tx.nextSeq op.vaultId)] := by
    rw [commit_ops, (accepted_spec ha).frame.ops]
  have hget := Store.getOpById_append s
    (loggedOp now op applied (applied.tx.nextSeq op.vaultId)) opId
  by_cases hid : op.opId = opId
  · exact Or.inr hid
  · rw [if_neg (show ¬ (loggedOp now op applied _).opId = opId from hid)] at hget
    refine Or.inl ?_
    rw [← hget]
    unfold Store.getOpById at h ⊢
    rwa [hops] at h

/-- The text an acknowledged restore leaves the note with: its own, or that of the room if
its op was logged before. -/
theorem offered_of_restore {file : StoredFile} {text requestId : String} {answer : OpAckResult}
    {data : Store} (h : Delivers cfg r)
    (hack : process cfg.platform now uuid (Room.restoreOp cfg file text requestId) none r.data
      = (.ok (.ack answer), data))
    (hactive : r.runtime.persisted.active = true)
    (hlogged : (data.getOpById (r.flushOp cfg).opId).isSome = true) :
    (FlushLogged cfg r ∨ requestId = (r.flushOp cfg).opId) ∧
      (r.data.getOpById requestId = none → Offered cfg data (contentHashText cfg.platform text)) ∧
      (r.data.getOpById requestId ≠ none → Offered cfg data (r.textHash cfg)) := by
  have hop : WritesText cfg (Room.restoreOp cfg file text requestId) text :=
    writesText_restoreOp file requestId
  cases hknown : r.data.getOpById requestId with
  | none =>
    refine ⟨?_, fun _ => (offered_of_ack hop hknown hack).1, fun hne => absurd rfl hne⟩
    rcases logged_of_ack_of_fresh (syntheticCollab_of_writesText hop) hknown hack hlogged with
      hbefore | hid
    · exact Or.inl ⟨hactive, hbefore⟩
    · exact Or.inr hid
  | some logged =>
    have hsame : data = r.data := by
      have hid : r.data.getOpById (Room.restoreOp cfg file text requestId).opId = some logged :=
        hknown
      unfold process at hack
      rw [hid] at hack
      exact (Prod.mk.inj hack).2.symm
    subst hsame
    exact ⟨Or.inl ⟨hactive, hlogged⟩, nofun, fun _ => h.flushed ⟨hactive, hlogged⟩⟩

/-- **A restore that is refused** leaves nothing behind. -/
theorem delivers_of_refused {op : FileOp} (h : Delivers cfg r)
    (hnot : ∀ answer, (process cfg.platform now uuid op none r.data).1 ≠ .ok (.ack answer))
    (hcalls : storeCalls cfg r e = [(.process now uuid op, r.runtime)])
    (hruntime : (e.room cfg r).runtime = r.runtime) (k : ℕ) : Delivers cfg (r.cutAt cfg e k) := by
  have hkept : Kept r (r.cutAt cfg e k).runtime := by
    refine runtime_cutAt ?_ (hruntime ▸ .refl r) k
    intro call hcall
    rw [hcalls] at hcall
    obtain rfl := List.mem_singleton.mp hcall
    exact .refl r
  refine delivers_cutAt_of_flushed h ?_ (hruntime ▸ h.memory) ?_
  · intro call hcall
    rw [hcalls] at hcall
    obtain rfl := List.mem_singleton.mp hcall
    exact ⟨fun room h => absurd h (by simp), h.memory⟩
  · have hdata : SameOffer cfg r.data (r.cutAt cfg e k).data := by
      show SameOffer cfg r.data (r.ran cfg ((storeCalls cfg r e).take k) r.runtime).data
      rw [hcalls]
      cases k with
      | zero => exact .refl cfg r.data
      | succ k =>
        rw [List.take_succ_cons, List.take_nil]
        exact sameOffer_of_not_ack hnot
    exact flushed_of_kept h.flushed hdata hkept

section Restored

variable {op : FileOp} {text : String} {clientID k : ℕ} {first : StoreCall D × RuntimeRoom D}
  {calls : StoreCalls D}

/-- The calls after the op find the room as it was, then the room with the text replaced. -/
theorem kept_replaced
    (hcalls : storeCalls cfg r e = (.process now uuid op, r.runtime) :: first :: calls)
    (hfirst : Quiet r first)
    (hrest : ∀ call ∈ calls, Quiet (merged r (replacement cfg r clientID text)) call)
    (hfinal : Kept (merged r (replacement cfg r clientID text)) (e.room cfg r).runtime) (k : ℕ) :
    (k = 0 ∧ Kept r (r.cutAt cfg e (k + 1)).runtime) ∨
      Kept (merged r (replacement cfg r clientID text)) (r.cutAt cfg e (k + 1)).runtime := by
  show (_ ∧ Kept r (((storeCalls cfg r e)[k + 1]?.map Prod.snd).getD _)) ∨
    Kept _ (((storeCalls cfg r e)[k + 1]?.map Prod.snd).getD _)
  rw [hcalls, List.getElem?_cons_succ]
  cases k with
  | zero => exact Or.inl ⟨rfl, hfirst.kept⟩
  | succ k =>
    rw [List.getElem?_cons_succ]
    cases hget : calls[k]? with
    | none => exact Or.inr hfinal
    | some call => exact Or.inr (hrest call (List.mem_of_getElem? hget)).kept

/-- Once the op is through, the calls after it leave what it offers. -/
theorem sameOffer_replaced {answer : OpAckResult} {data : Store}
    (hack : process cfg.platform now uuid op none r.data = (.ok (.ack answer), data))
    (hcalls : storeCalls cfg r e = (.process now uuid op, r.runtime) :: first :: calls)
    (hfirst : Quiet r first)
    (hrest : ∀ call ∈ calls, Quiet (merged r (replacement cfg r clientID text)) call) (k : ℕ) :
    SameOffer cfg data (r.cutAt cfg e (k + 1)).data := by
  have hbook : ∀ call ∈ (first :: calls).take k, call.1.isBookkeeping = true := by
    intro call hcall
    rcases List.mem_cons.mp (List.mem_of_mem_take hcall) with rfl | hcall
    · exact hfirst.bookkeeping
    · exact (hrest call hcall).bookkeeping
  show SameOffer cfg data (r.ran cfg ((storeCalls cfg r e).take (k + 1)) r.runtime).data
  rw [hcalls, List.take_succ_cons, show data = (_, data).2 from rfl, ← hack]
  exact sameOffer_ran_process hbook

/-- A flush that is logged after the cut was logged with the op. -/
theorem flushLogged_replaced {data : Store}
    (hsame : SameOffer cfg data (r.cutAt cfg e (k + 1)).data)
    (hkept : (k = 0 ∧ Kept r (r.cutAt cfg e (k + 1)).runtime) ∨
      Kept (merged r (replacement cfg r clientID text)) (r.cutAt cfg e (k + 1)).runtime)
    (hlogged : FlushLogged cfg (r.cutAt cfg e (k + 1))) :
    (data.getOpById (r.flushOp cfg).opId).isSome = true ∧ r.runtime.persisted.active = true := by
  have hlogged' : FlushLogged cfg { r with data } := by
    rcases hkept with ⟨-, hkept⟩ | hkept
    · exact FlushLogged.of_kept (r := { r with data }) hsame.ops
        ⟨hkept.active, hkept.epoch, hkept.doc, hkept.snapshot⟩ hlogged
    · exact FlushLogged.of_kept
        (r := { merged r (replacement cfg r clientID text) with data })
        hsame.ops ⟨hkept.active, hkept.epoch, hkept.doc, hkept.snapshot⟩ hlogged
  exact ⟨hlogged'.2, hlogged'.1⟩

/-- The text after the cut: that of the op once it is written, that of the room otherwise. -/
theorem offered_replaced {answer : OpAckResult} {file : StoredFile} {requestId : String}
    {data : Store} (h : Delivers cfg r)
    (hack : process cfg.platform now uuid (Room.restoreOp cfg file text requestId) none r.data
      = (.ok (.ack answer), data))
    (hkept : (k = 0 ∧ Kept r (r.cutAt cfg e (k + 1)).runtime) ∨
      Kept (merged r (replacement cfg r clientID text)) (r.cutAt cfg e (k + 1)).runtime)
    (hlogged : (data.getOpById (r.flushOp cfg).opId).isSome = true)
    (hactive : r.runtime.persisted.active = true)
    (hquiet : r.data.getOpById requestId = none ∧ k ≠ 0 ∨
      contentHashText cfg.platform text = r.textHash cfg) :
    Offered cfg data ((r.cutAt cfg e (k + 1)).textHash cfg) := by
  obtain ⟨-, hnew, hold⟩ := offered_of_restore h hack hactive hlogged
  by_cases hknown : r.data.getOpById requestId = none
  · rcases hkept with ⟨rfl, hkept⟩ | hkept
    · -- the note is written and the room is not
      have htext := hquiet.resolve_left fun hno => hno.2 rfl
      rw [hkept.textHash, ← htext]
      exact hnew hknown
    · rw [hkept.textHash, textHash_replacement]
      exact hnew hknown
  · have htext := hquiet.resolve_left fun hno => hknown hno.1
    rcases hkept with ⟨rfl, hkept⟩ | hkept
    · rw [hkept.textHash]
      exact hold hknown
    · rw [hkept.textHash, textHash_replacement, htext]
      exact hold hknown

end Restored

/-- **A restore** keeps the room delivered if it writes the note as well as the room. -/
theorem delivers_of_restore {clientID versionId : ℕ} {requestId : String} {fault : Option ℕ} {k : ℕ}
    (h : Delivers cfg r)
    (he : e = .restoreHistoryVersion now uuid clientID deviceId userId versionId requestId)
    (hfault : (storeCalls cfg r e).length ≤ k ∧ (∀ j ∈ fault, (storeCalls cfg r e).length ≤ j) ∨
      k < (storeCalls cfg r e).length ∧ fault = some k)
    (hquiet : (r.restoreHistoryVersion cfg ready now uuid clientID deviceId userId versionId
        requestId).result.isOk = true →
      r.runtime.persisted.active = true →
      (FlushLogged cfg r ∨ requestId = (r.flushOp cfg).opId) → fault ≠ some 0 →
        r.data.getOpById requestId = none ∧ fault ≠ some 1 ∨
          ∀ version ∈ r.roomStore.getSnapshotVersion versionId,
            contentHashText cfg.platform (textFromSnapshot cfg version.snapshot) = r.textHash cfg) :
    Delivers cfg (r.cutAt cfg e k) := by
  have hcases := restoreCalls_cases cfg r now uuid clientID deviceId userId versionId requestId
  have hcallsE : storeCalls cfg r e = r.restoreHistoryVersionCalls cfg now uuid clientID deviceId
    userId versionId requestId := by rw [he]; rfl
  have hroomE : e.room cfg r = (r.restoreHistoryVersion cfg ready now uuid clientID deviceId userId
    versionId requestId).room := by rw [he]; rfl
  rw [← hcallsE, ← hroomE] at hcases
  rcases hcases with ⟨hnone, hroom⟩ | ⟨file, version, hversion, ⟨hnot, hcalls, hruntime⟩ |
      ⟨answer, data, hack, hok, hcalls, hfinal⟩⟩
  · refine delivers_of_quiet h (by simp [hnone]) ?_ k
    rw [hroom]
    exact .refl r
  · exact delivers_of_refused h hnot hcalls hruntime k
  · obtain ⟨first, calls, hreplace, hfirst, hrest⟩ := quiet_replaceTextCalls cfg r now clientID
      deviceId userId (textFromSnapshot cfg version.snapshot)
    rw [hreplace] at hcalls
    have hmerged : HasSnapshot (merged r (replacement cfg r clientID
      (textFromSnapshot cfg version.snapshot))).runtime.persisted := h.memory
    refine delivers_cutAt_of_flushed h ?_ (hfinal.hasSnapshot hmerged) ?_
    · intro call hcall
      rw [hcalls] at hcall
      rcases List.mem_cons.mp hcall with rfl | hcall
      · exact ⟨fun room h => absurd h (by simp), h.memory⟩
      rcases List.mem_cons.mp hcall with rfl | hcall
      · exact ⟨hfirst.saves, hfirst.kept.hasSnapshot h.memory⟩
      · exact ⟨(hrest call hcall).saves, (hrest call hcall).kept.hasSnapshot hmerged⟩
    intro hlogged
    cases k with
    | zero =>
      -- the op itself throws
      have hkept : Kept r (r.cutAt cfg e 0).runtime := by
        show Kept r (((storeCalls cfg r e)[0]?.map Prod.snd).getD _)
        rw [hcalls]
        exact .refl r
      exact flushed_of_kept h.flushed (.refl cfg r.data) hkept hlogged
    | succ k =>
      have hsame := sameOffer_replaced hack hcalls hfirst hrest k
      have hkept := kept_replaced hcalls hfirst hrest hfinal k
      obtain ⟨hlog, hactive⟩ := flushLogged_replaced hsame hkept hlogged
      have hlength : 2 ≤ (storeCalls cfg r e).length := by
        rw [hcalls, List.length_cons, List.length_cons]
        omega
      have hthrown : fault ≠ some 0 := by
        rintro rfl
        rcases hfault with ⟨-, hall⟩ | ⟨-, hk⟩
        · have := hall 0 rfl
          omega
        · simp at hk
      have hcut : k = 0 → fault = some 1 := by
        rintro rfl
        rcases hfault with ⟨hle, -⟩ | ⟨-, hk⟩
        · omega
        · exact hk
      refine hsame.offered (offered_replaced h hack hkept hlog hactive ?_)
      exact (hquiet hok hactive (offered_of_restore h hack hactive hlog).1 hthrown).imp
        (fun hnew => ⟨hnew.1, fun hk => hnew.2 (hcut hk)⟩) fun htext => htext version hversion

/-- **A promotion** keeps the room delivered if the epoch it begins has no flush. -/
theorem delivers_of_promote {clientID connection : ℕ} {k : ℕ} (h : Delivers cfg r)
    (he : e = .promote now clientID deviceId userId connection)
    (hepoch : (e.room cfg r).runtime.persisted.epoch ≠ r.runtime.persisted.epoch →
      ¬ FlushLogged cfg (e.room cfg r)) : Delivers cfg (r.cutAt cfg e k) := by
  have hcases := promoteCalls_cases cfg r now clientID deviceId userId connection
  have hcallsE : storeCalls cfg r e = r.promoteCalls cfg now clientID deviceId userId := by
    rw [he]
    rfl
  have hroomE : e.room cfg r
      = (r.promote cfg now clientID deviceId userId connection).room := by rw [he]; rfl
  rw [← hcallsE, ← hroomE] at hcases
  rcases hcases with ⟨hnone, hroom⟩ | ⟨file, ⟨-, hcalls, hroom⟩ | ⟨-, hcalls, hroom⟩⟩
  · refine delivers_of_quiet h (by simp [hnone]) ?_ k
    rw [hroom]
    exact .refl r
  · refine delivers_of_quiet h ?_ ?_ k
    · rw [hcalls]
      exact quiet_joinCalls
    · rw [hroom]
      exact kept_join
  · -- the calls find the room as it was, before its text is read, or that of the new epoch
    have hopened : ∀ call ∈ storeCalls cfg r e,
        (call.1.isBookkeeping = true ∧ Saves call ∧ r.runtime.persisted.snapshot = none ∧
          call.2.persisted = r.runtime.persisted) ∨
        Quiet (r.activate cfg now clientID file deviceId) call := by
      intro call hcall
      rw [hcalls] at hcall
      rcases List.mem_append.mp hcall with hcall | hcall
      · exact quiet_activateCalls call hcall
      · exact Or.inr (quiet_joinCalls call hcall)
    have hfinal : Kept (r.activate cfg now clientID file deviceId) (e.room cfg r).runtime := by
      rw [hroom]
      exact kept_join
    have hsnapshot : HasSnapshot
        (r.activate cfg now clientID file deviceId).runtime.persisted := fun _ => rfl
    have hbook : ∀ call ∈ storeCalls cfg r e, call.1.isBookkeeping = true := by
      intro call hcall
      rcases hopened call hcall with ⟨hbook, -⟩ | hquiet
      · exact hbook
      · exact hquiet.bookkeeping
    refine delivers_cutAt_of_flushed h ?_ (hfinal.hasSnapshot hsnapshot) ?_
    · intro call hcall
      rcases hopened call hcall with ⟨-, hsaves, -, hsame⟩ | hquiet
      · exact ⟨hsaves, hsame ▸ h.memory⟩
      · exact ⟨hquiet.saves, hquiet.kept.hasSnapshot hsnapshot⟩
    · intro hlogged
      have hcut := runtime_cutAt (Q := fun runtime =>
          (r.runtime.persisted.snapshot = none ∧ runtime.persisted = r.runtime.persisted) ∨
            Kept (r.activate cfg now clientID file deviceId) runtime)
        (fun call hcall => (hopened call hcall).imp (fun hread => hread.2.2) Quiet.kept)
        (Or.inr hfinal) k
      rcases hcut with ⟨hnone, hsame⟩ | hkept
      · -- an active room is not seeded from its note
        have hsome := h.memory (hsame ▸ hlogged.1)
        rw [hnone] at hsome
        exact absurd hsome Bool.false_ne_true
      · have hops : (e.room cfg r).data.ops = r.data.ops := by
          rw [← ran_storeCalls r e]
          exact (sameOffer_ran hbook : SameOffer cfg _ _).ops
        have hcutOps : (r.cutAt cfg e k).data.ops = r.data.ops :=
          (sameOffer_ran fun call hcall => hbook call (List.mem_of_mem_take hcall) :
            SameOffer cfg _ _).ops
        have hnext : (e.room cfg r).runtime.persisted.epoch ≠ r.runtime.persisted.epoch := by
          rw [hfinal.epoch]
          show (if r.runtime.persisted.seeded then r.runtime.persisted.epoch + 1
            else max 1 (r.runtime.persisted.epoch + 1)) ≠ _
          split <;> omega
        have hactive : (e.room cfg r).runtime.persisted.active = true := by
          rw [hroom]
          rcases (r.activate cfg now clientID file deviceId).join_cases with
            ⟨_, hjoin⟩ | ⟨_, _, rfl, hjoin⟩ <;> rw [hjoin] <;> rfl
        have hroomKept : Kept (e.room cfg r) (r.cutAt cfg e k).runtime :=
          ⟨fun _ => hactive, hkept.epoch.trans hfinal.epoch.symm, hkept.doc.trans hfinal.doc.symm,
            fun _ => hkept.snapshot rfl⟩
        exact absurd (hlogged.of_kept (hcutOps.trans hops.symm) hroomKept) (hepoch hnext)

/-! ### Runs -/

/-- A caught error changes nothing but the state of the room. -/
theorem delivers_caught (h : Delivers cfg r) : Delivers cfg (e.caught r) := by
  cases e with
  | closingTimer => exact ⟨h.flushed, h.memory, h.stored⟩
  | layer1 | promote | handleUpdate | handleSync | heartbeat | leave | disconnect | demote
  | closeDeleted | sweepExpired | closeAll | compact | restoreHistoryVersion | restart => exact h

/-- A call that finds a room. -/
theorem delivers_cutAt {s : RoomServer D} {fault : Option ℕ} {k : ℕ}
    (h : Delivers cfg s.materialize) (hfinds : e.finds s = some s.materialize)
    (hstep : faultStep cfg s (e, fault)
        = (s.materialize.cutAt cfg e k).server ∧
          (storeCalls cfg s.materialize e).length ≤ k ∧
          (∀ j ∈ fault, (storeCalls cfg s.materialize e).length ≤ j) ∨
      faultStep cfg s (e, fault) = (e.caught (s.materialize.cutAt cfg e k)).server ∧
        k < (storeCalls cfg s.materialize e).length ∧ fault = some k)
    (hc : KeepsFlushed cfg s (e, fault)) : Delivers cfg (s.materialize.cutAt cfg e k) := by
  -- a call that flushes is a close; the others keep the room, or merge into it
  cases e with
  | layer1 | restart => simp [RoomEvent.finds] at hfinds
  | promote => exact delivers_of_promote h rfl hc
  | handleUpdate =>
    refine delivers_of_update h rfl fun hlogged => ?_
    rw [← hc hlogged]
    rcases hstep with ⟨hstep, -⟩ | ⟨hstep, -⟩ <;> rw [hstep] <;> rfl
  | handleSync deviceId roomEpoch stateVector =>
    refine delivers_of_quiet h (by simp [storeCalls]) ?_ k
    show Kept _ (s.materialize.handleSync cfg deviceId roomEpoch stateVector).room.runtime
    rw [s.materialize.handleSync_room cfg deviceId roomEpoch stateVector]
    exact .refl _
  | heartbeat => exact delivers_of_quiet h quiet_heartbeatCalls kept_heartbeat k
  | leave deviceId roomEpoch =>
    refine delivers_of_quiet h (by simp [storeCalls]) ?_ k
    show Kept _ (s.materialize.leave deviceId roomEpoch).room.runtime
    rcases Room.leave_cases with hroom | ⟨participant, -, hroom⟩ <;> rw [hroom]
    · exact .refl _
    · exact kept_removeParticipant participant
  | disconnect deviceId =>
    refine delivers_of_quiet h (by simp [storeCalls]) ?_ k
    show Kept _ (s.materialize.disconnect deviceId).runtime
    rcases Room.disconnect_cases with ⟨-, hroom⟩ | ⟨participant, -, hroom⟩ <;> rw [hroom]
    · exact .refl _
    · exact kept_removeParticipant participant
  | demote now uuid deviceId roomEpoch reason =>
    have hfinal : Kept s.materialize (RoomEvent.room cfg s.materialize
        (.demote now uuid deviceId roomEpoch reason)).runtime :=
      kept_of_flushOf (Room.flushOf_demote roomEpoch)
    by_cases hdemotes : s.materialize.demotes roomEpoch = true
    · have hcalls : storeCalls cfg s.materialize (.demote now uuid deviceId roomEpoch reason)
        = s.materialize.demoteLockedCalls cfg now uuid := if_pos hdemotes
      exact delivers_of_close h hcalls hfinal k
    · refine delivers_of_quiet h ?_ hfinal k
      simp [storeCalls, hdemotes]
  | closeDeleted => exact delivers_of_quiet h quiet_closeDeletedCalls kept_closeDeleted k
  | closingTimer now uuid =>
    have hfinal : Kept s.materialize (RoomEvent.room cfg s.materialize
        (.closingTimer now uuid)).runtime := kept_of_flushOf Room.flushOf_closingTimer
    by_cases hdemotes : s.materialize.timerDemotes = true
    · have hcalls : storeCalls cfg s.materialize (.closingTimer now uuid)
        = s.materialize.demoteLockedCalls cfg now uuid := if_pos hdemotes
      exact delivers_of_close h hcalls hfinal k
    · refine delivers_of_quiet h ?_ hfinal k
      simp [storeCalls, hdemotes]
  | sweepExpired now uuid =>
    have hfinal : Kept s.materialize (RoomEvent.room cfg s.materialize
        (.sweepExpired now uuid)).runtime := kept_of_flushOf Room.flushOf_sweepExpired
    by_cases hexpired : s.materialize.expired now = true
    · have hcalls : storeCalls cfg s.materialize (.sweepExpired now uuid)
        = s.materialize.demoteLockedCalls cfg now uuid := if_pos hexpired
      exact delivers_of_close h hcalls hfinal k
    · refine delivers_of_quiet h ?_ hfinal k
      simp [storeCalls, hexpired]
  | closeAll => exact delivers_of_close h rfl (kept_of_flushOf Room.flushOf_closeAll) k
  | compact => exact delivers_of_quiet h quiet_compactCalls ⟨id, rfl, rfl, fun _ => rfl⟩ k
  | restoreHistoryVersion =>
    refine delivers_of_restore h rfl ?_ hc
    exact hstep.imp And.right And.right

/-- **An undisturbed step keeps the room delivered.** -/
theorem delivers_faultStep {s : RoomServer D} {call : RoomEvent D × Option ℕ}
    (h : Delivers cfg s.materialize) (hc : KeepsFlushed cfg s call) :
    Delivers cfg (faultStep cfg s call).materialize := by
  obtain ⟨e, fault⟩ := call
  cases hfinds : e.finds s with
  | none =>
    rw [faultStep_of_finds_none cfg hfinds]
    rcases roomStep_of_finds_none cfg hfinds with ⟨event, rfl⟩ | rfl | hsame
    · refine ⟨fun hlogged => ?_, h.memory, h.stored⟩
      obtain ⟨hbefore, hkeeps⟩ := hc hlogged
      exact hkeeps (h.flushed hbefore)
    · refine ⟨hc, ?_, h.stored⟩
      show HasSnapshot (s.roomStore.room.getD emptyRoom)
      cases hroom : s.roomStore.room with
      | none => exact fun hactive => absurd hactive Bool.false_ne_true
      | some room => exact h.stored room hroom
    · rw [hsame]
      exact h
  | some r =>
    obtain rfl := materialize_of_finds hfinds
    obtain ⟨k, hstep⟩ := faultStep_of_finds cfg hfinds fault
    have hcut := delivers_cutAt h hfinds hstep hc
    rcases hstep with ⟨hstep, -⟩ | ⟨hstep, -⟩ <;> rw [hstep, materialize_server]
    · exact hcut
    · exact delivers_caught hcut

/-- An event that comes to a close makes the calls of the close. -/
theorem storeCalls_of_close (cfg : RoomConfig D) {close : Time × Uuid × RoomClosedReason}
    (h : close ∈ e.close r) :
    storeCalls cfg r e = r.demoteLockedCalls cfg close.1 close.2.1 := by
  cases e with
  | demote | closingTimer | sweepExpired =>
    obtain ⟨hcloses, heq⟩ := Option.ite_none_right_eq_some.mp h
    obtain rfl := Option.some.inj heq
    exact if_pos hcloses
  | closeAll =>
    obtain rfl := Option.some.inj h
    rfl
  | layer1 | promote | handleUpdate | handleSync | heartbeat | leave | disconnect | closeDeleted
  | compact | restoreHistoryVersion | restart => exact absurd h (by simp [RoomEvent.close])

/-- A close of an active room that does not fail has its op acknowledged. -/
theorem ack_of_demoteLocked {reason : RoomClosedReason}
    (hactive : r.runtime.persisted.active = true)
    (hok : (r.demoteLocked cfg ready now uuid reason).result.isOk = true) :
    ∃ answer data, process cfg.platform now uuid (r.flushOp cfg) none r.data
      = (.ok (.ack answer), data) := by
  unfold Room.demoteLocked at hok
  rcases hprocess : process cfg.platform now uuid (r.flushOp cfg) none r.data with
    ⟨e | result, data⟩
  · simp [hactive, hprocess, Except.isOk, Except.toBool] at hok
  · cases result with
    | ack answer => exact ⟨answer, data, rfl⟩
    | reject answer => simp [hactive, hprocess, fail, Except.isOk, Except.toBool] at hok

/-- A close that completes has delivered the text of a delivered room. -/
theorem finalTextDelivered_of_delivers {s : RoomServer D} {call : RoomEvent D × Option ℕ}
    (h : Delivers cfg s.materialize) : FinalTextDelivered cfg s call := by
  obtain ⟨e, fault⟩ := call
  rintro r hfinds hactive hnot ⟨now, uuid, reason⟩ hclose hok
  obtain rfl := materialize_of_finds hfinds
  obtain ⟨answer, data, hack⟩ := ack_of_demoteLocked hactive hok
  have hcalls := storeCalls_of_close cfg hclose
  cases hlist : s.materialize.demoteLockedCalls cfg now uuid with
  | nil => simp [Room.demoteLockedCalls, hactive] at hlist
  | cons first calls =>
    obtain ⟨rfl, -, hquiet, -⟩ := quiet_demoteLockedCalls hlist
    have hstep : faultStep cfg s (e, fault) = (e.room cfg s.materialize).server := by
      obtain ⟨k, ⟨hstep, hle, -⟩ | ⟨-, hk, rfl⟩⟩ := faultStep_of_finds cfg hfinds fault
      · rw [hstep, cutAt_of_length_le hle]
      · have hle := hnot k rfl
        omega
    have hsame : SameOffer cfg data (e.room cfg s.materialize).data := by
      have hran : SameOffer cfg (process cfg.platform now uuid (s.materialize.flushOp cfg) none
            s.materialize.data).2
          (s.materialize.ran cfg (storeCalls cfg s.materialize e)
            (e.room cfg s.materialize).runtime).data := by
        rw [hcalls, hlist]
        exact sameOffer_ran_process fun call hcall => (hquiet call hcall).bookkeeping
      rw [hack, ran_storeCalls] at hran
      exact hran
    rw [hstep]
    exact hsame.offered (offered_of_flush h hactive hack)

/-- **In an undisturbed run every close that completes has delivered the text of its
room.** -/
theorem finalTextDelivered_of_keepsFlushed (cfg : RoomConfig D) (data : Store)
    (calls : List (RoomEvent D × Option ℕ))
    (h : Run.EachStep (faultStep cfg) (KeepsFlushed cfg) { data } calls) :
    Run.EachStep (faultStep cfg) (FinalTextDelivered cfg) { data } calls := by
  have hinitial : Delivers cfg ({ data } : RoomServer D).materialize :=
    ⟨fun hlogged => absurd hlogged.1 Bool.false_ne_true,
      fun hactive => absurd hactive Bool.false_ne_true, nofun⟩
  exact Run.eachStep_of_invariant (I := fun s : RoomServer D => Delivers cfg s.materialize)
    (fun _ _ h hc => delivers_faultStep h hc) (fun _ _ h _ => finalTextDelivered_of_delivers h)
    hinitial h

end

end

/-! ### Tries -/

/-- The first try of a close fails when the last snapshot is stored, a participant writes
on, and the second try completes. -/
def sampleEditedRetry : List (RoomEvent (Finset Write) × Option ℕ) :=
  [(sampleCreate, none), (.promote 2 7 "d2" "u" 0, none),
    (.demote 3 sampleUuid "d2" none .demoted, some 1),
    (.handleUpdate 4 "d2" "u" 1 1 (writes.change 9 textName "two"
      (writes.change 7 textName "one" ⊥)), none),
    (.demote 5 sampleUuid "d2" none .demoted, none)]

/-- The note says "one" although the room that was closed says "two". -/
theorem not_finalTextDelivered_editedRetry :
    ¬ Run.EachStep (faultStep sampleRoom) (FinalTextDelivered sampleRoom)
      { data := sampleStore } sampleEditedRetry := by
  rintro ⟨-, -, -, -, h, -⟩
  revert h
  simp only [FinalTextDelivered]
  decide +kernel

/-- The second try of a close after which nobody wrote. -/
theorem finalTextDelivered_retried :
    Run.EachStep (faultStep sampleRoom) (FinalTextDelivered sampleRoom) { data := sampleStore }
      [(sampleCreate, none), (.promote 2 7 "d2" "u" 0, none),
        (.handleUpdate 3 "d2" "u" 1 1 (writes.change 9 textName "two"
          (writes.change 7 textName "one" ⊥)), none),
        (.demote 4 sampleUuid "d2" none .demoted, some 1),
        (.demote 5 sampleUuid "d2" none .demoted, none)] := by
  refine finalTextDelivered_of_keepsFlushed sampleRoom sampleStore _
    ⟨fun h => absurd h.1 Bool.false_ne_true, fun _ => ?_, fun h => absurd h ?_, trivial, trivial,
      trivial⟩
  · decide +kernel
  · decide +kernel

end ObsidianSync
