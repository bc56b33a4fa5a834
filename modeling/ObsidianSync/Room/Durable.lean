import ObsidianSync.Lib.Run
import ObsidianSync.Room.Spec

/-!
# What is stored about a room is the room

The manager keeps the room it works on in memory and stores a snapshot of its
document and the updates it merged since.  Loading the stored room gives back the one
in memory, so a restart between two calls loses the sockets and nothing else.

## Main definitions

* `Durable` — the stored room is the one in memory.
* `CompactsMerged` — a compaction stays within the updates that were merged.

## Main results

* `durable_roomStep` — every call keeps the stored room up to date.
* `durable_throughout` — so does every run.
* `loadRuntime_of_durable` — what a restart gives back.
-/

namespace ObsidianSync

section

variable {D : Type} [SemilatticeSup D] [OrderBot D] {cfg : RoomConfig D}

/-! ### Loading a document -/

omit [OrderBot D] in
theorem le_foldl_sup (updates : List (StoredYjsUpdate D)) (d : D) :
    d ≤ updates.foldl (fun doc update => doc ⊔ update.update) d := by
  induction updates generalizing d with
  | nil => exact le_rfl
  | cons update updates ih => exact le_sup_left.trans (ih (d ⊔ update.update))

omit [OrderBot D] in
theorem foldl_sup_le {updates : List (StoredYjsUpdate D)} {d e : D} (hd : d ≤ e)
    (h : ∀ update ∈ updates, update.update ≤ e) :
    updates.foldl (fun doc update => doc ⊔ update.update) d ≤ e := by
  induction updates generalizing d with
  | nil => exact hd
  | cons update updates ih =>
    have hupdate := h update List.mem_cons_self
    exact ih (sup_le hd hupdate) fun u hu => h u (List.mem_cons_of_mem _ hu)

omit [SemilatticeSup D] [OrderBot D] in
/-- The updates `loadRuntime` merges are of the stored incarnation. -/
theorem mem_listUpdates {store : YjsRoomStore D} {epoch afterSeq : ℕ} {update : StoredYjsUpdate D} :
    update ∈ store.listUpdates epoch afterSeq ↔
      update ∈ store.updates ∧ update.roomEpoch = epoch ∧ update.seq > afterSeq := by
  simp [YjsRoomStore.listUpdates]

/-- A document whose snapshot holds all its updates is loaded from the snapshot. -/
theorem loadDoc_of_merged {store : YjsRoomStore D} {persisted : PersistedYjsRoom D} {doc : D}
    (hsnapshot : persisted.snapshot.getD ⊥ = doc)
    (hmerged : ∀ update ∈ store.updates, update.roomEpoch = persisted.epoch →
      update.update ≤ doc) : loadDoc store persisted = doc := by
  unfold loadDoc
  dsimp only
  rw [bot_sup_eq, hsnapshot]
  refine le_antisymm (foldl_sup_le le_rfl ?_) (le_foldl_sup _ doc)
  intro update hupdate
  split at hupdate
  · obtain ⟨hmem, hepoch, -⟩ := mem_listUpdates.mp hupdate
    exact hmerged update hmem hepoch
  · exact absurd hupdate List.not_mem_nil

/-- Loading merges an update that was logged after the snapshot. -/
theorem loadDoc_appendUpdate {store : YjsRoomStore D} {persisted : PersistedYjsRoom D}
    {update : StoredYjsUpdate D} (hseeded : persisted.seeded = true)
    (hepoch : update.roomEpoch = persisted.epoch)
    (hseq : persisted.compactedThroughSeq < update.seq) :
    loadDoc (store.appendUpdate update) persisted = loadDoc store persisted ⊔ update.update := by
  simp [loadDoc, hseeded, YjsRoomStore.listUpdates, YjsRoomStore.appendUpdate, hepoch, hseq]

/-! ### The invariant -/

/-- The log of a room in memory: its updates are of no later incarnation, those of
this one are merged, and the next one comes after the snapshot. -/
structure Logged (r : Room D) : Prop where
  epochs : ∀ update ∈ r.roomStore.updates, update.roomEpoch ≤ r.runtime.persisted.epoch
  merged : ∀ update ∈ r.roomStore.updates, update.roomEpoch = r.runtime.persisted.epoch →
    update.update ≤ r.runtime.doc
  compacted : r.runtime.persisted.compactedThroughSeq < r.runtime.persisted.nextSeq
  seeded : r.runtime.persisted.active = true → r.runtime.persisted.seeded = true

/-- The stored room is the one in memory. -/
structure Durable (r : Room D) : Prop extends Logged r where
  stored : r.roomStore.room.getD emptyRoom = r.runtime.persisted
  loaded : loadDoc r.roomStore r.runtime.persisted = r.runtime.doc

/-- What a restart gives back: the room with nobody in it. -/
theorem loadRuntime_of_durable {r : Room D} (h : Durable r) :
    (loadRuntime r.roomStore).persisted = r.runtime.persisted ∧
      (loadRuntime r.roomStore).doc = r.runtime.doc := by
  have hstored := h.stored
  exact ⟨hstored, by simp only [loadRuntime, hstored, h.loaded]⟩

theorem durable_restart {r : Room D} (h : Durable r) :
    Durable { r with runtime := loadRuntime r.roomStore } := by
  obtain ⟨hpersisted, hdoc⟩ := loadRuntime_of_durable h
  constructor
  · constructor <;> simp only [hpersisted, hdoc]
    exacts [h.epochs, h.merged, h.compacted, h.seeded]
  · exact h.stored.trans hpersisted.symm
  · simp only [hpersisted, hdoc, h.loaded]

/-- A room is durable once it is saved. -/
theorem durable_saveRuntime {r : Room D} (h : Logged r)
    (hloaded : loadDoc r.roomStore r.runtime.persisted = r.runtime.doc) :
    Durable (r.saveRuntime cfg) where
  epochs := h.epochs
  merged := h.merged
  compacted := h.compacted
  seeded := h.seeded
  stored := rfl
  loaded := hloaded

/-- A snapshot that is taken holds all that is logged. -/
theorem logged_captureSnapshot {r : Room D} {now : Time} {seq : ℕ} {reason : SnapshotHistoryReason}
    {deviceId userId : Option String} (h : Logged r) (hseq : seq < r.runtime.persisted.nextSeq) :
    Logged (r.captureSnapshot now seq reason deviceId userId) ∧
      loadDoc (r.captureSnapshot now seq reason deviceId userId).roomStore
        (r.captureSnapshot now seq reason deviceId userId).runtime.persisted = r.runtime.doc := by
  refine ⟨⟨h.epochs, h.merged, hseq, h.seeded⟩, ?_⟩
  exact loadDoc_of_merged rfl h.merged

omit [OrderBot D] in
/-- What of an update is logged and merged. -/
theorem logged_merge {r : Room D} (update : StoredYjsUpdate D) {doc : D}
    (persisted : PersistedYjsRoom D) (h : Logged r)
    (hupdate : update.roomEpoch = r.runtime.persisted.epoch)
    (hdoc : doc = r.runtime.doc ⊔ update.update)
    (hepoch : persisted.epoch = r.runtime.persisted.epoch)
    (hnext : persisted.nextSeq = r.runtime.persisted.nextSeq + 1)
    (hcompacted : persisted.compactedThroughSeq = r.runtime.persisted.compactedThroughSeq)
    (hseeded : persisted.active = true → persisted.seeded = true) :
    Logged { r with
      roomStore := r.roomStore.appendUpdate update
      runtime := { r.runtime with doc, persisted } } := by
  have hmem : ∀ u, u ∈ (r.roomStore.appendUpdate update).updates →
      u ∈ r.roomStore.updates ∨ u = update := by
    intro u hu
    simpa [YjsRoomStore.appendUpdate] using hu
  constructor
  · intro u hu
    simp only [hepoch]
    rcases hmem u hu with hu | rfl
    · exact h.epochs u hu
    · exact hupdate.le
  · intro u hu hsame
    simp only [hepoch, hdoc] at hsame ⊢
    rcases hmem u hu with hu | rfl
    · exact (h.merged u hu hsame).trans le_sup_left
    · exact le_sup_right
  · simp only [hcompacted, hnext]
    exact h.compacted.trans (Nat.lt_succ_self _)
  · exact hseeded

/-! ### The calls -/

variable {r : Room D} {busy : RoomSink → Bool} {now : Time} {deviceId userId : String}

theorem durable_activate {clientID : ℕ} {file : StoredFile} (h : Durable r) :
    Durable (r.activate cfg now clientID file deviceId) := by
  let doc := Room.activationDoc cfg clientID r.runtime.persisted.snapshot file r.data
  have hepoch : r.runtime.persisted.epoch
      < (r.activate cfg now clientID file deviceId).runtime.persisted.epoch := by
    simp only [Room.activate, Room.saveRuntime]
    split <;> omega
  have hnone : ∀ u ∈ r.roomStore.updates, u.roomEpoch
      ≠ (r.activate cfg now clientID file deviceId).runtime.persisted.epoch :=
    fun u hu => ((h.epochs u hu).trans_lt hepoch).ne
  have hmerged : ∀ u ∈ (r.activate cfg now clientID file deviceId).roomStore.updates,
      u.roomEpoch = (r.activate cfg now clientID file deviceId).runtime.persisted.epoch →
      u.update ≤ doc :=
    fun u hu hsame => absurd hsame (hnone u hu)
  refine ⟨⟨?_, hmerged, Nat.zero_lt_one, fun _ => rfl⟩, ?_, loadDoc_of_merged rfl hmerged⟩
  · exact fun u hu => (h.epochs u hu).trans hepoch.le
  · simp [Room.activate, Room.saveRuntime, YjsRoomStore.saveSnapshot, YjsRoomStore.saveRoom]

theorem durable_extendLease (h : Durable r) : Durable (r.extendLease cfg now deviceId) :=
  durable_saveRuntime ⟨h.epochs, h.merged, h.compacted, h.seeded⟩ h.loaded

theorem durable_withParticipant {participant : Participant} (h : Durable r) :
    Durable (r.withParticipant participant) :=
  ⟨⟨h.epochs, h.merged, h.compacted, h.seeded⟩, h.stored, h.loaded⟩

theorem durable_join {file : StoredFile} {connection : ℕ} (h : Durable r) :
    Durable (r.join cfg now file deviceId userId connection).room := by
  have hlease : Durable (r.extendLease cfg now deviceId) := durable_extendLease h
  have hback : Durable ((r.extendLease cfg now deviceId).welcomeBack deviceId) :=
    ⟨⟨hlease.epochs, hlease.merged, hlease.compacted, hlease.seeded⟩, hlease.stored,
      hlease.loaded⟩
  rcases r.join_cases with ⟨e, hroom⟩ | ⟨role, joined, rfl, hroom⟩
  · rw [hroom]
    exact hback
  · rw [hroom]
    exact durable_withParticipant hback

theorem durable_promote {clientID connection : ℕ} (h : Durable r) :
    Durable (r.promote cfg now clientID deviceId userId connection).room := by
  rcases r.promote_cases with ⟨hroom, -⟩ | ⟨file, -, -, hpromote⟩
  · rw [hroom]
    exact h
  · rw [hpromote]
    split
    · exact durable_join (durable_activate h)
    · exact durable_join h

theorem durable_acceptUpdate {participant : Participant} {updateId : ℕ} {update : D}
    (h : Durable r) (hactive : r.runtime.persisted.active = true) :
    Durable (r.acceptUpdate cfg busy now participant userId updateId update).room := by
  have hseeded := h.seeded hactive
  unfold Room.acceptUpdate
  dsimp only
  let logged : StoredYjsUpdate D :=
    { roomEpoch := r.runtime.persisted.epoch, seq := r.runtime.persisted.nextSeq,
      deviceId := participant.deviceId, update, createdAt := now }
  have hmerge := logged_merge logged
    { r.runtime.persisted with
      nextSeq := r.runtime.persisted.nextSeq + 1
      leaseOwner := r.runtime.persisted.leaseOwner.or (some participant.deviceId)
      leaseUntil := some (now + cfg.options.leaseMs) }
    h.toLogged rfl rfl rfl rfl rfl h.seeded
  split
  · obtain ⟨hlogged, hloaded⟩ := logged_captureSnapshot hmerge
      (Nat.lt_succ_self r.runtime.persisted.nextSeq)
    exact durable_saveRuntime hlogged hloaded
  · refine durable_saveRuntime hmerge ?_
    have happend : loadDoc (r.roomStore.appendUpdate logged) r.runtime.persisted
        = loadDoc r.roomStore r.runtime.persisted ⊔ logged.update :=
      loadDoc_appendUpdate hseeded rfl h.compacted
    rw [h.loaded] at happend
    exact happend

theorem durable_handleUpdate {roomEpoch updateId : ℕ} {update : D} (h : Durable r) :
    Durable (r.handleUpdate cfg busy now deviceId userId roomEpoch updateId update).room := by
  rcases r.handleUpdate_cases with hroom | ⟨participant, -, hactive, -, hroom | hallowed⟩
  · rw [hroom]
    exact h
  · rw [hroom]
    exact durable_withParticipant h
  · rw [Room.handleUpdate_of_allowed hallowed]
    exact durable_acceptUpdate (durable_withParticipant h) hactive

theorem durable_heartbeat {roomEpoch : ℕ} (h : Durable r) :
    Durable (r.heartbeat cfg now deviceId roomEpoch).room := by
  rcases r.heartbeat_cases with hroom | ⟨-, hroom⟩
  · rw [hroom]
    exact h
  · rw [hroom]
    exact durable_saveRuntime ⟨h.epochs, h.merged, h.compacted, h.seeded⟩ h.loaded

theorem durable_removeParticipant {participant : Participant} (h : Durable r) :
    Durable (r.removeParticipant participant) := by
  unfold Room.removeParticipant Room.scheduleClosingIfEmpty
  split <;> exact ⟨⟨h.epochs, h.merged, h.compacted, h.seeded⟩, h.stored, h.loaded⟩

theorem durable_leave {roomEpoch : ℕ} (h : Durable r) :
    Durable (r.leave deviceId roomEpoch).room := by
  rcases r.leave_cases with hroom | ⟨participant, -, hroom⟩ <;> rw [hroom]
  · exact h
  · exact durable_removeParticipant h

theorem durable_disconnect (h : Durable r) : Durable (r.disconnect deviceId) := by
  rcases r.disconnect_cases with ⟨-, hroom⟩ | ⟨participant, -, hroom⟩ <;> rw [hroom]
  · exact h
  · exact durable_removeParticipant h

/-- The room is durable after it was closed, whatever the data store holds. -/
theorem durable_closed {persisted : PersistedYjsRoom D} {data : Store}
    (h : Durable ((r.withPersisted persisted).saveRuntime cfg)) :
    Durable { (r.withPersisted persisted).saveRuntime cfg with
      runtime := ((r.withPersisted persisted).saveRuntime cfg).closed persisted, data } :=
  ⟨⟨h.epochs, h.merged, h.compacted, h.seeded⟩, h.stored, h.loaded⟩

theorem durable_finishDemote {reason : RoomClosedReason} {hash : String} {data : Store}
    (h : Durable r) : Durable (Room.finishDemote cfg busy { r with data } now reason hash).1 := by
  have hseq : r.runtime.persisted.nextSeq - 1 < r.runtime.persisted.nextSeq :=
    Nat.sub_lt (Nat.zero_lt_of_lt h.compacted) Nat.zero_lt_one
  have hdata : Logged { r with data } := ⟨h.epochs, h.merged, h.compacted, h.seeded⟩
  obtain ⟨hlogged, hloaded⟩ := logged_captureSnapshot
    hdata hseq
  unfold Room.finishDemote
  exact durable_closed (durable_saveRuntime
    ⟨hlogged.epochs, hlogged.merged, hlogged.compacted,
      fun hactive => absurd hactive Bool.false_ne_true⟩ hloaded)

theorem durable_demoteLocked {uuid : Uuid} {reason : RoomClosedReason} (h : Durable r) :
    Durable (r.demoteLocked cfg busy now uuid reason).room := by
  rcases r.demoteLocked_cases with
    ⟨-, hroom⟩ | ⟨-, ⟨data, -, -, hroom⟩ | ⟨answer, data, -, hroom⟩⟩ <;> rw [hroom]
  · exact h
  · exact ⟨⟨h.epochs, h.merged, h.compacted, h.seeded⟩, h.stored, h.loaded⟩
  · exact durable_finishDemote h

theorem durable_flush {uuid : Uuid} {s : Room D} (h : Durable r)
    (hflush : Room.FlushOf cfg busy now uuid r s) : Durable s := by
  rcases hflush with rfl | ⟨reason, rfl | ⟨-, -, rfl⟩⟩
  · exact h
  · exact durable_demoteLocked h
  · have h : Durable (r.demoteLocked cfg busy now uuid reason).room := durable_demoteLocked h
    exact ⟨⟨h.epochs, h.merged, h.compacted, h.seeded⟩, h.stored, h.loaded⟩

theorem durable_closeDeleted (h : Durable r) : Durable (r.closeDeleted cfg busy).room := by
  unfold Room.closeDeleted Room.closeWithoutFlush
  split
  · exact durable_closed (durable_saveRuntime ⟨h.epochs, h.merged, h.compacted,
      fun hactive => absurd hactive Bool.false_ne_true⟩ h.loaded)
  · exact h

theorem durable_compact {throughSeq : Option ℕ} (h : Durable r)
    (hseq : ∀ seq ∈ throughSeq, seq < r.runtime.persisted.nextSeq) :
    Durable (r.compact cfg now throughSeq).room := by
  have hseq' : throughSeq.getD (r.runtime.persisted.nextSeq - 1) < r.runtime.persisted.nextSeq := by
    cases throughSeq with
    | none => exact Nat.sub_lt (Nat.zero_lt_of_lt h.compacted) Nat.zero_lt_one
    | some seq => exact hseq seq rfl
  have hmem : ∀ u ∈ (r.roomStore.deleteUpdatesThrough r.runtime.persisted.epoch
      (throughSeq.getD (r.runtime.persisted.nextSeq - 1))).updates, u ∈ r.roomStore.updates :=
    fun u hu => List.mem_of_mem_filter hu
  unfold Room.compact
  refine durable_saveRuntime ⟨?_, ?_, hseq', h.seeded⟩ (loadDoc_of_merged rfl ?_)
  · exact fun u hu => h.epochs u (hmem u hu)
  · exact fun u hu => h.merged u (hmem u hu)
  · exact fun u hu => h.merged u (hmem u hu)

theorem durable_replaceText {clientID : ℕ} {text : String} {data : Store} (h : Durable r) :
    Durable (Room.replaceText cfg busy { r with data } now clientID deviceId userId text).1 := by
  have hmerge := logged_merge (r := { r with data })
    { roomEpoch := r.runtime.persisted.epoch, seq := r.runtime.persisted.nextSeq, deviceId
      update := cfg.crdt.diff (⊥ ⊔ r.runtime.doc ⊔ cfg.crdt.change clientID textName text
        (⊥ ⊔ r.runtime.doc)) r.runtime.doc
      createdAt := now }
    { r.runtime.persisted with nextSeq := r.runtime.persisted.nextSeq + 1 }
    ⟨h.epochs, h.merged, h.compacted, h.seeded⟩ rfl rfl rfl rfl rfl h.seeded
  obtain ⟨hlogged, hloaded⟩ := logged_captureSnapshot hmerge
    (Nat.lt_succ_self r.runtime.persisted.nextSeq)
  exact durable_saveRuntime hlogged hloaded

theorem durable_restoreHistoryVersion {uuid : Uuid} {clientID versionId : ℕ} {requestId : String}
    (h : Durable r) :
    Durable (r.restoreHistoryVersion cfg busy now uuid clientID deviceId userId versionId
      requestId).room := by
  rcases r.restoreHistoryVersion_cases with
    hroom | ⟨file, version, -, -, ⟨data, -, -, hroom⟩ | ⟨answer, data, -, hroom⟩⟩ <;> rw [hroom]
  · exact h
  · exact ⟨⟨h.epochs, h.merged, h.compacted, h.seeded⟩, h.stored, h.loaded⟩
  · exact durable_replaceText h

/-! ### Runs -/

/-- A compaction stays within the updates that were merged. -/
def CompactsMerged (s : RoomServer D) : RoomEvent D → Prop
  | .compact _ throughSeq =>
    ∀ seq ∈ throughSeq, seq < s.materialize.runtime.persisted.nextSeq
  | _ => True

instance (s : RoomServer D) (e : RoomEvent D) : Decidable (CompactsMerged s e) :=
  match e with
  | .compact .. => by unfold CompactsMerged; infer_instance
  | .layer1 .. | .promote .. | .handleUpdate .. | .handleSync .. | .heartbeat .. | .leave ..
  | .disconnect .. | .demote .. | .closeDeleted .. | .closingTimer .. | .sweepExpired ..
  | .closeAll .. | .restoreHistoryVersion .. | .restart => isTrue trivial

/-- A call that only concerns a room in memory keeps what a call keeps. -/
theorem materialize_inMemory {s : RoomServer D} {call : Room D → Room D} {I : Room D → Prop}
    (h : I s.materialize) (hcall : I (call s.materialize)) : I (s.inMemory call).materialize := by
  unfold RoomServer.inMemory
  cases hruntime : s.runtime with
  | none => exact h
  | some runtime =>
    have hroom : s.materialize = { data := s.data, roomStore := s.roomStore, runtime } := by
      simp [RoomServer.materialize, hruntime]
    rw [hroom] at hcall
    exact hcall

/-- **Every call keeps the stored room up to date.** -/
theorem durable_roomStep {s : RoomServer D} {e : RoomEvent D} (h : Durable s.materialize)
    (hc : CompactsMerged s e) : Durable (roomStep cfg s e).materialize := by
  cases e with
  | layer1 event => exact ⟨⟨h.epochs, h.merged, h.compacted, h.seeded⟩, h.stored, h.loaded⟩
  | promote => exact durable_promote h
  | handleUpdate => exact durable_handleUpdate h
  | handleSync deviceId roomEpoch stateVector =>
    have hroom := s.materialize.handleSync_room cfg deviceId roomEpoch stateVector
    simpa only [roomStep, materialize_server, hroom] using h
  | heartbeat => exact durable_heartbeat h
  | leave => exact durable_leave h
  | disconnect => exact materialize_inMemory h (durable_disconnect h)
  | demote => exact durable_flush h (Room.flushOf_demote _)
  | closeDeleted => exact durable_closeDeleted h
  | closingTimer => exact materialize_inMemory h (durable_flush h Room.flushOf_closingTimer)
  | sweepExpired => exact materialize_inMemory h (durable_flush h Room.flushOf_sweepExpired)
  | closeAll => exact materialize_inMemory h (durable_flush h Room.flushOf_closeAll)
  | compact => exact durable_compact h hc
  | restoreHistoryVersion => exact durable_restoreHistoryVersion h
  | restart => exact durable_restart h

theorem durable_initial (data : Store) : Durable ({ data } : RoomServer D).materialize :=
  ⟨⟨by simp [RoomServer.materialize], by simp [RoomServer.materialize], Nat.zero_lt_one,
    fun hactive => absurd hactive Bool.false_ne_true⟩, rfl, rfl⟩

/-- **Nothing of a room is only in memory**: in every run whose compactions stay within
what was merged, a restart gives back the room, with its document and all that is
persisted about it. -/
theorem durable_throughout (cfg : RoomConfig D) (data : Store) (es : List (RoomEvent D))
    (h : Run.EachStep (roomStep cfg) CompactsMerged { data } es) :
    Run.Throughout (roomStep cfg) (fun s => Durable s.materialize) { data } es :=
  Run.throughout_of_invariant (fun _ _ => durable_roomStep) (durable_initial data) h

end

end ObsidianSync
