import ObsidianSync.Client.Reseed
import ObsidianSync.Room.HandOff

/-!
# Recovery from a gap

A relay that does not follow the last one a session has is not merged: the session asks for
what its document lacks instead.  The answer of the room comes under the last sequence the
room has assigned, and the handler of relays takes it as a relay.

## Main definitions

* `YjsSessionManager.receive` — the messages of a room, each to its handler.
* `syncRound` — a request of the session, the answer of the room, and what the client makes
  of it.
* `GapCloses` — after a round the session has what the room has, and it stops asking.
* `Recoverable` — the sequences between which a round does that.

## Main results

* `gapCloses_iff_recoverable` — **a round closes the gap exactly where the answer is the next
  relay or the first one, or where there is nothing to close.**
* `requests_of_gap` — where more than one relay is missing, every answer is asked for again.
-/

namespace ObsidianSync

section

variable {D : Type} [SemilatticeSup D] [OrderBot D] (cfg : YjsConfig D) (room : RoomConfig D)

/-- A message of the room goes to its handler.  The id is drawn for a new document. -/
def YjsSessionManager.receive (clientID : ℕ) (m : YjsSessionManager D) :
    RoomMessage D → YjsSessionManager D
  | .roomState roomEpoch yjsSnapshot => m.handleRoomState cfg clientID roomEpoch yjsSnapshot
  | .yjsUpdate roomEpoch seq update _ => m.handleYjsUpdate cfg roomEpoch seq update
  | .yjsAck roomEpoch updateId seq => m.handleAck cfg roomEpoch updateId seq
  | .roomClosed roomEpoch reason _ => m.handleRoomClosed cfg roomEpoch reason
  | .historyRestored .. | .error _ => m

/-- What the room answers to the request of a session. -/
def syncAnswer (r : Room D) (deviceId : String) (session : YjsSession D) : List (RoomMessage D) :=
  (r.handleSync room deviceId session.roomEpoch session.doc).sent.map Prod.snd

/-- The room answers the request of the session, and the client takes the answer. -/
def syncRound (clientID : ℕ) (r : Room D) (deviceId : String) (m : YjsSessionManager D) :
    YjsSessionManager D :=
  m.session.elim m fun session =>
    (syncAnswer room r deviceId session).foldl (YjsSessionManager.receive cfg clientID) m

omit [SemilatticeSup D] [OrderBot D] in
/-- A request for what the document lacks. -/
def YjsMessage.isSync : YjsMessage D → Bool
  | .yjsSync .. => true
  | _ => false

omit [SemilatticeSup D] [OrderBot D] in
/-- The requests that were sent. -/
def requests (m : YjsSessionManager D) : ℕ := m.outgoing.countP YjsMessage.isSync

omit [SemilatticeSup D] [OrderBot D] in
/-- The last sequence the room has assigned. -/
def lastAssigned (r : Room D) : ℕ := r.runtime.persisted.nextSeq - 1

/-- After a round the session has all that the room has, and its last sequence; and of the
rounds that follow, each for a request of the one before, one sends none. -/
structure GapCloses (clientID : ℕ) (r : Room D) (deviceId : String) (m : YjsSessionManager D) :
    Prop where
  caughtUp : ∃ session ∈ (syncRound cfg room clientID r deviceId m).session,
    r.runtime.doc ≤ session.doc ∧ session.lastSeq = lastAssigned r
  finite : ∃ k, requests ((syncRound cfg room clientID r deviceId)^[k + 1] m)
    = requests ((syncRound cfg room clientID r deviceId)^[k] m)

/-- The room takes the request of the session up: it is active in the session's incarnation,
and the device is a participant. -/
structure Answered (r : Room D) (deviceId : String) (session : YjsSession D) : Prop where
  small : room.vectorBytes session.doc ≤ maxSyncBytes
  current : r.rejectIfStale session.roomEpoch deviceId = none
  participant : (r.runtime.participants.get? deviceId).isSome = true

/-- The answer is the first relay the session gets or the next one, or the session has what
the room has and its last sequence. -/
def Recoverable (r : Room D) (session : YjsSession D) : Prop :=
  session.lastSeq = 0 ∧ 0 < lastAssigned r ∨ lastAssigned r = session.lastSeq + 1 ∨
    lastAssigned r = session.lastSeq ∧ r.runtime.doc ≤ session.doc

variable {cfg room} {clientID : ℕ} {r : Room D} {deviceId : String} {m : YjsSessionManager D}
  {session : YjsSession D}

theorem Answered.epoch (h : Answered room r deviceId session) :
    r.runtime.persisted.epoch = session.roomEpoch :=
  (Room.rejectIfStale_eq_none_iff.mp h.current).2.1

/-- The answer of the room is one relay, of what the session lacks. -/
theorem syncAnswer_of_answered (h : Answered room r deviceId session) :
    syncAnswer room r deviceId session
      = [.yjsUpdate session.roomEpoch (lastAssigned r) (room.crdt.diff r.runtime.doc session.doc)
          none] := by
  obtain ⟨participant, hparticipant⟩ := Option.isSome_iff_exists.mp h.participant
  have hrequired := Room.requireParticipant_eq_ok_iff.mpr hparticipant
  unfold syncAnswer Room.handleSync
  rw [if_neg (Nat.not_lt.mpr h.small), h.current]
  dsimp only
  rw [hrequired, ← h.epoch]
  rfl

theorem syncRound_of_answered (hm : m.session = some session)
    (h : Answered room r deviceId session) :
    syncRound cfg room clientID r deviceId m
      = m.handleYjsUpdate cfg session.roomEpoch (lastAssigned r)
          (room.crdt.diff r.runtime.doc session.doc) := by
  rw [syncRound, hm, Option.elim_some, syncAnswer_of_answered h]
  rfl

/-- The session after a round. -/
theorem session_syncRound (hm : m.session = some session) (h : Answered room r deviceId session) :
    (syncRound cfg room clientID r deviceId m).session
      = some (if session.merges session.roomEpoch (lastAssigned r) then
          session.applyRelay cfg (lastAssigned r) (room.crdt.diff r.runtime.doc session.doc)
        else session) := by
  rw [syncRound_of_answered hm h, session_handleYjsUpdate, hm]
  rfl

omit [SemilatticeSup D] [OrderBot D] in
theorem merges_iff {seq : ℕ} :
    session.merges session.roomEpoch seq = true ↔
      session.lastSeq = 0 ∧ 0 < seq ∨ seq = session.lastSeq + 1 := by
  simp only [YjsSession.merges, decide_true, Bool.true_and, Bool.and_eq_true, Bool.or_eq_true,
    decide_eq_true_eq]
  omega

/-- A round in which the session merges the answer or drops it sends nothing. -/
theorem requests_syncRound (hm : m.session = some session) (h : Answered room r deviceId session)
    (hrecoverable : Recoverable r session) :
    requests (syncRound cfg room clientID r deviceId m) = requests m := by
  rw [syncRound_of_answered hm h]
  unfold YjsSessionManager.handleYjsUpdate
  rw [hm]
  dsimp only
  rw [if_neg (by simp)]
  split
  · rfl
  · next hnew =>
    have hnext : ¬ (session.lastSeq > 0 ∧ lastAssigned r > session.lastSeq + 1) := by
      rcases hrecoverable with h | h | h <;> omega
    rw [if_neg hnext]
    rfl

/-- **A round closes the gap exactly where the session can recover.** -/
theorem gapCloses_iff_recoverable (cfg : YjsConfig D) (room : RoomConfig D) (clientID : ℕ)
    (hm : m.session = some session) (h : Answered room r deviceId session) :
    GapCloses cfg room clientID r deviceId m ↔ Recoverable r session := by
  constructor
  · rintro ⟨⟨after, hafter, hdoc, hseq⟩, -⟩
    rw [session_syncRound hm h] at hafter
    obtain rfl := Option.mem_some_iff.mp hafter
    by_cases hmerges : session.merges session.roomEpoch (lastAssigned r) = true
    · exact (merges_iff.mp hmerges).imp_right Or.inl
    · rw [if_neg hmerges] at hdoc hseq
      exact Or.inr (Or.inr ⟨hseq.symm, hdoc⟩)
  · intro hrecoverable
    refine ⟨?_, 0, requests_syncRound hm h hrecoverable⟩
    rw [session_syncRound hm h]
    refine ⟨_, rfl, ?_⟩
    by_cases hmerges : session.merges session.roomEpoch (lastAssigned r) = true
    · rw [if_pos hmerges]
      exact ⟨room.crdt.le_sup_diff r.runtime.doc session.doc, rfl⟩
    · rw [if_neg hmerges]
      rcases hrecoverable with hfirst | hnext | ⟨hseq, hdoc⟩
      · exact absurd (merges_iff.mpr (Or.inl hfirst)) hmerges
      · exact absurd (merges_iff.mpr (Or.inr hnext)) hmerges
      · exact ⟨hdoc, hseq.symm⟩

/-! ### The gap the requests are for -/

/-- Where more than one relay is missing, the answer is a gap of its own. -/
theorem syncRound_of_gap (hm : m.session = some session) (h : Answered room r deviceId session)
    (hsome : 0 < session.lastSeq) (hgap : session.lastSeq + 1 < lastAssigned r) :
    syncRound cfg room clientID r deviceId m = m.send session.syncMessage := by
  rw [syncRound_of_answered hm h]
  unfold YjsSessionManager.handleYjsUpdate
  rw [hm]
  dsimp only
  rw [if_neg (by simp), if_neg (by omega), if_pos ⟨hsome, hgap⟩]

/-- **Every answer is asked for again.** -/
theorem requests_of_gap (hm : m.session = some session) (h : Answered room r deviceId session)
    (hsome : 0 < session.lastSeq) (hgap : session.lastSeq + 1 < lastAssigned r) (k : ℕ) :
    requests ((syncRound cfg room clientID r deviceId)^[k] m) = requests m + k := by
  induction k generalizing m with
  | zero => rfl
  | succ k ih =>
    have hsent : requests (m.send session.syncMessage) = requests m + 1 := by
      simp [requests, YjsSessionManager.send, YjsSession.syncMessage, YjsMessage.isSync]
    rw [Function.iterate_succ_apply, syncRound_of_gap hm h hsome hgap,
      ih (m := m.send session.syncMessage) hm, hsent]
    omega

end

/-! ### A room with three updates -/

/-- A note is opened by two devices, and the first one edits it three times. -/
def sampleEditedRoom : List (RoomEvent (Finset Write)) :=
  [sampleCreate, .promote 2 7 "d2" "u" 0, .promote 3 8 "d1" "u" 1,
   .handleUpdate 4 "d1" "u" 1 1 (writes.change 1 textName "two" ⊥),
   .handleUpdate 5 "d1" "u" 1 2 (writes.change 1 textName "three" ⊥),
   .handleUpdate 6 "d1" "u" 1 3 (writes.change 1 textName "four" ⊥)]

/-- The room after the three updates. -/
def sampleEdited : Room (Finset Write) :=
  (Run.final (roomStep sampleRoom) { data := sampleStore } sampleEditedRoom).materialize

/-- A session of the second device, with the document and the last sequence it has. -/
def sampleGapSession (doc : Finset Write) (lastSeq : ℕ) : YjsSession (Finset Write) :=
  { roomEpoch := 1, doc, lastSeq, ackedText := "" }

theorem answered_sampleEdited (doc : Finset Write) (lastSeq : ℕ) :
    Answered sampleRoom sampleEdited "d2" (sampleGapSession doc lastSeq) where
  small := Nat.zero_le _
  current := by
    have hepoch : sampleEdited.runtime.persisted.epoch = 1 := by decide +kernel
    exact Room.rejectIfStale_eq_none_iff.mpr ⟨by decide +kernel, hepoch, by decide +kernel⟩
  participant := by decide +kernel

/-- The session that only lacks the last relay. -/
theorem gapCloses_lastRelay :
    GapCloses { crdt := writes } sampleRoom 0 sampleEdited "d2"
        { session := some (sampleGapSession ⊥ 2) } ↔
      Recoverable sampleEdited (sampleGapSession ⊥ 2) :=
  gapCloses_iff_recoverable { crdt := writes } sampleRoom 0 rfl (answered_sampleEdited ⊥ 2)

/-- The session that lacks two relays gets nothing and asks forever, and the one that lacks a
relay before the last sequence drops what it lacks. -/
theorem not_gapCloses_twoRelays :
    ¬ GapCloses { crdt := writes } sampleRoom 0 sampleEdited "d2"
        { session := some (sampleGapSession (writes.change 1 textName "two" ⊥) 1) } ∧
      (∀ k, requests ((syncRound { crdt := writes } sampleRoom 0 sampleEdited "d2")^[k]
        { session := some (sampleGapSession (writes.change 1 textName "two" ⊥) 1) }) = k) ∧
      ¬ GapCloses { crdt := writes } sampleRoom 0 sampleEdited "d2"
        { session := some (sampleGapSession (writes.change 1 textName "two" ⊥) 3) } := by
  refine ⟨?_, ?_, ?_⟩
  · rintro ⟨⟨after, hafter, -, hseq⟩, -⟩
    rw [session_syncRound rfl (answered_sampleEdited _ 1)] at hafter
    obtain rfl := Option.mem_some_iff.mp hafter
    exact absurd hseq (by decide +kernel)
  · intro k
    have hgap : 1 + 1 < lastAssigned sampleEdited := by decide +kernel
    rw [requests_of_gap rfl (answered_sampleEdited _ 1) Nat.one_pos hgap]
    exact Nat.zero_add k
  · rintro ⟨⟨after, hafter, hdoc, -⟩, -⟩
    rw [session_syncRound rfl (answered_sampleEdited _ 3)] at hafter
    obtain rfl := Option.mem_some_iff.mp hafter
    exact absurd hdoc (by decide +kernel)

end ObsidianSync
