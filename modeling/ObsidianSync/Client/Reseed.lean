import ObsidianSync.Client.YjsSession
import ObsidianSync.Lib.Run

/-!
# What survives a new incarnation of the room

The edits of a session wait for their acknowledgements.  When the room has another
incarnation, or says that the session's one is stale, a new session is made from the state of
the room, and the edits that still wait are to be merged into its text.

The session keeps `ackedText` for that, the text without the waiting edits.  To say what it
should be, a session is tracked here: `confirmed` is what it holds without the updates that
wait, and `owed` what a session left that was destroyed to open the file again.

## Main definitions

* `SessionEvent`, `sessionStep` — edits, acknowledgements, relays, and what replaces a session.
* `Tracked`, `trackedStep` — the same with what is confirmed and what is owed.
* `Tracked.due` — what the next session is to be given.
* `Survives` — a step leaves `ackedText` right, and gives a new session what is due.
* `Settled` — acknowledgements, relays and stale epochs come when nothing else waits.

## Main results

* `complete_trackedStep` — a session holds what is confirmed and what waits, after any step.
* `survives_run` — **in every run of settled steps the unacknowledged edits survive.**
* `not_survives_secondEdit` — they do not where the first of two edits is acknowledged.
-/

namespace ObsidianSync

/-- What happens to the session of a file. -/
inductive SessionEvent (D : Type)
  | edit (update : D)
  | ack (roomEpoch updateId seq : ℕ)
  | relay (roomEpoch seq : ℕ) (update : D)
  | roomState (clientID roomEpoch : ℕ) (yjsSnapshot : D)
  | roomClosed (roomEpoch : ℕ) (reason : RoomClosedReason)
  | roomEpochStale

/-- A manager with what its session holds without the updates that wait, and with the texts,
without and with the waiting edits, of a session that was destroyed to open the file again. -/
structure Tracked (D : Type) where
  manager : YjsSessionManager D := {}
  confirmed : D
  owed : Option (String × String) := none

section

variable {D : Type} [SemilatticeSup D] [OrderBot D] (cfg : YjsConfig D)

/-- The session after an event. -/
def sessionStep (m : YjsSessionManager D) : SessionEvent D → YjsSessionManager D
  | .edit update => m.edit update
  | .ack roomEpoch updateId seq => m.handleAck cfg roomEpoch updateId seq
  | .relay roomEpoch seq update => m.handleYjsUpdate cfg roomEpoch seq update
  | .roomState clientID roomEpoch yjsSnapshot =>
    m.handleRoomState cfg clientID roomEpoch yjsSnapshot
  | .roomClosed roomEpoch reason => m.handleRoomClosed cfg roomEpoch reason
  | .roomEpochStale => m.handleRoomEpochStale cfg

/-! ### Sessions -/

namespace YjsSession

variable (session : YjsSession D)

/-- What waits for an acknowledgement. -/
def waiting : D := (session.outstanding.map Prod.snd).foldr (· ⊔ ·) ⊥

/-- What waits under an id. -/
def waitingFor (updateId : ℕ) : D :=
  ((session.outstanding.filter fun waiter => waiter.1 = updateId).map Prod.snd).foldr (· ⊔ ·) ⊥

/-- Whether a relay is merged: it is the next one, or none came before. -/
def merges (roomEpoch seq : ℕ) : Bool :=
  roomEpoch = session.roomEpoch && session.lastSeq < seq &&
    (session.lastSeq = 0 || seq = session.lastSeq + 1)

end YjsSession

/-! ### Tracking -/

namespace Tracked

variable (t : Tracked D)

/-- The text without the edits that wait, and the text with them, if an edit waits: of the
session, or of the one that was destroyed to open the file again. -/
def due : Option (String × String) :=
  match t.manager.session with
  | none => t.owed
  | some session =>
    if session.outstanding.isEmpty then none
    else some (cfg.text t.confirmed, cfg.text session.doc)

/-- What is confirmed after an acknowledgement. -/
def confirmedByAck (roomEpoch updateId : ℕ) : D :=
  match t.manager.session with
  | none => t.confirmed
  | some session =>
    if roomEpoch = session.roomEpoch then t.confirmed ⊔ session.waitingFor updateId
    else t.confirmed

/-- What is confirmed after a relay. -/
def confirmedByRelay (roomEpoch seq : ℕ) (update : D) : D :=
  if t.manager.session.any fun session => session.merges roomEpoch seq then t.confirmed ⊔ update
  else t.confirmed

/-- Whether a state of the room makes a new session. -/
def reseeds (roomEpoch : ℕ) : Bool :=
  !(t.manager.session.any fun session => session.roomEpoch = roomEpoch)

/-- Whether the session is one on this incarnation. -/
def isAt (roomEpoch : ℕ) : Bool :=
  t.manager.session.any fun session => roomEpoch = session.roomEpoch

end Tracked

/-- The session after an event, and what it has been told. -/
def trackedStep (t : Tracked D) (e : SessionEvent D) : Tracked D :=
  let manager := sessionStep cfg t.manager e
  match e with
  | .edit _ => { t with manager }
  | .ack roomEpoch updateId _ =>
    { t with manager, confirmed := t.confirmedByAck roomEpoch updateId }
  | .relay roomEpoch seq update =>
    { t with manager, confirmed := t.confirmedByRelay roomEpoch seq update }
  | .roomState _ roomEpoch yjsSnapshot =>
    if t.reseeds roomEpoch then { manager, confirmed := yjsSnapshot } else { t with manager }
  | .roomClosed roomEpoch reason =>
    if t.isAt roomEpoch then
      { t with manager, owed := if reason = .epochStale then t.due cfg else none }
    else { t with manager }
  | .roomEpochStale => { t with manager, owed := t.due cfg }

/-! ### The property -/

/-- The session keeps the text without the updates that wait. -/
def AckedTextRight (t : Tracked D) : Prop :=
  ∀ session ∈ t.manager.session, session.ackedText = cfg.text t.confirmed

/-- A session on the given state has the merged text, as an edit that waits unless the state
had it. -/
structure Carries (due : String × String) (yjsSnapshot : D) (session : YjsSession D) : Prop where
  text : cfg.text session.doc
    = (threeWayMerge due.1 due.2 (cfg.text yjsSnapshot)).text
  waits : cfg.text session.doc = cfg.text yjsSnapshot ∨ session.outstanding ≠ []

/-- A state of the room that makes a session makes one that carries what is due. -/
def DueCarried (t : Tracked D) : SessionEvent D → Prop
  | .roomState clientID roomEpoch yjsSnapshot =>
    t.reseeds roomEpoch = true → ∀ due ∈ t.due cfg,
      ∃ session ∈ (t.manager.handleRoomState cfg clientID roomEpoch yjsSnapshot).session,
        session.roomEpoch = roomEpoch ∧ Carries cfg due yjsSnapshot session
  | _ => True

/-- **The unacknowledged edits survive a step.** -/
structure Survives (t : Tracked D) (e : SessionEvent D) : Prop where
  ackedText : AckedTextRight cfg (trackedStep cfg t e)
  carried : DueCarried cfg t e

/-! ### The condition -/

/-- No other edit waits when one is acknowledged, and none waits when a relay is merged or
when the file is opened again because the epoch is stale. -/
def Settled (t : Tracked D) : SessionEvent D → Prop
  | .ack roomEpoch updateId _ =>
    ∀ session ∈ t.manager.session, roomEpoch = session.roomEpoch →
      updateId ∈ session.outstanding.map Prod.fst → session.outstanding.length = 1
  | .relay roomEpoch seq _ =>
    ∀ session ∈ t.manager.session, session.merges roomEpoch seq = true → session.outstanding = []
  | .roomClosed roomEpoch reason =>
    ∀ session ∈ t.manager.session, roomEpoch = session.roomEpoch → reason = .epochStale →
      session.outstanding = []
  | .roomEpochStale => ∀ session ∈ t.manager.session, session.outstanding = []
  | .edit _ | .roomState .. => True

variable {cfg}

/-! ### What waits -/

section

variable (session : YjsSession D)

@[simp] theorem waiting_localUpdate (update : D) :
    (session.localUpdate update).waiting = session.waiting ⊔ update := by
  have hfold : ∀ (ups : List D) (d : D),
      (ups ++ [d]).foldr (· ⊔ ·) ⊥ = ups.foldr (· ⊔ ·) ⊥ ⊔ d := by
    intro ups d
    induction ups with
    | nil => simp
    | cons u ups ih => rw [List.cons_append, List.foldr_cons, List.foldr_cons, ih, sup_assoc]
  simp [YjsSession.waiting, YjsSession.localUpdate, hfold]

/-- What waits is what waits under an id with the rest. -/
theorem waiting_eq_sup (updateId : ℕ) :
    session.waiting = session.waitingFor updateId ⊔
      ((session.outstanding.filter fun waiter => waiter.1 ≠ updateId).map Prod.snd).foldr
        (· ⊔ ·) ⊥ := by
  unfold YjsSession.waiting YjsSession.waitingFor
  induction session.outstanding with
  | nil => simp
  | cons waiter waiters ih =>
    by_cases h : waiter.1 = updateId
    · simp only [List.map_cons, List.foldr_cons, ih, List.filter_cons, h, decide_true, if_true,
        ne_eq, not_true_eq_false, decide_false, Bool.false_eq_true, if_false, sup_assoc]
    · simp only [List.map_cons, List.foldr_cons, ih, List.filter_cons, h, decide_false,
        Bool.false_eq_true, if_false, ne_eq, not_false_eq_true, decide_true, if_true]
      rw [sup_left_comm]

theorem waitingFor_of_notMem {updateId : ℕ}
    (h : ∀ waiter ∈ session.outstanding, waiter.1 ≠ updateId) :
    session.waitingFor updateId = ⊥ := by
  have hnone : (session.outstanding.filter fun waiter => waiter.1 = updateId) = [] := by
    simpa [List.filter_eq_nil_iff] using h
  rw [YjsSession.waitingFor, hnone]
  rfl

/-- A session holds what is confirmed and what waits. -/
def HoldsAll (confirmed : D) (session : YjsSession D) : Prop :=
  session.doc = confirmed ⊔ session.waiting

variable {session} {confirmed : D}

theorem holdsAll_localUpdate (h : HoldsAll confirmed session) (update : D) :
    HoldsAll confirmed (session.localUpdate update) := by
  rw [HoldsAll, waiting_localUpdate, ← sup_assoc, ← h]
  rfl

theorem holdsAll_applyRelay (h : HoldsAll confirmed session) (seq : ℕ) (update : D) :
    HoldsAll (confirmed ⊔ update) (session.applyRelay cfg seq update) := by
  have hdoc : session.doc = confirmed ⊔ session.waiting := h
  change session.doc ⊔ update = confirmed ⊔ update ⊔ session.waiting
  rw [hdoc, sup_right_comm]

theorem holdsAll_applyAck (h : HoldsAll confirmed session) (updateId seq : ℕ) :
    HoldsAll (confirmed ⊔ session.waitingFor updateId) (session.applyAck cfg updateId seq) := by
  have hdoc : session.doc = confirmed ⊔ session.waiting := h
  unfold YjsSession.applyAck
  dsimp only
  split
  · change session.doc = _
    rw [hdoc, waiting_eq_sup session updateId, sup_assoc]
    rfl
  · next hnone =>
    have hwaiting : session.waitingFor updateId = ⊥ := by
      refine waitingFor_of_notMem session fun waiter hmem hid => hnone ?_
      exact List.any_eq_true.mpr ⟨waiter, hmem, by simpa using hid⟩
    rw [hwaiting, sup_bot_eq]
    exact hdoc

theorem holdsAll_newSession (roomEpoch : ℕ) (yjsSnapshot : D) :
    HoldsAll yjsSnapshot (newSession cfg roomEpoch yjsSnapshot) := by
  simp [HoldsAll, newSession, YjsSession.waiting]

end

/-! ### New sessions -/

/-- The session a state of the room makes, with what is carried forward. -/
def reseeded (cfg : YjsConfig D) (clientID roomEpoch : ℕ) (yjsSnapshot : D)
    (carried : Option (String × String)) : YjsSession D :=
  let session := newSession cfg roomEpoch yjsSnapshot
  match carriedUpdate cfg clientID carried session with
  | none => session
  | some update => session.localUpdate update

theorem session_handleRoomState {t : Tracked D} {roomEpoch : ℕ} (h : t.reseeds roomEpoch = true)
    (clientID : ℕ) (yjsSnapshot : D) :
    (t.manager.handleRoomState cfg clientID roomEpoch yjsSnapshot).session
      = some (reseeded cfg clientID roomEpoch yjsSnapshot
          (t.manager.session.bind (YjsSession.carryForwardText cfg))) := by
  have hother : (t.manager.session.any fun existing => existing.roomEpoch = roomEpoch) = false := by
    simpa [Tracked.reseeds] using h
  rw [YjsSessionManager.handleRoomState, hother, if_neg (by simp)]
  unfold reseeded
  dsimp only
  cases carriedUpdate cfg clientID (t.manager.session.bind (YjsSession.carryForwardText cfg))
    (newSession cfg roomEpoch yjsSnapshot) with
  | none => rfl
  | some update => rfl

theorem handleRoomState_of_not_reseeds {t : Tracked D} {roomEpoch : ℕ}
    (h : t.reseeds roomEpoch = false) (clientID : ℕ) (yjsSnapshot : D) :
    t.manager.handleRoomState cfg clientID roomEpoch yjsSnapshot = t.manager := by
  have hsame : (t.manager.session.any fun existing => existing.roomEpoch = roomEpoch) = true := by
    simpa [Tracked.reseeds] using h
  rw [YjsSessionManager.handleRoomState, hsame, if_pos rfl]

section

variable (clientID roomEpoch : ℕ) (yjsSnapshot : D) (carried : Option (String × String))

@[simp] theorem ackedText_reseeded :
    (reseeded cfg clientID roomEpoch yjsSnapshot carried).ackedText = cfg.text yjsSnapshot := by
  unfold reseeded
  dsimp only
  split <;> simp [newSession, YjsSession.localUpdate]

@[simp] theorem roomEpoch_reseeded :
    (reseeded cfg clientID roomEpoch yjsSnapshot carried).roomEpoch = roomEpoch := by
  unfold reseeded
  dsimp only
  split <;> rfl

theorem holdsAll_reseeded :
    HoldsAll yjsSnapshot (reseeded cfg clientID roomEpoch yjsSnapshot carried) := by
  unfold reseeded
  dsimp only
  split
  · exact holdsAll_newSession roomEpoch yjsSnapshot
  · exact holdsAll_localUpdate (holdsAll_newSession roomEpoch yjsSnapshot) _

theorem doc_reseeded :
    (reseeded cfg clientID roomEpoch yjsSnapshot carried).doc
      = yjsSnapshot ⊔ (carriedUpdate cfg clientID carried
          (newSession cfg roomEpoch yjsSnapshot)).getD ⊥ := by
  unfold reseeded
  dsimp only
  cases carriedUpdate cfg clientID carried (newSession cfg roomEpoch yjsSnapshot) with
  | none => simp [newSession]
  | some update => simp [newSession, YjsSession.localUpdate]

/-- The session on a new state carries what it is given. -/
theorem carries_reseeded (due : String × String) :
    Carries cfg due yjsSnapshot (reseeded cfg clientID roomEpoch yjsSnapshot (some due)) := by
  have hseed : (newSession cfg roomEpoch yjsSnapshot).doc = yjsSnapshot := by simp [newSession]
  refine ⟨?_, ?_⟩
  · have htext : cfg.text ((newSession cfg roomEpoch yjsSnapshot).doc ⊔ _) = _ :=
      text_carriedUpdate clientID due (newSession cfg roomEpoch yjsSnapshot)
    rw [hseed] at htext
    rw [doc_reseeded, htext]
  · cases h : carriedUpdate cfg clientID (some due) (newSession cfg roomEpoch yjsSnapshot) with
    | none =>
      left
      rw [doc_reseeded, h, Option.getD_none, sup_bot_eq]
    | some update =>
      right
      simp [reseeded, h, YjsSession.localUpdate]

end

/-! ### One step -/

section

variable (m : YjsSessionManager D) (roomEpoch : ℕ)

omit [OrderBot D] in
theorem session_edit (update : D) :
    (m.edit update).session = m.session.map fun session => session.localUpdate update := by
  unfold YjsSessionManager.edit
  cases h : m.session with
  | none => exact h
  | some session => rfl

theorem session_handleAck (updateId seq : ℕ) :
    (m.handleAck cfg roomEpoch updateId seq).session = m.session.map fun session =>
      if roomEpoch = session.roomEpoch then session.applyAck cfg updateId seq else session := by
  unfold YjsSessionManager.handleAck
  cases h : m.session with
  | none => exact h
  | some session =>
    by_cases hepoch : roomEpoch = session.roomEpoch
    · simp [hepoch]
    · simp [hepoch, h]

theorem session_handleYjsUpdate (seq : ℕ) (update : D) :
    (m.handleYjsUpdate cfg roomEpoch seq update).session = m.session.map fun session =>
      if session.merges roomEpoch seq then session.applyRelay cfg seq update else session := by
  unfold YjsSessionManager.handleYjsUpdate YjsSession.merges
  cases h : m.session with
  | none => exact h
  | some session =>
    dsimp only [Option.map_some]
    split
    · next hne => simp [h, hne]
    split
    · next hold => simp [h, Nat.not_lt.mpr hold]
    split
    · next hgap =>
      have hgap' : ¬ (session.lastSeq = 0 ∨ seq = session.lastSeq + 1) := by omega
      simp [YjsSessionManager.send, h, hgap']
    · next hepoch hnew hnext =>
      have hnext' : session.lastSeq = 0 ∨ seq = session.lastSeq + 1 := by omega
      simp [not_not.mp hepoch, Nat.lt_of_not_le hnew, hnext']

theorem session_resyncFile : (m.resyncFile cfg).session = none := by
  unfold YjsSessionManager.resyncFile YjsSessionManager.openFile
  split <;> rfl

theorem session_handleRoomClosed (reason : RoomClosedReason) :
    (m.handleRoomClosed cfg roomEpoch reason).session
      = m.session.filter fun session => roomEpoch ≠ session.roomEpoch := by
  unfold YjsSessionManager.handleRoomClosed
  cases h : m.session with
  | none => exact h
  | some session =>
    dsimp only
    split
    · next hne => rw [h, Option.filter_some_pos (by simpa using hne)]
    · next hepoch =>
      rw [Option.filter_some_neg (by simpa using hepoch)]
      split
      · exact session_resyncFile m
      · rfl

theorem session_handleRoomEpochStale : (m.handleRoomEpochStale cfg).session = none := by
  unfold YjsSessionManager.handleRoomEpochStale
  split
  · exact session_resyncFile m
  · next hnone => simpa using hnone

end

/-- The session of a tracked manager holds what is confirmed and what waits. -/
def Complete (t : Tracked D) : Prop :=
  ∀ session ∈ t.manager.session, HoldsAll t.confirmed session

/-- A session that is still there after a room was closed was not one of that incarnation. -/
theorem kept_of_roomClosed {t : Tracked D} {roomEpoch : ℕ} {reason : RoomClosedReason}
    {session : YjsSession D}
    (h : session ∈ (trackedStep cfg t (.roomClosed roomEpoch reason)).manager.session) :
    session ∈ t.manager.session ∧
      (trackedStep cfg t (.roomClosed roomEpoch reason)).confirmed = t.confirmed := by
  unfold trackedStep at h ⊢
  have hkept : session ∈ (t.manager.handleRoomClosed cfg roomEpoch reason).session := by
    dsimp only [sessionStep] at h
    split at h <;> exact h
  rw [session_handleRoomClosed] at hkept
  refine ⟨(Option.mem_filter_iff.mp hkept).1, ?_⟩
  dsimp only
  split <;> rfl

/-- A session holds what is confirmed and what waits, after any step. -/
theorem complete_trackedStep {t : Tracked D} (h : Complete t) (e : SessionEvent D) :
    Complete (trackedStep cfg t e) := by
  intro session hsession
  cases e with
  | edit update =>
    change session ∈ (t.manager.edit update).session at hsession
    rw [session_edit] at hsession
    obtain ⟨old, hold, rfl⟩ := Option.mem_map.mp hsession
    exact holdsAll_localUpdate (h old hold) update
  | ack roomEpoch updateId seq =>
    change session ∈ (t.manager.handleAck cfg roomEpoch updateId seq).session at hsession
    change HoldsAll (t.confirmedByAck roomEpoch updateId) session
    rw [session_handleAck] at hsession
    obtain ⟨old, hold, rfl⟩ := Option.mem_map.mp hsession
    rw [Tracked.confirmedByAck, Option.mem_def.mp hold]
    dsimp only
    split
    · exact holdsAll_applyAck (h old hold) updateId seq
    · exact h old hold
  | relay roomEpoch seq update =>
    change session ∈ (t.manager.handleYjsUpdate cfg roomEpoch seq update).session at hsession
    change HoldsAll (t.confirmedByRelay roomEpoch seq update) session
    rw [session_handleYjsUpdate] at hsession
    obtain ⟨old, hold, rfl⟩ := Option.mem_map.mp hsession
    rw [Tracked.confirmedByRelay, Option.mem_def.mp hold, Option.any_some]
    split
    · exact holdsAll_applyRelay (h old hold) seq update
    · exact h old hold
  | roomState clientID roomEpoch yjsSnapshot =>
    unfold trackedStep at hsession ⊢
    dsimp only [sessionStep] at hsession ⊢
    split at hsession
    · next hreseeds =>
      rw [if_pos hreseeds]
      dsimp only at hsession
      -- a new session of the incarnation, with what waited merged into it
      rw [session_handleRoomState hreseeds] at hsession
      cases hsession
      exact holdsAll_reseeded ..
    · next hreseeds =>
      rw [if_neg hreseeds]
      dsimp only at hsession
      rw [handleRoomState_of_not_reseeds (by simpa using hreseeds)] at hsession
      exact h session hsession
  | roomClosed roomEpoch reason =>
    obtain ⟨hmem, hconfirmed⟩ := kept_of_roomClosed hsession
    rw [hconfirmed]
    exact h session hmem
  | roomEpochStale =>
    change session ∈ (t.manager.handleRoomEpochStale cfg).session at hsession
    rw [session_handleRoomEpochStale] at hsession
    simp at hsession

/-! ### Settled steps -/

/-- What settled steps keep. -/
structure Right (cfg : YjsConfig D) (t : Tracked D) : Prop where
  complete : Complete t
  ackedText : AckedTextRight cfg t
  owed : t.owed = none

theorem due_of_outstanding_nil {t : Tracked D} (h : t.owed = none)
    (hnil : ∀ session ∈ t.manager.session, session.outstanding = []) : t.due cfg = none := by
  unfold Tracked.due
  cases hsession : t.manager.session with
  | none => exact h
  | some session =>
    have hout : session.outstanding = [] := hnil session hsession
    simp [hout]

/-- What is due is what the session carries forward. -/
theorem due_eq_carryForwardText {t : Tracked D} (h : Right cfg t) :
    t.due cfg = t.manager.session.bind (YjsSession.carryForwardText cfg) := by
  unfold Tracked.due
  cases hsession : t.manager.session with
  | none => exact h.owed
  | some session =>
    have hacked : session.ackedText = cfg.text t.confirmed := h.ackedText session hsession
    simp [YjsSession.carryForwardText, hacked]

/-- The acknowledgement of the only update that waits confirms all the session holds. -/
theorem confirmed_of_only {session : YjsSession D} {confirmed : D} {updateId : ℕ}
    (h : HoldsAll confirmed session) (hmem : updateId ∈ session.outstanding.map Prod.fst)
    (hone : session.outstanding.length = 1) :
    session.doc = confirmed ⊔ session.waitingFor updateId := by
  obtain ⟨⟨id, update⟩, honly⟩ := List.length_eq_one_iff.mp hone
  have hid : updateId = id := by simpa [honly] using hmem
  have hwaits : session.waitingFor updateId = session.waiting := by
    simp [YjsSession.waitingFor, YjsSession.waiting, honly, hid]
  rw [hwaits]
  exact h

theorem ackedText_applyAck {session : YjsSession D} {confirmed : D} {updateId : ℕ}
    (h : HoldsAll confirmed session) (hacked : session.ackedText = cfg.text confirmed)
    (hone : updateId ∈ session.outstanding.map Prod.fst → session.outstanding.length = 1)
    (seq : ℕ) :
    (session.applyAck cfg updateId seq).ackedText
      = cfg.text (confirmed ⊔ session.waitingFor updateId) := by
  unfold YjsSession.applyAck
  dsimp only
  split
  · next hfound =>
    obtain ⟨waiter, hmem, hid⟩ := List.any_eq_true.mp hfound
    have hwaits : updateId ∈ session.outstanding.map Prod.fst :=
      List.mem_map.mpr ⟨waiter, hmem, by simpa using hid⟩
    rw [← confirmed_of_only h hwaits (hone hwaits)]
  · next hnone =>
    have hwaiting : session.waitingFor updateId = ⊥ := by
      refine waitingFor_of_notMem session fun waiter hmem hid => hnone ?_
      exact List.any_eq_true.mpr ⟨waiter, hmem, by simpa using hid⟩
    rw [hwaiting, sup_bot_eq]
    exact hacked

/-- A settled step leaves `ackedText` right. -/
theorem ackedTextRight_trackedStep {t : Tracked D} (h : Right cfg t) {e : SessionEvent D}
    (hsettled : Settled t e) : AckedTextRight cfg (trackedStep cfg t e) := by
  intro session hsession
  cases e with
  | edit update =>
    change session ∈ (t.manager.edit update).session at hsession
    rw [session_edit] at hsession
    obtain ⟨old, hold, rfl⟩ := Option.mem_map.mp hsession
    exact h.ackedText old hold
  | ack roomEpoch updateId seq =>
    change session ∈ (t.manager.handleAck cfg roomEpoch updateId seq).session at hsession
    change session.ackedText = cfg.text (t.confirmedByAck roomEpoch updateId)
    rw [session_handleAck] at hsession
    obtain ⟨old, hold, rfl⟩ := Option.mem_map.mp hsession
    rw [Tracked.confirmedByAck, Option.mem_def.mp hold]
    dsimp only
    split
    · next hepoch =>
      exact ackedText_applyAck (h.complete old hold) (h.ackedText old hold)
        (hsettled old hold hepoch) seq
    · exact h.ackedText old hold
  | relay roomEpoch seq update =>
    change session ∈ (t.manager.handleYjsUpdate cfg roomEpoch seq update).session at hsession
    change session.ackedText = cfg.text (t.confirmedByRelay roomEpoch seq update)
    rw [session_handleYjsUpdate] at hsession
    obtain ⟨old, hold, rfl⟩ := Option.mem_map.mp hsession
    rw [Tracked.confirmedByRelay, Option.mem_def.mp hold, Option.any_some]
    split
    · next hmerges =>
      -- nothing waits for an ack, so the document is what is confirmed
      have hnil : old.outstanding = [] := hsettled old hold hmerges
      have hdoc : old.doc = t.confirmed ⊔ old.waiting := h.complete old hold
      have hwaiting : old.waiting = ⊥ := by simp [YjsSession.waiting, hnil]
      rw [hwaiting, sup_bot_eq] at hdoc
      rw [← hdoc]
      rfl
    · exact h.ackedText old hold
  | roomState clientID roomEpoch yjsSnapshot =>
    unfold trackedStep at hsession ⊢
    dsimp only [sessionStep] at hsession ⊢
    split at hsession
    · next hreseeds =>
      rw [if_pos hreseeds]
      dsimp only at hsession
      rw [session_handleRoomState hreseeds] at hsession
      cases hsession
      exact ackedText_reseeded ..
    · next hreseeds =>
      rw [if_neg hreseeds]
      dsimp only at hsession
      rw [handleRoomState_of_not_reseeds (by simpa using hreseeds)] at hsession
      exact h.ackedText session hsession
  | roomClosed roomEpoch reason =>
    obtain ⟨hmem, hconfirmed⟩ := kept_of_roomClosed hsession
    rw [hconfirmed]
    exact h.ackedText session hmem
  | roomEpochStale =>
    change session ∈ (t.manager.handleRoomEpochStale cfg).session at hsession
    rw [session_handleRoomEpochStale] at hsession
    simp at hsession

/-- After a settled step nothing is owed. -/
theorem owed_trackedStep {t : Tracked D} (h : Right cfg t) {e : SessionEvent D}
    (hsettled : Settled t e) : (trackedStep cfg t e).owed = none := by
  cases e with
  | edit update => exact h.owed
  | ack roomEpoch updateId seq => exact h.owed
  | relay roomEpoch seq update => exact h.owed
  | roomState clientID roomEpoch yjsSnapshot =>
    unfold trackedStep
    dsimp only
    split
    · rfl
    · exact h.owed
  | roomClosed roomEpoch reason =>
    unfold trackedStep
    dsimp only
    split
    · next hat =>
      dsimp only
      split
      · next hreason =>
        refine due_of_outstanding_nil h.owed fun session hsession => ?_
        rw [Tracked.isAt, Option.mem_def.mp hsession, Option.any_some] at hat
        exact hsettled session hsession (by simpa using hat) hreason
      · rfl
    · exact h.owed
  | roomEpochStale => exact due_of_outstanding_nil h.owed hsettled

theorem right_trackedStep {t : Tracked D} (h : Right cfg t) {e : SessionEvent D}
    (hsettled : Settled t e) : Right cfg (trackedStep cfg t e) where
  complete := complete_trackedStep h.complete e
  ackedText := ackedTextRight_trackedStep h hsettled
  owed := owed_trackedStep h hsettled

/-- Where settled steps led, a new session carries what is due. -/
theorem dueCarried_of_right {t : Tracked D} (h : Right cfg t) (e : SessionEvent D) :
    DueCarried cfg t e := by
  cases e with
  | roomState clientID roomEpoch yjsSnapshot =>
    intro hreseeds due hdue
    rw [due_eq_carryForwardText h, Option.mem_def] at hdue
    refine ⟨_, session_handleRoomState hreseeds clientID yjsSnapshot, ?_, ?_⟩
    · exact roomEpoch_reseeded ..
    · rw [hdue]
      exact carries_reseeded ..
  | edit update => trivial
  | ack roomEpoch updateId seq => trivial
  | relay roomEpoch seq update => trivial
  | roomClosed roomEpoch reason => trivial
  | roomEpochStale => trivial

/-- **In every run of settled steps the unacknowledged edits survive**, from a manager that has
no session of the file. -/
theorem survives_run (outgoing : List (YjsMessage D)) (es : List (SessionEvent D))
    (h : Run.EachStep (trackedStep cfg) Settled
      { manager := { outgoing }, confirmed := ⊥ } es) :
    Run.EachStep (trackedStep cfg) (Survives cfg)
      { manager := { outgoing }, confirmed := ⊥ } es := by
  have hstart : Right cfg { manager := { outgoing }, confirmed := ⊥ } :=
    ⟨by simp [Complete], by simp [AckedTextRight], rfl⟩
  refine Run.eachStep_of_invariant ?_ ?_ hstart h
  · intro t e hright hsettled
    exact right_trackedStep hright hsettled
  · intro t e hright hsettled
    exact ⟨ackedTextRight_trackedStep hright hsettled, dueCarried_of_right hright e⟩

end

/-! ### Two edits -/

/-- A note is opened, and one line is written, then another one. -/
def sampleFirstEdit : Finset Write := writes.change 1 "content" "one" ⊥

/-- Another edit after the first. -/
def sampleSecondEdit : Finset Write := writes.change 1 "content" "one\ntwo" sampleFirstEdit

/-- The first line is acknowledged before the second is written, which waits when the room has
another incarnation, with the first line and one more above it. -/
def sampleSettledRun : List (SessionEvent (Finset Write)) :=
  [.roomState 1 1 ⊥, .edit sampleFirstEdit, .ack 1 1 1, .edit sampleSecondEdit,
    .roomState 1 2 (writes.change 2 "content" "zero\none" ⊥)]

theorem survives_settledRun :
    Run.EachStep (trackedStep { crdt := writes }) (Survives { crdt := writes })
      { manager := {}, confirmed := ⊥ } sampleSettledRun := by
  refine survives_run [] sampleSettledRun ⟨trivial, trivial, ?_, trivial, trivial, trivial⟩
  rintro session ⟨⟩ - -
  rfl

/-- Both lines are written before the first is acknowledged. -/
def sampleSecondEditRun : List (SessionEvent (Finset Write)) :=
  [.roomState 1 1 ⊥, .edit sampleFirstEdit, .edit sampleSecondEdit, .ack 1 1 1]

/-- **Two edits wait, and with the acknowledgement of the first the session keeps the text with
the second as acknowledged.**  An edit that waits when the epoch is stale is not in the new
session either. -/
theorem not_survives_secondEdit :
    ¬ Run.EachStep (trackedStep { crdt := writes }) (Survives { crdt := writes })
        { manager := {}, confirmed := ⊥ } sampleSecondEditRun ∧
      ¬ Run.EachStep (trackedStep { crdt := writes }) (Survives { crdt := writes })
        { manager := {}, confirmed := ⊥ }
        [.roomState 1 1 ⊥, .edit sampleFirstEdit, .roomClosed 1 .epochStale,
          .roomState 1 2 ⊥] := by
  constructor
  · rintro ⟨-, -, -, hack, -⟩
    have hacked := hack.ackedText _ rfl
    revert hacked
    decide
  · rintro ⟨-, -, -, hstate, -⟩
    obtain ⟨session, ⟨⟩, -, hcarries⟩ := hstate.carried rfl _ rfl
    have htext := hcarries.text
    revert htext
    decide

end ObsidianSync
