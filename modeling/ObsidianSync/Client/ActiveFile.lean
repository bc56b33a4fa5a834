import ObsidianSync.Lib.Run
import ObsidianSync.Lib.Table

/-!
# The active file

The editor is bound to the realtime session of the note that is open.  Opening another note leaves
the room of the one before and joins its own, and both wait for the server.  Meanwhile other notes
may be opened, rooms may close, and sessions may be replaced, so that several calls of
`activateRealtimeFile` are on their way at once.  Each takes a token, of which the last one drawn is
the current one.

After it has left the previous file a call goes on without a look at its token.  Only where this
makes an overtaken call open its file does the editor show another note than the one that was opened
last.

What a session holds is not modelled, nor is presence.  Code between two waits is one step; what
comes after a wait is a step of its own.

## Main definitions

* `RealtimeFiles` — the open file, the session of the editor, the sessions, and the calls.
* `activateRealtimeFile`, `goOn`, `openFile`, `handleRoomState`, `destroySession` — as the source
  has them.
* `Punctual` — the call that goes on is the current one, or does no harm.
* `ShowsLast` — what the editor shows.

## Main results

* `showsLast_iff` — **in which runs the editor only shows the note that was opened last.**
-/

namespace ObsidianSync

/-! ### Sessions and calls -/

/-- A session, told apart from a later one of its file by its number. -/
structure EditorSession where
  fileId : String
  roomEpoch : ℕ
  number : ℕ
  deriving DecidableEq, Repr

/-- What the sessions send about rooms. -/
inductive RoomRequest
  | promote (fileId : String)
  | leaveRoom (fileId : String) (roomEpoch : ℕ)
  deriving DecidableEq, Repr

/-- A call of `leaveFile`, with the session it found. -/
structure LeaveCall where
  fileId : String
  session : Option EditorSession
  deriving DecidableEq, Repr

/-- What a call of `activateRealtimeFile` waits for. -/
inductive ActivationPhase
  /-- The previous file is being left. -/
  | leaving (call : LeaveCall) (nextFileId : Option String)
  | left (nextFileId : Option String)
  /-- The room was asked for. -/
  | opening (fileId : String)
  | opened (fileId : String) (session : EditorSession)
  /-- Its own file is being left again. -/
  | withdrawing (call : LeaveCall)
  deriving DecidableEq, Repr

/-- A call of `activateRealtimeFile` that goes on. -/
structure Activation where
  token : ℕ
  phase : ActivationPhase
  deriving DecidableEq, Repr

/-- The active file, the sessions, and the calls that go on. -/
structure RealtimeFiles where
  activeFileId : Option String := none
  activeOpenToken : ℕ := 0
  /-- The session the extensions of the editor are bound to. -/
  editor : Option EditorSession := none
  sessions : Table EditorSession.fileId := Table.empty
  /-- The number of sessions that were made. -/
  made : ℕ := 0
  calls : Table Activation.token := Table.empty
  /-- The files that are left because the services stop. -/
  stopping : List LeaveCall := []
  sent : List RoomRequest := []
  /-- The note that was opened last, for the statements. -/
  lastOpened : Option String := none
  /-- Whether the services were stopped since, or the room was not joined. -/
  gaveUp : Bool := false

namespace RealtimeFiles

variable (canPromote : Bool) (s : RealtimeFiles)

/-! ### The manager -/

/-- The callback: the editor follows the session of the active file. -/
def onSessionChanged (fileId : String) (session : Option EditorSession) : RealtimeFiles :=
  if s.activeFileId = some fileId then { s with editor := session } else s

/-- The session of a file ends. -/
def destroySession (fileId : String) : RealtimeFiles :=
  match s.sessions.get? fileId with
  | none => s
  | some _ => { s with sessions := s.sessions.erase fileId }.onSessionChanged fileId none

/-- The session that is made next. -/
def newSession (fileId : String) (roomEpoch : ℕ) : EditorSession :=
  { fileId, roomEpoch, number := s.made }

/-- A session begins. -/
def addSession (session : EditorSession) : RealtimeFiles :=
  { s with sessions := s.sessions.set session, made := s.made + 1 }.onSessionChanged
    session.fileId (some session)

/-- A session of another incarnation is replaced. -/
def handleRoomState (fileId : String) (roomEpoch : ℕ) : RealtimeFiles × EditorSession :=
  match s.sessions.get? fileId with
  | none => (s.addSession (s.newSession fileId roomEpoch), s.newSession fileId roomEpoch)
  | some existing =>
    if existing.roomEpoch = roomEpoch then (s, existing)
    else
      ((s.destroySession fileId).addSession (s.newSession fileId roomEpoch),
        s.newSession fileId roomEpoch)

/-- The beginning of `leaveFile`. -/
def leaveFile (fileId : String) : LeaveCall := { fileId, session := s.sessions.get? fileId }

/-- The end of `leaveFile`, when the updates are acknowledged or the wait for them is over. -/
def finishLeave (call : LeaveCall) : RealtimeFiles :=
  match call.session with
  | none => s
  | some session =>
    let request := RoomRequest.leaveRoom call.fileId session.roomEpoch
    { s with sent := s.sent ++ [request] }.destroySession call.fileId

/-- `handleRoomClosed`: a room with a later incarnation is asked for again. -/
def handleRoomClosed (fileId : String) (roomEpoch : ℕ) (stale : Bool) : RealtimeFiles :=
  match s.sessions.get? fileId with
  | none => s
  | some session =>
    if session.roomEpoch ≠ roomEpoch then s
    else if stale && canPromote then
      let s := s.destroySession fileId
      { s with sent := s.sent ++ [.promote fileId] }
    else s.destroySession fileId

/-! ### Activation -/

/-- The call is over. -/
def done (token : ℕ) : RealtimeFiles := { s with calls := s.calls.erase token }

/-- The call waits on. -/
def wait (token : ℕ) (phase : ActivationPhase) : RealtimeFiles :=
  { s with calls := s.calls.set { token, phase } }

/-- `openFile` has thrown. -/
def failed (token : ℕ) : RealtimeFiles :=
  if token = s.activeOpenToken then
    { s with activeFileId := none, editor := none, gaveUp := true }.done token
  else s.done token

/-- The session of a file is opened, or the call waits for one. -/
def openFile (token : ℕ) (fileId : String) : RealtimeFiles :=
  match s.sessions.get? fileId with
  | some existing => s.wait token (.opened fileId existing)
  | none =>
    if canPromote then
      { s with sent := s.sent ++ [RoomRequest.promote fileId] }.wait token (.opening fileId)
    else s.failed token

/-- The part of `activateRealtimeFile` after the previous file was left. -/
def goOn (token : ℕ) (previous nextFileId : Option String) : RealtimeFiles :=
  match nextFileId with
  | none => { s with activeFileId := none, editor := none }.done token
  | some fileId =>
    if previous = some fileId ∧ (s.sessions.get? fileId).isSome then s.done token
    else { s with activeFileId := some fileId }.openFile canPromote token fileId

/-- `activateRealtimeFile` of a file with the given id in the index, or of none. -/
def activateRealtimeFile (nextFileId : Option String) : RealtimeFiles :=
  let token := s.activeOpenToken + 1
  let previous := s.activeFileId
  let s := { s with activeOpenToken := token, lastOpened := nextFileId, gaveUp := false }
  match previous with
  | none => s.goOn canPromote token none nextFileId
  | some fileId =>
    if nextFileId = some fileId then s.goOn canPromote token previous nextFileId
    else
      { s with activeFileId := none, editor := none }.wait token
        (.leaving (s.leaveFile fileId) nextFileId)

/-- The session has come: the editor shows it, unless another note was opened meanwhile. -/
def bind (token : ℕ) (fileId : String) (session : EditorSession) : RealtimeFiles :=
  if token ≠ s.activeOpenToken ∨ s.activeFileId ≠ some fileId then
    if s.activeFileId ≠ some fileId then s.wait token (.withdrawing (s.leaveFile fileId))
    else s.done token
  else { s with editor := some session }.done token

/-- What comes after a wait that is over. -/
def resume (call : Activation) : RealtimeFiles :=
  match call.phase with
  -- the previous file was another one
  | .left nextFileId => s.goOn canPromote call.token none nextFileId
  | .opened fileId session => s.bind call.token fileId session
  | _ => s

/-- `leaveFile` returns to the call. -/
def leaveEnds (call : Activation) : RealtimeFiles :=
  match call.phase with
  | .leaving leave nextFileId => (s.finishLeave leave).wait call.token (.left nextFileId)
  | .withdrawing leave => (s.finishLeave leave).done call.token
  | _ => s

/-- The state of the room reaches the call. -/
def delivered (call : Activation) (roomEpoch : ℕ) : RealtimeFiles :=
  match call.phase with
  | .opening fileId =>
    let (s, session) := s.handleRoomState fileId roomEpoch
    s.wait call.token (.opened fileId session)
  | _ => s

/-- No state of the room has come. -/
def timedOut (call : Activation) : RealtimeFiles :=
  match call.phase with
  | .opening _ => s.failed call.token
  | _ => s

/-- `stopSyncServices` and `onunload`. -/
def stop : RealtimeFiles :=
  { s with
    activeFileId := none
    editor := none
    gaveUp := true
    stopping := s.stopping ++ (s.activeFileId.map s.leaveFile).toList }

/-- The file is left that was active when the services stopped. -/
def stopEnds : RealtimeFiles :=
  match s.stopping with
  | [] => s
  | call :: rest => { s with stopping := rest }.finishLeave call

end RealtimeFiles

/-! ### Runs -/

/-- A note is opened or none, a wait of a call is over, or the server tells of a room. -/
inductive ActiveFileEvent
  | fileOpen (nextFileId : Option String)
  | leaveEnds (token : ℕ)
  | resumed (token : ℕ)
  | delivered (token roomEpoch : ℕ)
  | timedOut (token : ℕ)
  | roomState (fileId : String) (roomEpoch : ℕ)
  | roomClosed (fileId : String) (roomEpoch : ℕ) (stale : Bool)
  | stop
  | stopEnds
  deriving DecidableEq, Repr

/-- What comes of an event.  An event for a call that is not there is none. -/
def activeFileStep (canPromote : Bool) (s : RealtimeFiles) : ActiveFileEvent → RealtimeFiles
  | .fileOpen nextFileId => s.activateRealtimeFile canPromote nextFileId
  | .leaveEnds token => ((s.calls.get? token).map s.leaveEnds).getD s
  | .resumed token => ((s.calls.get? token).map (s.resume canPromote)).getD s
  | .delivered token roomEpoch =>
    ((s.calls.get? token).map fun call => s.delivered call roomEpoch).getD s
  | .timedOut token => ((s.calls.get? token).map s.timedOut).getD s
  | .roomState fileId roomEpoch => (s.handleRoomState fileId roomEpoch).1
  | .roomClosed fileId roomEpoch stale => s.handleRoomClosed canPromote fileId roomEpoch stale
  | .stop => s.stop
  | .stopEnds => s.stopEnds

/-- What a call will open that has not yet left the previous file. -/
def ActivationPhase.next : ActivationPhase → Option (Option String)
  | .leaving _ nextFileId => some nextFileId
  | .left nextFileId => some nextFileId
  | _ => none

/-- The same of the current call. -/
def RealtimeFiles.leavesFor (s : RealtimeFiles) : Option (Option String) :=
  (s.calls.get? s.activeOpenToken).bind fun call => call.phase.next

/-- No file is active, and none has to be: the current call leaves the previous one, or was given
up. -/
def RealtimeFiles.Between (s : RealtimeFiles) : Prop := s.gaveUp = true ∨ s.leavesFor.isSome = true

/-- A call that goes on after it left the previous file is the current one, or opens the same file
as that one, or closes what is closed. -/
def Punctual (s : RealtimeFiles) : ActiveFileEvent → Prop
  | .resumed token => ∀ call ∈ s.calls.get? token, ∀ nextFileId,
      call.phase = .left nextFileId → token = s.activeOpenToken ∨ nextFileId = s.lastOpened ∨
        nextFileId = none ∧ s.Between
  | _ => True

/-- The editor shows a session of the active file only, and that is the one that was opened last, or
none in between. -/
structure ShowsLast (s : RealtimeFiles) : Prop where
  editor : ∀ session ∈ s.editor, s.activeFileId = some session.fileId
  active : s.activeFileId = s.lastOpened ∨ s.activeFileId = none ∧ s.Between

/-! ### What the manager changes -/

/-- The calls and the active file are as they were, and the editor still shows what it shows, or
nothing, or a session of the active file. -/
structure Unmoved (s s' : RealtimeFiles) : Prop where
  activeFileId : s'.activeFileId = s.activeFileId
  activeOpenToken : s'.activeOpenToken = s.activeOpenToken
  calls : s'.calls = s.calls
  lastOpened : s'.lastOpened = s.lastOpened
  gaveUp : s'.gaveUp = s.gaveUp
  editor : s'.editor = s.editor ∨
    ∀ session ∈ s'.editor, s.activeFileId = some session.fileId

section

variable {s s' s'' : RealtimeFiles} {fileId : String}

theorem Unmoved.refl (s : RealtimeFiles) : Unmoved s s := ⟨rfl, rfl, rfl, rfl, rfl, Or.inl rfl⟩

theorem Unmoved.trans (h : Unmoved s s') (h' : Unmoved s' s'') : Unmoved s s'' where
  activeFileId := h'.activeFileId.trans h.activeFileId
  activeOpenToken := h'.activeOpenToken.trans h.activeOpenToken
  calls := h'.calls.trans h.calls
  lastOpened := h'.lastOpened.trans h.lastOpened
  gaveUp := h'.gaveUp.trans h.gaveUp
  editor := by
    rcases h'.editor with hsame | hactive
    · rw [hsame]
      exact h.editor
    · exact Or.inr fun session hmem => h.activeFileId ▸ hactive session hmem

theorem unmoved_onSessionChanged {session : Option EditorSession}
    (h : ∀ session' ∈ session, session'.fileId = fileId) :
    Unmoved s (s.onSessionChanged fileId session) := by
  unfold RealtimeFiles.onSessionChanged
  split
  · next hactive =>
    refine ⟨rfl, rfl, rfl, rfl, rfl, Or.inr fun session' hmem => ?_⟩
    rw [hactive, h session' hmem]
  · exact .refl s

theorem unmoved_destroySession (s : RealtimeFiles) (fileId : String) :
    Unmoved s (s.destroySession fileId) := by
  unfold RealtimeFiles.destroySession
  split
  · exact .refl s
  · have herased : Unmoved s { s with sessions := s.sessions.erase fileId } :=
      ⟨rfl, rfl, rfl, rfl, rfl, Or.inl rfl⟩
    exact herased.trans (unmoved_onSessionChanged fun _ hmem => absurd hmem (Option.not_mem_none _))

theorem unmoved_addSession (s : RealtimeFiles) (session : EditorSession) :
    Unmoved s (s.addSession session) := by
  have hset : Unmoved s { s with sessions := s.sessions.set session, made := s.made + 1 } :=
    ⟨rfl, rfl, rfl, rfl, rfl, Or.inl rfl⟩
  refine hset.trans (unmoved_onSessionChanged ?_)
  rintro session' ⟨⟩
  rfl

theorem unmoved_handleRoomState (s : RealtimeFiles) (fileId : String) (roomEpoch : ℕ) :
    Unmoved s (s.handleRoomState fileId roomEpoch).1 := by
  unfold RealtimeFiles.handleRoomState
  split
  · exact unmoved_addSession s _
  · split
    · exact .refl s
    · exact (unmoved_destroySession s fileId).trans (unmoved_addSession _ _)

/-- The session is one of the file. -/
theorem fileId_handleRoomState (s : RealtimeFiles) (fileId : String) (roomEpoch : ℕ) :
    (s.handleRoomState fileId roomEpoch).2.fileId = fileId := by
  unfold RealtimeFiles.handleRoomState
  split
  · rfl
  · next existing hget =>
    split
    · exact Table.key_of_get? hget
    · rfl

theorem unmoved_finishLeave (s : RealtimeFiles) (call : LeaveCall) :
    Unmoved s (s.finishLeave call) := by
  unfold RealtimeFiles.finishLeave
  split
  · exact .refl s
  · next session hsession =>
    have hsent : Unmoved s { s with
        sent := s.sent ++ [RoomRequest.leaveRoom call.fileId session.roomEpoch] } :=
      ⟨rfl, rfl, rfl, rfl, rfl, Or.inl rfl⟩
    exact hsent.trans (unmoved_destroySession _ _)

theorem unmoved_handleRoomClosed (canPromote : Bool) (s : RealtimeFiles) (fileId : String)
    (roomEpoch : ℕ) (stale : Bool) :
    Unmoved s (s.handleRoomClosed canPromote fileId roomEpoch stale) := by
  unfold RealtimeFiles.handleRoomClosed
  split
  · exact .refl s
  split
  · exact .refl s
  split
  · exact (unmoved_destroySession s fileId).trans ⟨rfl, rfl, rfl, rfl, rfl, Or.inl rfl⟩
  · exact unmoved_destroySession s fileId

end

/-! ### The current call -/

/-- What every call keeps. -/
structure Coherent (s : RealtimeFiles) : Prop where
  editor : ∀ session ∈ s.editor, s.activeFileId = some session.fileId
  tokens : ∀ call ∈ s.calls.rows, call.token ≤ s.activeOpenToken
  opened : ∀ call ∈ s.calls.rows, ∀ {fileId session},
    call.phase = .opened fileId session → session.fileId = fileId

/-- The current call will open the last file. -/
structure Tracks (s : RealtimeFiles) : Prop extends Coherent s where
  active : s.activeFileId = s.lastOpened ∨ s.activeFileId = none ∧ s.Between
  leaving : ∀ next ∈ s.leavesFor, next = s.lastOpened

section

variable {s s' : RealtimeFiles} {token : ℕ} {phase : ActivationPhase} {fileId : String}
  {session : EditorSession} {canPromote : Bool}

theorem leavesFor_wait (s : RealtimeFiles) (token : ℕ) (phase : ActivationPhase) :
    (s.wait token phase).leavesFor
      = if token = s.activeOpenToken then phase.next else s.leavesFor := by
  unfold RealtimeFiles.leavesFor RealtimeFiles.wait
  dsimp only
  rw [Table.get?_set]
  split <;> rfl

theorem leavesFor_done (s : RealtimeFiles) (token : ℕ) :
    (s.done token).leavesFor = if token = s.activeOpenToken then none else s.leavesFor := by
  unfold RealtimeFiles.leavesFor RealtimeFiles.done
  dsimp only
  rw [Table.get?_erase]
  by_cases hsame : token = s.activeOpenToken
  · rw [if_pos hsame, if_pos hsame.symm]
    rfl
  · rw [if_neg hsame, if_neg (Ne.symm hsame)]

theorem leavesFor_of_get? {call : Activation} (h : s.calls.get? token = some call)
    (hcurrent : token = s.activeOpenToken) : s.leavesFor = call.phase.next := by
  unfold RealtimeFiles.leavesFor
  rw [← hcurrent, h]
  rfl

theorem Unmoved.leavesFor (h : Unmoved s s') : s'.leavesFor = s.leavesFor := by
  unfold RealtimeFiles.leavesFor
  rw [h.calls, h.activeOpenToken]

theorem Unmoved.coherent (h : Unmoved s s') (hs : Coherent s) : Coherent s' where
  editor := by
    rw [h.activeFileId]
    rcases h.editor with hsame | hactive
    · rw [hsame]
      exact hs.editor
    · exact hactive
  tokens := by
    rw [h.calls, h.activeOpenToken]
    exact hs.tokens
  opened := by
    rw [h.calls]
    exact hs.opened

theorem Unmoved.tracks (h : Unmoved s s') (hs : Tracks s) : Tracks s' where
  toCoherent := h.coherent hs.toCoherent
  active := by
    unfold RealtimeFiles.Between
    rw [h.activeFileId, h.lastOpened, h.gaveUp, h.leavesFor]
    exact hs.active
  leaving := by
    rw [h.lastOpened, h.leavesFor]
    exact hs.leaving

theorem Coherent.wait (h : Coherent s) (htoken : token ≤ s.activeOpenToken)
    (hopened : ∀ {fileId session}, phase = .opened fileId session → session.fileId = fileId) :
    Coherent (s.wait token phase) where
  editor := h.editor
  tokens call hmem := by
    rcases Table.mem_set_iff.mp hmem with rfl | ⟨hold, -⟩
    · exact htoken
    · exact h.tokens call hold
  opened call hmem := by
    rcases Table.mem_set_iff.mp hmem with rfl | ⟨hold, -⟩
    · exact hopened
    · exact h.opened call hold

theorem Coherent.done (h : Coherent s) (token : ℕ) : Coherent (s.done token) where
  editor := h.editor
  tokens call hmem := h.tokens call (Table.mem_erase_iff.mp hmem).1
  opened call hmem := h.opened call (Table.mem_erase_iff.mp hmem).1

/-- No file is active and none is shown. -/
theorem Coherent.inactive (h : Coherent s) (gaveUp : Bool) :
    Coherent { s with activeFileId := none, editor := none, gaveUp } :=
  ⟨nofun, h.tokens, h.opened⟩

/-- A call waits on for the same, as far as it concerns the file it will open. -/
theorem Tracks.wait (h : Tracks s) (htoken : token ≤ s.activeOpenToken)
    (hopened : ∀ {fileId session}, phase = .opened fileId session → session.fileId = fileId)
    (hcurrent : token = s.activeOpenToken → phase.next = s.leavesFor) :
    Tracks (s.wait token phase) := by
  have hleaves : (s.wait token phase).leavesFor = s.leavesFor := by
    rw [leavesFor_wait]
    split
    · next hsame => exact hcurrent hsame
    · rfl
  refine ⟨h.toCoherent.wait htoken hopened, ?_, hleaves ▸ h.leaving⟩
  unfold RealtimeFiles.Between
  rw [hleaves]
  exact h.active

theorem Tracks.done (h : Tracks s) (hcurrent : token = s.activeOpenToken → s.leavesFor = none) :
    Tracks (s.done token) := by
  have hleaves : (s.done token).leavesFor = s.leavesFor := by
    rw [leavesFor_done]
    split
    · next hsame => exact (hcurrent hsame).symm
    · rfl
  refine ⟨h.toCoherent.done token, ?_, hleaves ▸ h.leaving⟩
  unfold RealtimeFiles.Between
  rw [hleaves]
  exact h.active

/-- A call waits that has left the previous file, and the last file is active. -/
theorem Coherent.tracks_wait (h : Coherent s) (htoken : token ≤ s.activeOpenToken)
    (hactive : s.activeFileId = s.lastOpened)
    (hleaving : token ≠ s.activeOpenToken → ∀ next ∈ s.leavesFor, next = s.lastOpened)
    (hphase : phase.next = none)
    (hopened : ∀ {fileId session}, phase = .opened fileId session → session.fileId = fileId) :
    Tracks (s.wait token phase) := by
  refine ⟨h.wait htoken hopened, Or.inl hactive, ?_⟩
  rw [leavesFor_wait]
  split
  · rw [hphase]
    exact fun _ hmem => absurd hmem (Option.not_mem_none _)
  · next hother => exact hleaving hother

/-- A call is over. -/
theorem Coherent.tracks_done (h : Coherent s)
    (hactive : s.activeFileId = s.lastOpened ∨
      s.activeFileId = none ∧ (s.gaveUp = true ∨
        token ≠ s.activeOpenToken ∧ s.leavesFor.isSome = true))
    (hleaving : token ≠ s.activeOpenToken → ∀ next ∈ s.leavesFor, next = s.lastOpened) :
    Tracks (s.done token) := by
  refine ⟨h.done token, ?_, ?_⟩
  · refine hactive.imp_right fun ⟨hnone, hbetween⟩ => ⟨hnone, hbetween.imp_right ?_⟩
    rintro ⟨hother, hsome⟩
    rw [leavesFor_done, if_neg hother]
    exact hsome
  · rw [leavesFor_done]
    split
    · exact fun _ hmem => absurd hmem (Option.not_mem_none _)
    · next hother => exact hleaving hother

/-- The previous file is left, and none is active. -/
theorem Coherent.tracks_leaving (h : Coherent s) (hnone : s.activeFileId = none)
    {leave : LeaveCall} : Tracks (s.wait s.activeOpenToken (.leaving leave s.lastOpened)) := by
  have hleaves : (s.wait s.activeOpenToken (.leaving leave s.lastOpened)).leavesFor
      = some s.lastOpened := by
    rw [leavesFor_wait, if_pos rfl]
    rfl
  refine ⟨h.wait (Nat.le_refl _) nofun, Or.inr ⟨hnone, Or.inr ?_⟩, ?_⟩
  · rw [hleaves]
    rfl
  · rw [hleaves]
    exact fun next hmem => (Option.some.inj hmem).symm

/-! ### Steps -/

/-- A call asks for the room of the active file. -/
theorem Coherent.tracks_openFile (h : Coherent s) (htoken : token ≤ s.activeOpenToken)
    (hactive : s.activeFileId = s.lastOpened)
    (hleaving : token ≠ s.activeOpenToken → ∀ next ∈ s.leavesFor, next = s.lastOpened) :
    Tracks (s.openFile canPromote token fileId) := by
  unfold RealtimeFiles.openFile
  split
  · next existing hget =>
    refine h.tracks_wait htoken hactive hleaving rfl ?_
    rintro fileId' session' ⟨⟩
    exact Table.key_of_get? hget
  split
  · have hsent : Unmoved s { s with sent := s.sent ++ [RoomRequest.promote fileId] } :=
      ⟨rfl, rfl, rfl, rfl, rfl, Or.inl rfl⟩
    exact (hsent.coherent h).tracks_wait htoken hactive hleaving rfl nofun
  · unfold RealtimeFiles.failed
    split
    · next hcurrent =>
      exact (h.inactive true).tracks_done (Or.inr ⟨rfl, Or.inl rfl⟩)
        fun hother => absurd hcurrent hother
    · exact h.tracks_done (Or.inl hactive) hleaving

/-- A call goes on with the last file. -/
theorem Coherent.tracks_goOn (h : Coherent s) {previous nextFileId : Option String}
    (htoken : token ≤ s.activeOpenToken) (hlast : s.lastOpened = nextFileId)
    (hactive : s.activeFileId = nextFileId ∨ s.activeFileId = none)
    (hleaving : token ≠ s.activeOpenToken → ∀ next ∈ s.leavesFor, next = s.lastOpened)
    (hprevious : ∀ fileId, previous = some fileId → s.activeFileId = some fileId) :
    Tracks (s.goOn canPromote token previous nextFileId) := by
  unfold RealtimeFiles.goOn
  cases nextFileId with
  | none => exact (h.inactive s.gaveUp).tracks_done (Or.inl hlast.symm) hleaving
  | some fileId =>
    dsimp only
    split
    · next hopen =>
      exact h.tracks_done (Or.inl ((hprevious fileId hopen.1).trans hlast.symm)) hleaving
    · have hnext : Coherent { s with activeFileId := some fileId } := by
        refine ⟨fun session hmem => ?_, h.tokens, h.opened⟩
        have hsession := h.editor session hmem
        rcases hactive with hsame | hnone
        · exact hsame.symm.trans hsession
        · rw [hnone] at hsession
          cases hsession
      exact hnext.tracks_openFile htoken hlast.symm hleaving

theorem Tracks.activateRealtimeFile (h : Tracks s) (canPromote : Bool)
    (nextFileId : Option String) : Tracks (s.activateRealtimeFile canPromote nextFileId) := by
  have hnext : Coherent { s with
      activeOpenToken := s.activeOpenToken + 1, lastOpened := nextFileId, gaveUp := false } :=
    ⟨h.editor, fun call hmem => Nat.le_succ_of_le (h.tokens call hmem), h.opened⟩
  unfold RealtimeFiles.activateRealtimeFile
  dsimp only
  split
  · next hnone =>
    exact hnext.tracks_goOn (Nat.le_refl _) rfl (Or.inr hnone) (fun hother => absurd rfl hother)
      nofun
  · next fileId hactive =>
    split
    · next hsame =>
      exact hnext.tracks_goOn (Nat.le_refl _) rfl (Or.inl (hactive.trans hsame.symm))
        (fun hother => absurd rfl hother) fun _ hprevious => hprevious
    · exact (hnext.inactive false).tracks_leaving rfl

theorem Tracks.failed (h : Tracks s) (hcurrent : token = s.activeOpenToken → s.leavesFor = none) :
    Tracks (s.failed token) := by
  unfold RealtimeFiles.failed
  split
  · next hsame =>
    exact (h.toCoherent.inactive true).tracks_done (Or.inr ⟨rfl, Or.inl rfl⟩)
      fun hother => absurd hsame hother
  · exact h.done hcurrent

theorem Tracks.bind (h : Tracks s) (hfile : session.fileId = fileId)
    (htoken : token ≤ s.activeOpenToken)
    (hcurrent : token = s.activeOpenToken → s.leavesFor = none) :
    Tracks (s.bind token fileId session) := by
  unfold RealtimeFiles.bind
  split
  · split
    · exact h.wait htoken nofun fun hsame => (hcurrent hsame).symm
    · exact h.done hcurrent
  · next hvalid =>
    have hactive : s.activeFileId = some fileId := not_not.mp fun hother => hvalid (Or.inr hother)
    have hbound : Unmoved s { s with editor := some session } := by
      refine ⟨rfl, rfl, rfl, rfl, rfl, Or.inr ?_⟩
      rintro session' ⟨⟩
      rw [hfile]
      exact hactive
    exact (hbound.tracks h).done hcurrent

/-- A call that has left the previous file goes on. -/
theorem Tracks.goOn (h : Tracks s) {nextFileId : Option String} (htoken : token ≤ s.activeOpenToken)
    (hpunctual : nextFileId = s.lastOpened ∨
      token ≠ s.activeOpenToken ∧ nextFileId = none ∧ s.Between) :
    Tracks (s.goOn canPromote token none nextFileId) := by
  rcases hpunctual with rfl | ⟨hother, rfl, hbetween⟩
  · exact h.toCoherent.tracks_goOn htoken rfl (h.active.imp_right And.left) (fun _ => h.leaving)
      nofun
  · refine (h.toCoherent.inactive s.gaveUp).tracks_done (Or.inr ⟨rfl, ?_⟩) fun _ => h.leaving
    exact hbetween.imp_right fun hleaves => ⟨hother, hleaves⟩

/-- **One event**, unless it goes on with a call that was overtaken. -/
theorem Tracks.step (h : Tracks s) (event : ActiveFileEvent) (hpunctual : Punctual s event) :
    Tracks (activeFileStep canPromote s event) := by
  have hcall (token : ℕ) {f : Activation → RealtimeFiles}
      (hf : ∀ call, s.calls.get? token = some call → Tracks (f call)) :
      Tracks (((s.calls.get? token).map f).getD s) := by
    cases hget : s.calls.get? token with
    | none => exact h
    | some call => exact hf call hget
  -- a call is known by its token
  have hknown {token : ℕ} {call : Activation} (hget : s.calls.get? token = some call) :
      call.token = token ∧ call.token ≤ s.activeOpenToken :=
    ⟨Table.key_of_get? hget, h.tokens call (Table.mem_of_get? hget)⟩
  cases event with
  | fileOpen nextFileId => exact h.activateRealtimeFile canPromote nextFileId
  | leaveEnds token =>
    refine hcall token fun call hget => ?_
    obtain ⟨rfl, hle⟩ := hknown hget
    unfold RealtimeFiles.leaveEnds
    split
    · next leave nextFileId hphase =>
      have hmoved := unmoved_finishLeave s leave
      refine (hmoved.tracks h).wait (hmoved.activeOpenToken ▸ hle) nofun fun hsame => ?_
      rw [hmoved.leavesFor, leavesFor_of_get? hget (hsame.trans hmoved.activeOpenToken), hphase]
      rfl
    · next leave hphase =>
      have hmoved := unmoved_finishLeave s leave
      refine (hmoved.tracks h).done fun hsame => ?_
      rw [hmoved.leavesFor, leavesFor_of_get? hget (hsame.trans hmoved.activeOpenToken), hphase]
      rfl
    · exact h
  | resumed token =>
    refine hcall token fun call hget => ?_
    obtain ⟨rfl, hle⟩ := hknown hget
    unfold RealtimeFiles.resume
    split
    · next nextFileId hphase =>
      refine h.goOn hle ?_
      by_cases hcurrent : call.token = s.activeOpenToken
      · refine Or.inl (h.leaving nextFileId ?_)
        rw [leavesFor_of_get? hget hcurrent, hphase]
        rfl
      · have hlate := (hpunctual call hget nextFileId hphase).resolve_left hcurrent
        exact hlate.imp_right fun hclosed => ⟨hcurrent, hclosed⟩
    · next fileId session hphase =>
      refine h.bind (h.opened call (Table.mem_of_get? hget) hphase) hle fun hsame => ?_
      rw [leavesFor_of_get? hget hsame, hphase]
      rfl
    · exact h
  | delivered token roomEpoch =>
    refine hcall token fun call hget => ?_
    obtain ⟨rfl, hle⟩ := hknown hget
    unfold RealtimeFiles.delivered
    split
    · next fileId hphase =>
      have hmoved := unmoved_handleRoomState s fileId roomEpoch
      refine (hmoved.tracks h).wait (hmoved.activeOpenToken ▸ hle) ?_ fun hsame => ?_
      · rintro fileId' session' ⟨⟩
        exact fileId_handleRoomState s fileId roomEpoch
      · rw [hmoved.leavesFor, leavesFor_of_get? hget (hsame.trans hmoved.activeOpenToken), hphase]
        rfl
    · exact h
  | timedOut token =>
    refine hcall token fun call hget => ?_
    obtain ⟨rfl, -⟩ := hknown hget
    unfold RealtimeFiles.timedOut
    split
    · next fileId hphase =>
      refine h.failed fun hsame => ?_
      rw [leavesFor_of_get? hget hsame, hphase]
      rfl
    · exact h
  | roomState fileId roomEpoch => exact (unmoved_handleRoomState s fileId roomEpoch).tracks h
  | roomClosed fileId roomEpoch stale =>
    exact (unmoved_handleRoomClosed canPromote s fileId roomEpoch stale).tracks h
  | stop =>
    exact ⟨⟨nofun, h.tokens, h.opened⟩, Or.inr ⟨rfl, Or.inl rfl⟩, h.leaving⟩
  | stopEnds =>
    show Tracks s.stopEnds
    unfold RealtimeFiles.stopEnds
    split
    · exact h
    · next call rest hstopping =>
      have hpopped : Unmoved s { s with stopping := rest } :=
        ⟨rfl, rfl, rfl, rfl, rfl, Or.inl rfl⟩
      exact (unmoved_finishLeave _ call).tracks (hpopped.tracks h)

/-! ### Calls that are overtaken -/

/-- What an overtaken call does that is over, or waits. -/
theorem openFile_of_ne (canPromote : Bool) (s : RealtimeFiles) (fileId : String)
    (h : token ≠ s.activeOpenToken) :
    (s.openFile canPromote token fileId).activeFileId = s.activeFileId ∧
      (s.openFile canPromote token fileId).lastOpened = s.lastOpened := by
  unfold RealtimeFiles.openFile
  split
  · exact ⟨rfl, rfl⟩
  split
  · exact ⟨rfl, rfl⟩
  · unfold RealtimeFiles.failed
    rw [if_neg h]
    exact ⟨rfl, rfl⟩

/-- An overtaken call that opens another file, or closes what was opened, goes wrong. -/
theorem not_showsLast_goOn {nextFileId : Option String} (hother : token ≠ s.activeOpenToken)
    (hlast : nextFileId ≠ s.lastOpened) (hbetween : nextFileId = none → ¬ s.Between) :
    ¬ ShowsLast (s.goOn canPromote token none nextFileId) := by
  intro h
  have hactive := h.active
  unfold RealtimeFiles.goOn at hactive
  cases nextFileId with
  | none =>
    rcases hactive with hsame | ⟨-, hgaveUp | hleaves⟩
    · exact hlast hsame
    · exact hbetween rfl (Or.inl hgaveUp)
    · rw [leavesFor_done] at hleaves
      split at hleaves
      · cases hleaves
      · exact hbetween rfl (Or.inr hleaves)
  | some fileId =>
    dsimp only at hactive
    rw [if_neg fun hopen => nomatch hopen.1] at hactive
    obtain ⟨hfile, hkept⟩ := openFile_of_ne canPromote
      { s with activeFileId := some fileId } fileId hother
    rw [hfile, hkept] at hactive
    rcases hactive with hsame | ⟨hnone, -⟩
    · exact hlast hsame
    · cases hnone

theorem not_showsLast_step {event : ActiveFileEvent} (h : ¬ Punctual s event) :
    ¬ ShowsLast (activeFileStep canPromote s event) := by
  cases event with
  | resumed token =>
    simp only [Punctual, not_forall, not_or, exists_prop] at h
    obtain ⟨call, hget, nextFileId, hphase, hother, hlast, hbetween⟩ := h
    have hkey : call.token = token := Table.key_of_get? hget
    have hstep : activeFileStep canPromote s (.resumed token)
        = s.goOn canPromote token none nextFileId := by
      have hsome : s.calls.get? token = some call := hget
      simp only [activeFileStep, hsome, Option.map_some, Option.getD_some, RealtimeFiles.resume,
        hphase, hkey]
    rw [hstep]
    exact not_showsLast_goOn hother hlast fun hnone hb => hbetween ⟨hnone, hb⟩
  | _ => exact absurd trivial h

end

/-- **The editor shows the note that was opened last, and no other**, in exactly the runs in which
no call opens another file that was overtaken while it left the previous one.  Sessions, rooms and
waits may end in any order. -/
theorem showsLast_iff (canPromote : Bool) (es : List ActiveFileEvent) :
    Run.Throughout (activeFileStep canPromote) ShowsLast {} es ↔
      Run.EachStep (activeFileStep canPromote) Punctual {} es := by
  have hinitial : Tracks {} := by
    refine ⟨⟨nofun, nofun, nofun⟩, Or.inl rfl, ?_⟩
    rintro next ⟨⟩
  exact Run.throughout_iff_of_breaks (G := Tracks) (A := fun _ _ => True)
    (fun _ h => ⟨h.editor, h.active⟩) (fun _ event h _ hpunctual => h.step event hpunctual)
    (fun _ _ _ _ hshows => by_contra fun hlate => not_showsLast_step hlate hshows) hinitial
    (Run.eachStep_of_forall (fun _ _ => trivial) _ es)

/-- A third note is opened while the first one is left: the editor shows the second one in the
end. -/
example :
    let s := Run.final (activeFileStep true) {}
      [.fileOpen (some "a"), .delivered 1 4, .resumed 1, .fileOpen (some "b"),
        .fileOpen (some "c"), .leaveEnds 2, .resumed 2, .roomState "b" 1]
    s.lastOpened = some "c" ∧ s.editor = some ⟨"b", 1, 1⟩ := by
  decide

end ObsidianSync
