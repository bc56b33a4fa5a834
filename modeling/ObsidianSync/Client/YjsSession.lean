import ObsidianSync.Lib.Merge
import ObsidianSync.Room.Manager

/-!
# Realtime sessions

While a note is open in a session, its document is edited locally, and the updates are sent
to the room on the server, which acknowledges them and relays those of others.  Sessions of
different files share nothing, so one file is all there is here.  A session is a replica of
one incarnation of the room; when the room has another one, a new session is made from its
state, and what was not acknowledged is merged into it.

Documents and updates stand for their encodings, a document for its own state vector as well.
The ids Yjs draws are arguments.  Presence is left out.

## Main definitions

* `threeWayMerge` — the line-based merge of two edits of a text.
* `YjsSession`, `YjsSessionManager` — a session, and the manager's part of one file.
* `YjsSessionManager.openFile`, `handleRoomState`, `handleYjsUpdate`, `handleAck`,
  `handleRoomClosed`, … — the handlers.

## Main results

* `threeWayMerge_right_base`, `threeWayMerge_left_base` — a side that was not edited gives way.
* `text_carriedUpdate` — the text of a new session is the merge of what is carried into it.
-/

namespace ObsidianSync

/-! ### Merging texts -/

/-- `text.split("\n")`. -/
def splitLines (text : String) : List String := (text.toList.splitOn '\n').map String.ofList

/-- `lines.join("\n")`. -/
def joinLines (lines : List String) : String :=
  String.ofList (['\n'].intercalate (lines.map String.toList))

/-- The lines that stand for a conflict. -/
def conflictLines (ours theirs : List String) : List String :=
  "<<<<<<< local" :: ours ++ "=======" :: theirs ++ [">>>>>>> server"]

/-- A merged text, and whether the two sides were in conflict. -/
structure MergeResult where
  text : String
  conflict : Bool
  deriving DecidableEq, Repr

/-- The merge of two texts over the one they come from, by lines. -/
def threeWayMerge (baseText oursText theirsText : String) : MergeResult :=
  let merged := Merge.merge conflictLines (splitLines baseText) (splitLines oursText)
    (splitLines theirsText)
  { text := joinLines merged.1, conflict := merged.2 }

@[simp] theorem joinLines_splitLines (text : String) : joinLines (splitLines text) = text := by
  simp [joinLines, splitLines, Function.comp_def, List.intercalate_splitOn]

/-- Where theirs is the base, the merge is ours. -/
theorem threeWayMerge_right_base (base ours : String) :
    (threeWayMerge base ours base).text = ours := by
  simp [threeWayMerge, Merge.merge_right_base]

/-- Where ours is the base, the merge is theirs. -/
theorem threeWayMerge_left_base (base theirs : String) :
    (threeWayMerge base base theirs).text = theirs := by
  simp [threeWayMerge, Merge.merge_left_base]

example : (threeWayMerge "one" "one\ntwo" "zero\none").text = "zero\none\ntwo" := by decide +kernel

/-! ### Sessions -/

/-- A session on one incarnation of the room. -/
structure YjsSession (D : Type) where
  roomEpoch : ℕ
  doc : D
  nextUpdateId : ℕ := 1
  lastSeq : ℕ := 0
  /-- The text of the last acknowledgement or relay. -/
  ackedText : String
  /-- The updates that wait for an acknowledgement, in the order they were sent in. -/
  outstanding : List (ℕ × D) := []

/-- What a session sends. -/
inductive YjsMessage (D : Type)
  | promote
  | leaveRoom (roomEpoch : ℕ)
  | yjsUpdate (roomEpoch updateId : ℕ) (update : D)
  | yjsSync (roomEpoch : ℕ) (stateVector : D)

/-- The manager's part of one file. -/
structure YjsSessionManager (D : Type) where
  session : Option (YjsSession D) := none
  outgoing : List (YjsMessage D) := []

/-- What the sessions run on, and the options of the manager. -/
structure YjsConfig (D : Type) [SemilatticeSup D] [OrderBot D] where
  crdt : Crdt D
  textName : String := "content"
  canPromote : Bool := true

section

variable {D : Type} [SemilatticeSup D] [OrderBot D] (cfg : YjsConfig D)

/-- `session.text.toString()`. -/
def YjsConfig.text (doc : D) : String := cfg.crdt.content cfg.textName doc

namespace YjsSession

variable (session : YjsSession D)

/-- A local update is merged and waits for its acknowledgement. -/
def localUpdate (update : D) : YjsSession D :=
  { session with
    doc := session.doc ⊔ update
    nextUpdateId := session.nextUpdateId + 1
    outstanding := session.outstanding ++ [(session.nextUpdateId, update)] }

/-- What is sent of a local update. -/
def updateMessage (update : D) : YjsMessage D :=
  .yjsUpdate session.roomEpoch session.nextUpdateId update

/-- The message that asks for what a session misses. -/
def syncMessage : YjsMessage D := .yjsSync session.roomEpoch session.doc

/-- What is carried into the next session: the text that was acknowledged and the current
one, if an update waits for its acknowledgement. -/
def carryForwardText : Option (String × String) :=
  if session.outstanding.isEmpty then none else some (session.ackedText, cfg.text session.doc)

/-- A relayed update is merged. -/
def applyRelay (seq : ℕ) (update : D) : YjsSession D :=
  let doc := session.doc ⊔ update
  { session with doc, lastSeq := seq, ackedText := cfg.text doc }

/-- An update is acknowledged. -/
def applyAck (updateId seq : ℕ) : YjsSession D :=
  let session := { session with lastSeq := max session.lastSeq seq }
  if session.outstanding.any fun waiter => waiter.1 = updateId then
    { session with
      outstanding := session.outstanding.filter fun waiter => waiter.1 ≠ updateId
      ackedText := cfg.text session.doc }
  else session

end YjsSession

/-- A session on the state of a room. -/
def newSession (roomEpoch : ℕ) (yjsSnapshot : D) : YjsSession D :=
  let doc := ⊥ ⊔ yjsSnapshot
  { roomEpoch, doc, ackedText := cfg.text doc }

/-- The text a new session is given, where one is carried forward. -/
def carriedText (carryForwardText : String × String) (seededText : String) : String :=
  if seededText = carryForwardText.1 then carryForwardText.2
  else (threeWayMerge carryForwardText.1 carryForwardText.2 seededText).text

/-- The change by which a text is carried into a new session, if there is one to make. -/
def carriedUpdate (clientID : ℕ) (carryForwardText : Option (String × String))
    (session : YjsSession D) : Option D :=
  match carryForwardText with
  | none => none
  | some carried =>
    if carried.1 = carried.2 then none
    else
      let seededText := cfg.text session.doc
      let target := carriedText carried seededText
      if target = seededText then none
      else some (cfg.crdt.change clientID cfg.textName target session.doc)

namespace YjsSessionManager

variable (m : YjsSessionManager D)

/-- A message is sent. -/
def send (message : YjsMessage D) : YjsSessionManager D :=
  { m with outgoing := m.outgoing ++ [message] }

/-- An edit of the document, which is sent as an update. -/
def edit (update : D) : YjsSessionManager D :=
  match m.session with
  | none => m
  | some session =>
    { m with session := some (session.localUpdate update) }.send (session.updateMessage update)

/-- `destroySession`. -/
def destroySession : YjsSessionManager D := { m with session := none }

/-- `openFile`, up to the answer of the server.  It throws where there is no session and
realtime is disabled. -/
def openFile : YjsSessionManager D :=
  if m.session.isSome || !cfg.canPromote then m else m.send .promote

/-- The session of the file is opened anew. -/
def resyncFile : YjsSessionManager D := m.destroySession.openFile cfg

/-- The end of `leaveFile`, after the wait for the acknowledgements. -/
def leaveFile : YjsSessionManager D :=
  match m.session with
  | none => m
  | some session => (m.send (.leaveRoom session.roomEpoch)).destroySession

/-- `handleRoomState`, with the id of the client for what it writes to the new document. -/
def handleRoomState (clientID roomEpoch : ℕ) (yjsSnapshot : D) : YjsSessionManager D :=
  if m.session.any fun existing => existing.roomEpoch = roomEpoch then m
  else
    let carried := m.session.bind (YjsSession.carryForwardText cfg)
    let session := newSession cfg roomEpoch yjsSnapshot
    let m := { m with session := some session }
    match carriedUpdate cfg clientID carried session with
    | none => m
    | some update => m.edit update

/-- An update of another device arrives. -/
def handleYjsUpdate (roomEpoch seq : ℕ) (update : D) : YjsSessionManager D :=
  match m.session with
  | none => m
  | some session =>
    if roomEpoch ≠ session.roomEpoch then m
    else if seq ≤ session.lastSeq then m
    else if session.lastSeq > 0 ∧ seq > session.lastSeq + 1 then m.send session.syncMessage
    else { m with session := some (session.applyRelay cfg seq update) }

/-- An update of this device was accepted. -/
def handleAck (roomEpoch updateId seq : ℕ) : YjsSessionManager D :=
  match m.session with
  | none => m
  | some session =>
    if roomEpoch ≠ session.roomEpoch then m
    else { m with session := some (session.applyAck cfg updateId seq) }

/-- The room of the session was closed. -/
def handleRoomClosed (roomEpoch : ℕ) (reason : RoomClosedReason) : YjsSessionManager D :=
  match m.session with
  | none => m
  | some session =>
    if roomEpoch ≠ session.roomEpoch then m
    else if reason = .epochStale then m.resyncFile cfg
    else m.destroySession

/-- What the engine does on an error `ROOM_EPOCH_STALE` for the file. -/
def handleRoomEpochStale : YjsSessionManager D :=
  if m.session.isSome then m.resyncFile cfg else m

/-- `applyMinimalTextDiff` from outside the editor: the change is not sent. -/
def replaceText (clientID : ℕ) (text : String) : YjsSessionManager D :=
  match m.session with
  | none => m
  | some session =>
    { m with session := some { session with
        doc := session.doc ⊔ cfg.crdt.change clientID cfg.textName text session.doc } }

/-- `reconcileLayer1Content`, by texts rather than by their hashes. -/
def reconcileLayer1Content (clientID : ℕ) (text : String) : YjsSessionManager D :=
  if m.session.any fun session => cfg.text session.doc = text then m
  else m.replaceText cfg clientID text

/-- The end of `restoreHistoryVersion`, with the text the server restored. -/
def restoreHistoryVersion (clientID : ℕ) (text : String) : YjsSessionManager D :=
  m.replaceText cfg clientID text

end YjsSessionManager

/-! ### New sessions -/

variable {cfg}

/-- The text a new session is given is the merge of what is carried forward. -/
theorem carriedText_eq (carried : String × String) (seededText : String) :
    carriedText carried seededText
      = (threeWayMerge carried.1 carried.2 seededText).text := by
  unfold carriedText
  split
  · next hseed => rw [hseed, threeWayMerge_right_base]
  · rfl

/-- Whether or not a change is made: the new session has the merged text. -/
theorem text_carriedUpdate (clientID : ℕ) (carried : String × String) (session : YjsSession D) :
    cfg.text (session.doc ⊔ ((carriedUpdate cfg clientID (some carried) session).getD ⊥))
      = (threeWayMerge carried.1 carried.2 (cfg.text session.doc)).text := by
  unfold carriedUpdate
  dsimp only
  split
  · next hsame => rw [hsame, threeWayMerge_left_base, Option.getD_none, sup_bot_eq]
  split
  · next htarget =>
    rw [carriedText_eq] at htarget
    rw [htarget, Option.getD_none, sup_bot_eq]
  · rw [Option.getD_some, YjsConfig.text, cfg.crdt.content_change, carriedText_eq]

end

end ObsidianSync
