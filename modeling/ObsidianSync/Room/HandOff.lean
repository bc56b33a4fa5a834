import ObsidianSync.Room.Durable

/-!
# Handing a note over between its two layers

A dormant note changes by ops and resolutions, an edited one in its room.  The room
starts from the last snapshot of its document if there is one, and otherwise from the
stored text; when it closes, its text is written over the note.

## Main definitions

* `RowText` — the text stored under the hash of the note.
* `ReturnsStoredText` — a promotion of a dormant room returns that text.
* `FlushDescends` — what a room would flush holds the version it would write over.
* `Lossless` — the steps that lose nothing: above all, once the room has a snapshot no
  op and no resolution changes the content of the note.

## Main results

* `handsOver_roomStep` — a lossless step keeps the invariant `HandsOver`.
* `returnsStoredText_of_lossless` — the hand-off of lossless runs loses nothing.
* `not_returnsStoredText_dormantEdit` — an edit of the dormant note is lost.
-/

namespace ObsidianSync

section

variable {D : Type} [SemilatticeSup D] [OrderBot D]

/-! ### The claim -/

/-- The text stored under the current hash of the note, if it has one, is `text`. -/
def RowText (cfg : RoomConfig D) (data : Store) (text : String) : Prop :=
  ∀ file ∈ data.getFile cfg.vaultId cfg.fileId, ∀ hash ∈ file.contentHash,
    (data.getContent hash).map (decodeText cfg.platform) = some text

instance (cfg : RoomConfig D) (data : Store) (text : String) :
    Decidable (RowText cfg data text) := by
  unfold RowText
  infer_instance

/-- If a room state is returned, its text is the stored one. -/
def HasStoredText (cfg : RoomConfig D) (data : Store) : Except Failure (RoomMessage D) → Prop
  | .ok (.roomState _ snapshot) => RowText cfg data (textFromSnapshot cfg snapshot)
  | _ => True

instance (cfg : RoomConfig D) (data : Store) (result : Except Failure (RoomMessage D)) :
    Decidable (HasStoredText cfg data result) :=
  match result with
  | .ok (.roomState _ snapshot) =>
    inferInstanceAs (Decidable (RowText cfg data (textFromSnapshot cfg snapshot)))
  | .ok (.yjsUpdate ..) | .ok (.yjsAck ..) | .ok (.roomClosed ..) | .ok (.historyRestored ..)
  | .ok (.error _) | .error _ => isTrue trivial

/-- Whether a promotion that activates the room returns the stored text. -/
def ReturnsStoredText (cfg : RoomConfig D) (s : RoomServer D) : RoomEvent D → Prop
  | .promote now clientID deviceId userId connection =>
    s.materialize.activates = true →
      HasStoredText cfg s.data
        (s.materialize.promote cfg now clientID deviceId userId connection).result
  | _ => True

/-- The document of an active room holds one whose text is the version of the note that
a flush would write over. -/
def FlushDescends (cfg : RoomConfig D) (s : RoomServer D) : Prop :=
  s.materialize.runtime.persisted.active = true →
    ∃ d ≤ s.materialize.runtime.doc, RowText cfg s.data (cfg.crdt.content textName d)

/-! ### The condition -/

/-- The note keeps its hash and what is stored under it, and its vector as long as the
room is active. -/
def KeepsNote (cfg : RoomConfig D) (active : Bool) (data data' : Store) : Prop :=
  let row := data.getFile cfg.vaultId cfg.fileId
  let row' := data'.getFile cfg.vaultId cfg.fileId
  row'.map StoredFile.contentHash = row.map StoredFile.contentHash ∧
    (∀ file ∈ row, ∀ hash ∈ file.contentHash, data'.getContent hash = data.getContent hash) ∧
    (active = true → row'.map StoredFile.contentVV = row.map StoredFile.contentVV)

instance (cfg : RoomConfig D) (active : Bool) (data data' : Store) :
    Decidable (KeepsNote cfg active data data') := by
  unfold KeepsNote
  infer_instance

/-- The text of the note is kept in the store, and not as a blob. -/
def KeptInline (cfg : RoomConfig D) (data : Store) : Prop :=
  ∀ file ∈ data.getFile cfg.vaultId cfg.fileId, ∀ hash ∈ file.contentHash,
    hash ≠ "" ∧ (data.getContent hash).isSome = true

instance (cfg : RoomConfig D) (data : Store) : Decidable (KeptInline cfg data) := by
  unfold KeptInline
  infer_instance

/-- The op id is new and the text is stored as it is: it has no byte order mark, and
nothing else is stored under its hash. -/
def Storable (cfg : RoomConfig D) (data : Store) (opId text : String) : Prop :=
  data.getOpById opId = none ∧ keepsText text = true ∧
    ∀ bytes ∈ data.getContent (contentHashText cfg.platform text), bytes = encodeText text

instance (cfg : RoomConfig D) (data : Store) (opId text : String) :
    Decidable (Storable cfg data opId text) := by
  unfold Storable
  infer_instance

/-- An active room can be flushed. -/
def Flushable (cfg : RoomConfig D) (r : Room D) : Prop :=
  r.runtime.persisted.active = true →
    Storable cfg r.data (r.flushOp cfg).opId (cfg.crdt.content textName r.runtime.doc)

instance (cfg : RoomConfig D) (r : Room D) : Decidable (Flushable cfg r) := by
  unfold Flushable
  infer_instance

/-- The steps that lose nothing.

* Once the room has a snapshot, ops and resolutions leave the content of the note alone.
* A room without a snapshot is promoted on inline text.
* Ops of the room have new ids and texts that are stored as they are.
* A room is closed with its note, or compacted while dormant, with the stored text. -/
def Lossless (cfg : RoomConfig D) (s : RoomServer D) : RoomEvent D → Prop
  | .layer1 event =>
    (s.materialize.runtime.persisted.active = true ∨
        s.materialize.runtime.persisted.snapshot.isSome = true) →
      KeepsNote cfg s.materialize.runtime.persisted.active s.data
        (serverStep cfg.platform s.data event)
  | .promote .. =>
    s.materialize.runtime.persisted.active = false →
      s.materialize.runtime.persisted.snapshot.isNone = true → KeptInline cfg s.data
  | .demote .. | .closingTimer .. | .sweepExpired .. | .closeAll .. =>
    Flushable cfg s.materialize
  | .closeDeleted =>
    s.materialize.runtime.persisted.active = true →
      ∀ snapshot ∈ s.materialize.runtime.persisted.snapshot,
        RowText cfg s.data (cfg.crdt.content textName snapshot)
  | .compact _ throughSeq =>
    (∀ seq ∈ throughSeq, seq < s.materialize.runtime.persisted.nextSeq) ∧
      (s.materialize.runtime.persisted.active = false →
        RowText cfg s.data (cfg.crdt.content textName s.materialize.runtime.doc))
  | .restoreHistoryVersion _ _ _ _ _ versionId requestId =>
    ∀ version ∈ s.roomStore.getSnapshotVersion versionId,
      Storable cfg s.data requestId (textFromSnapshot cfg version.snapshot)
  | _ => True

instance (cfg : RoomConfig D) (s : RoomServer D) (e : RoomEvent D) : Decidable (Lossless cfg s e) :=
  match e with
  | .layer1 .. | .promote .. | .demote .. | .closingTimer .. | .sweepExpired .. | .closeAll ..
  | .closeDeleted | .compact .. | .restoreHistoryVersion .. => by
    unfold Lossless
    infer_instance
  | .handleUpdate .. | .handleSync .. | .heartbeat .. | .leave .. | .disconnect .. | .restart =>
    isTrue trivial

/-! ### Stored texts -/

variable {cfg : RoomConfig D} {data data' : Store} {text text' : String}

theorem textFromSnapshot_eq (snapshot : D) :
    textFromSnapshot cfg snapshot = cfg.crdt.content textName snapshot := by
  rw [textFromSnapshot, bot_sup_eq]

theorem rowText_of_keepsNote {active : Bool} (hkeeps : KeepsNote cfg active data data')
    (h : RowText cfg data text) : RowText cfg data' text := by
  obtain ⟨hhash, hcontent, -⟩ := hkeeps
  intro file' hfile' hash hash'
  have hmap : (data.getFile cfg.vaultId cfg.fileId).map StoredFile.contentHash
      = some (some hash) := by
    rw [← hhash, hfile', Option.map_some, hash']
  obtain ⟨file, hfile, hfhash⟩ := Option.map_eq_some_iff.mp hmap
  rw [hcontent file hfile hash hfhash]
  exact h file hfile hash hfhash

theorem rowText_setActiveUntil (activeUntil : Option Time) (h : RowText cfg data text) :
    RowText cfg (setActiveUntil cfg.vaultId cfg.fileId activeUntil data) text := by
  intro file hfile hash hhash
  rw [getFile_setActiveUntil] at hfile
  obtain ⟨row, hrow, rfl⟩ := Option.map_eq_some_iff.mp hfile
  rw [getContent_setActiveUntil]
  exact h row hrow hash hhash

theorem rowText_clearActiveUntil (h : RowText cfg data text) :
    RowText cfg (clearActiveUntil cfg.vaultId cfg.fileId data) text := by
  intro file hfile hash hhash
  rw [getFile_clearActiveUntil] at hfile
  obtain ⟨row, hrow, rfl⟩ := Option.map_eq_some_iff.mp hfile
  rw [getContent_clearActiveUntil]
  exact h row hrow hash hhash

/-! ### Ops of the room -/

/-- An op by which the room writes a text to its note. -/
structure WritesText (cfg : RoomConfig D) (op : FileOp) (text : String) : Prop where
  vaultId : op.vaultId = cfg.vaultId
  fileId : op.fileId = cfg.fileId
  deviceId : op.deviceId = "collab:" ++ cfg.fileId
  kind : op.kind = .update
  contentHash : op.contentHash = some (contentHashText cfg.platform text)
  inlineText : op.inlineText = some text

theorem writesText_flushOp (r : Room D) :
    WritesText cfg (r.flushOp cfg) (cfg.crdt.content textName r.runtime.doc) :=
  ⟨rfl, rfl, rfl, rfl, rfl, rfl⟩

theorem writesText_restoreOp (file : StoredFile) (requestId : String) :
    WritesText cfg (Room.restoreOp cfg file text requestId) text :=
  ⟨rfl, rfl, rfl, rfl, rfl, rfl⟩

/-- A vector has the counters of the note's, but for that of the room. -/
def AgreesWithRow (cfg : RoomConfig D) (data : Store) (vv : VersionVector) : Prop :=
  ∀ file ∈ data.getFile cfg.vaultId cfg.fileId, ∀ d, d ≠ "collab:" ++ cfg.fileId →
    VersionVector.counterFor vv d = VersionVector.counterFor file.contentVV d

section

variable {op : FileOp} {now : Time} {uuid : Uuid}

theorem syntheticCollab_of_writesText (h : WritesText cfg op text) : syntheticCollab op = true := by
  simp [syntheticCollab, h.deviceId, h.fileId]

/-- The store after the text of a room's op was checked. -/
theorem checkedContent_of_writesText (h : WritesText cfg op text) :
    checkedContent op data
      = data.putContent (contentHashText cfg.platform text) (encodeText text) := by
  have hne : contentHashText cfg.platform text ≠ "" :=
    ne_empty_of_isValidContentHash (isValidContentHash_contentHash _ _)
  simp [checkedContent, h.inlineText, h.kind, OpKind.isContent, h.contentHash, hne]

theorem getContent_putContent (hash : String) (bytes : Bytes) (other : String) :
    (data.putContent hash bytes).getContent other
      = if hash = other then some bytes else data.getContent other := by
  unfold Store.getContent Store.putContent
  rw [Table.get?_set]
  split <;> rfl

/-- A room's op that is not acknowledged leaves the stored text. -/
theorem keeps_of_not_ack (hop : WritesText cfg op text)
    (hbytes : ∀ bytes ∈ data.getContent (contentHashText cfg.platform text),
      bytes = encodeText text)
    (hnot : ∀ answer, (process cfg.platform now uuid op none data).1 ≠ .ok (.ack answer)) :
    (∀ vaultId fileId, (process cfg.platform now uuid op none data).2.getFile vaultId fileId
        = data.getFile vaultId fileId) ∧
      ∀ {text'}, RowText cfg data text' →
        RowText cfg (process cfg.platform now uuid op none data).2 text' := by
  have hnone : accepted cfg.platform now uuid op none data = none := by
    cases ha : accepted cfg.platform now uuid op none data with
    | none => rfl
    | some applied =>
      rw [process_of_accepted ha] at hnot
      exact absurd rfl (hnot _)
  have hfile := (frame_of_not_accepted hnone).1.getFile
  refine ⟨hfile, ?_⟩
  intro text' h file hrow hash hhash
  rw [hfile] at hrow
  have htext := h file hrow hash hhash
  rcases process_of_not_accepted hnone with hsame | ⟨hchecked, -⟩
  · rw [hsame]
    exact htext
  · rw [hchecked, checkedContent_of_writesText hop, getContent_putContent]
    split
    · next heq =>
      -- what is stored under the hash of the text is the text
      subst heq
      obtain ⟨bytes, hget, hdecode⟩ := Option.map_eq_some_iff.mp htext
      rw [← hbytes bytes hget, Option.map_some, hdecode]
    · exact htext

/-- A room's op that is applied overwrites its row, if the vectors differ for the room
only. -/
theorem file_of_writesText {applied : Applied} (hop : WritesText cfg op text)
    (hvv : AgreesWithRow cfg data (declaredVV op))
    (h : accepted cfg.platform now uuid op none data = some applied) :
    ∃ file, data.getFile cfg.vaultId cfg.fileId = some file ∧
      applied.file = updatedFile now op file := by
  have hrow : opRow op data = data.getFile cfg.vaultId cfg.fileId := by
    rw [opRow, hop.vaultId, hop.fileId]
  have hkind := hop.kind
  cases (accepted_spec h).effect with
  | @updated file tx row => exact ⟨file, hrow ▸ row, rfl⟩
  | @conflicted file tx row kind concurrent =>
    rw [VersionVector.not_isConcurrent_of_agree (hvv file (hrow ▸ row))] at concurrent
    exact absurd concurrent Bool.false_ne_true
  | created kind => simp [hkind] at kind
  | lostRename row kind => simp [hkind] at kind
  | renamed row kind => simp [hkind] at kind
  | deleted row kind => simp [hkind] at kind
  | restored row kind => simp [hkind] at kind

/-- **An acknowledged op of a room has written its text to the note**, and its vector. -/
theorem rowText_of_ack {answer : OpAckResult} (hop : WritesText cfg op text)
    (hstorable : Storable cfg data op.opId text) (hvv : AgreesWithRow cfg data (declaredVV op))
    (h : process cfg.platform now uuid op none data = (.ok (.ack answer), data')) :
    RowText cfg data' text ∧ ∀ row ∈ data'.getFile cfg.vaultId cfg.fileId,
      row.contentVV = declaredVV op := by
  obtain ⟨hfresh, hkeeps, -⟩ := hstorable
  obtain ⟨applied, ha, rfl⟩ := accepted_of_ack (syntheticCollab_of_writesText hop) hfresh h
  have hspec := accepted_spec ha
  obtain ⟨file, -, hfile⟩ := file_of_writesText hop hvv ha
  have hkey : (updatedFile now op file).key = (cfg.vaultId, cfg.fileId) := by
    rw [← hfile, key_of_effect hspec.effect, hop.vaultId, hop.fileId]
  have hget : (commit now op none applied).2.getFile cfg.vaultId cfg.fileId
      = some (updatedFile now op file) := by
    rw [Store.getFile, commit_files, hfile, Table.get?_set, if_pos hkey]
  constructor
  · intro row hrow hash hhash
    obtain rfl : updatedFile now op file = row := by simpa [hget] using hrow
    obtain rfl : contentHashText cfg.platform text = hash := by
      simpa [updatedFile, hop.contentHash] using hhash
    have hcontent : (commit now op none applied).2.getContent (contentHashText cfg.platform text)
        = (checkedContent op data).getContent (contentHashText cfg.platform text) := by
      rw [Store.getContent, Store.getContent, commit_content, hspec.content]
    rw [hcontent, checkedContent_of_writesText hop, getContent_putContent, if_pos rfl,
      Option.map_some, decodeText_encodeText _ hkeeps]
  · intro row hrow
    obtain rfl : updatedFile now op file = row := by simpa [hget] using hrow
    rfl

end

/-! ### The invariant -/

/-- What holds while the room is active: its document descends from the note, and the
vectors it knows are those of the note but for its own counter. -/
structure InRoom (cfg : RoomConfig D) (r : Room D) : Prop where
  text : ∃ d ≤ r.runtime.doc, RowText cfg r.data (cfg.crdt.content textName d)
  base : AgreesWithRow cfg r.data r.runtime.persisted.activationBaseVV
  joined : ∀ participant ∈ r.runtime.participants.rows,
    AgreesWithRow cfg r.data participant.joinedVV

/-- The note is where its text is: in the row, which the snapshot of a dormant room
repeats, or in the document of an active room. -/
structure HandsOver (cfg : RoomConfig D) (r : Room D) : Prop where
  opened : r.runtime.state = .closed → r.runtime.persisted.active = false
  dormant : r.runtime.persisted.active = false → r.runtime.participants.rows = [] ∧
    ∀ snapshot ∈ r.runtime.persisted.snapshot,
      RowText cfg r.data (cfg.crdt.content textName snapshot)
  inRoom : r.runtime.persisted.active = true → InRoom cfg r

theorem agreesWithRow_setActiveUntil {activeUntil : Option Time} {vv : VersionVector}
    (h : AgreesWithRow cfg data vv) :
    AgreesWithRow cfg (setActiveUntil cfg.vaultId cfg.fileId activeUntil data) vv := by
  intro file hfile
  rw [getFile_setActiveUntil] at hfile
  obtain ⟨row, hrow, rfl⟩ := Option.map_eq_some_iff.mp hfile
  exact h row hrow

theorem agreesWithRow_of_keepsNote {vv : VersionVector} (hkeeps : KeepsNote cfg true data data')
    (h : AgreesWithRow cfg data vv) : AgreesWithRow cfg data' vv := by
  intro file' hfile'
  have hmap : (data.getFile cfg.vaultId cfg.fileId).map StoredFile.contentVV
      = some file'.contentVV := by
    rw [← hkeeps.2.2 rfl, hfile', Option.map_some]
  obtain ⟨file, hfile, hvv⟩ := Option.map_eq_some_iff.mp hmap
  rw [← hvv]
  exact h file hfile

variable {r t : Room D}

/-- A dormant room hands over if its snapshot has the stored text. -/
theorem handsOver_of_dormant (hactive : r.runtime.persisted.active = false)
    (hempty : r.runtime.participants.rows = [])
    (htext : ∀ snapshot ∈ r.runtime.persisted.snapshot,
      RowText cfg r.data (cfg.crdt.content textName snapshot)) : HandsOver cfg r :=
  ⟨fun _ => hactive, fun _ => ⟨hempty, htext⟩, fun h => by simp [hactive] at h⟩

theorem handsOver_of_inRoom (hactive : r.runtime.persisted.active = true)
    (hopen : r.runtime.state ≠ .closed) (h : InRoom cfg r) : HandsOver cfg r :=
  ⟨fun hclosed => absurd hclosed hopen, fun h => by simp [hactive] at h, fun _ => h⟩

/-- An active room stays one with more in its document, the same note, and no
participants that know other vectors. -/
theorem InRoom.mono (h : InRoom cfg r) (hdoc : r.runtime.doc ≤ t.runtime.doc)
    (htext : ∀ text, RowText cfg r.data text → RowText cfg t.data text)
    (hvv : ∀ vv, AgreesWithRow cfg r.data vv → AgreesWithRow cfg t.data vv)
    (hbase : t.runtime.persisted.activationBaseVV = r.runtime.persisted.activationBaseVV)
    (hjoined : ∀ p ∈ t.runtime.participants.rows, AgreesWithRow cfg r.data p.joinedVV ∨
      ∃ q ∈ r.runtime.participants.rows, q.joinedVV = p.joinedVV) : InRoom cfg t where
  text := by
    obtain ⟨d, hd, hrow⟩ := h.text
    exact ⟨d, hd.trans hdoc, htext _ hrow⟩
  base := by
    rw [hbase]
    exact hvv _ h.base
  joined := by
    intro p hp
    rcases hjoined p hp with hagrees | ⟨q, hq, hsame⟩
    · exact hvv _ hagrees
    · rw [← hsame]
      exact hvv _ (h.joined q hq)

/-- The vector of a flush has the counters of the note's, but for that of the room. -/
theorem agreesWithRow_flushOp (h : InRoom cfg r) :
    AgreesWithRow cfg r.data (declaredVV (r.flushOp cfg)) := by
  intro file hfile d hd
  have hfold : ∀ (l : List Participant) (vv : VersionVector),
      VersionVector.counterFor vv d = VersionVector.counterFor file.contentVV d →
      (∀ p ∈ l, VersionVector.counterFor p.joinedVV d
        = VersionVector.counterFor file.contentVV d) →
      VersionVector.counterFor (l.foldl (fun vv p => VersionVector.join vv p.joinedVV) vv) d
        = VersionVector.counterFor file.contentVV d := by
    intro l
    induction l with
    | nil => exact fun vv hvv _ => hvv
    | cons p l ih =>
      intro vv hvv hl
      refine ih _ ?_ fun q hq => hl q (List.mem_cons_of_mem _ hq)
      rw [VersionVector.counterFor_join, hvv, hl p List.mem_cons_self, max_self]
  change VersionVector.counterFor (VersionVector.bump _ _) d = _
  rw [VersionVector.counterFor_bump, if_neg hd.symm]
  exact hfold _ _ (h.base file hfile d hd) fun p hp => h.joined p hp file hfile d hd

/-- The vector of a restore has the counters of the note's, but for that of the room. -/
theorem agreesWithRow_restoreOp {file : StoredFile} {requestId : String}
    (hrow : data.getFile cfg.vaultId cfg.fileId = some file) :
    AgreesWithRow cfg data (declaredVV (Room.restoreOp cfg file text requestId)) := by
  intro row hrow' d hd
  obtain rfl : file = row := by simpa [hrow] using hrow'
  change VersionVector.counterFor (VersionVector.bump _ _) d = _
  rw [VersionVector.counterFor_bump, if_neg hd.symm]

/-! ### Promotion -/

section

variable {now : Time} {deviceId userId : String} {clientID connection : ℕ} {file : StoredFile}

theorem agreesWithRow_self (hrow : data.getFile cfg.vaultId cfg.fileId = some file) :
    AgreesWithRow cfg data file.contentVV := by
  intro row hrow' d _
  obtain rfl : file = row := by simpa [hrow] using hrow'
  rfl

/-- A new incarnation starts from the stored text. -/
theorem rowText_activationDoc {snapshot : Option D} (clientID : ℕ)
    (hrow : data.getFile cfg.vaultId cfg.fileId = some file)
    (hsnapshot : ∀ d ∈ snapshot, RowText cfg data (cfg.crdt.content textName d))
    (hinline : snapshot.isNone = true → KeptInline cfg data) :
    RowText cfg data
      (cfg.crdt.content textName (Room.activationDoc cfg clientID snapshot file data)) := by
  cases snapshot with
  | some d =>
    rw [Room.activationDoc, bot_sup_eq]
    exact hsnapshot d rfl
  | none =>
    intro row hrow' hash hhash
    obtain rfl : file = row := by simpa [hrow] using hrow'
    obtain ⟨hne, hstored⟩ := hinline rfl file hrow hash hhash
    have htruthy : truthy (some hash) = true := by simpa using hne
    obtain ⟨bytes, hbytes⟩ := Option.isSome_iff_exists.mp hstored
    simp only [Room.activationDoc, Option.mem_def.mp hhash, htruthy, if_true, Option.getD_some,
      hbytes, bot_sup_eq, Crdt.content_change_bot, Option.map_some]

theorem inRoom_activate (h : HandsOver cfg r) (hactive : r.runtime.persisted.active = false)
    (hrow : r.data.getFile cfg.vaultId cfg.fileId = some file)
    (hinline : r.runtime.persisted.snapshot.isNone = true → KeptInline cfg r.data) :
    InRoom cfg (r.activate cfg now clientID file deviceId) := by
  obtain ⟨hempty, hsnapshot⟩ := h.dormant hactive
  refine ⟨⟨_, le_rfl,
    rowText_setActiveUntil _ (rowText_activationDoc _ hrow hsnapshot hinline)⟩, ?_, ?_⟩
  · exact agreesWithRow_setActiveUntil (agreesWithRow_self hrow)
  · intro p hp
    have hp' : p ∈ r.runtime.participants.rows := hp
    rw [hempty] at hp'
    exact absurd hp' List.not_mem_nil

theorem handsOver_join (hactive : r.runtime.persisted.active = true) (h : InRoom cfg r)
    (hfile : AgreesWithRow cfg r.data file.contentVV) :
    HandsOver cfg (r.join cfg now file deviceId userId connection).room := by
  have hopen : RuntimeState.active ≠ .closed := by decide
  rcases r.join_cases with ⟨e, hroom⟩ | ⟨role, joined, rfl, hroom⟩ <;> rw [hroom]
  · refine handsOver_of_inRoom hactive hopen (h.mono le_rfl (fun _ => rowText_setActiveUntil _)
      (fun _ => agreesWithRow_setActiveUntil) rfl ?_)
    exact fun p hp => Or.inr ⟨p, hp, rfl⟩
  · refine handsOver_of_inRoom hactive hopen (h.mono le_rfl (fun _ => rowText_setActiveUntil _)
      (fun _ => agreesWithRow_setActiveUntil) rfl ?_)
    intro p hp
    rcases Table.mem_set_iff.mp hp with rfl | ⟨hp, -⟩
    · exact Or.inl hfile
    · exact Or.inr ⟨p, hp, rfl⟩

/-- The condition of a promotion. -/
def InlineIfFirst (cfg : RoomConfig D) (r : Room D) : Prop :=
  r.runtime.persisted.active = false → r.runtime.persisted.snapshot.isNone = true →
    KeptInline cfg r.data

omit [SemilatticeSup D] [OrderBot D] in
theorem active_of_not_activates (h : r.activates = false) : r.runtime.persisted.active = true := by
  by_contra hne
  simp [Room.activates, hne] at h

theorem dormant_of_activates (h : HandsOver cfg r) (hactivates : r.activates = true) :
    r.runtime.persisted.active = false := by
  by_contra hne
  have hactive : r.runtime.persisted.active = true := by simpa using hne
  have hclosed : r.runtime.state = .closed := by simpa [Room.activates, hactive] using hactivates
  exact hne (h.opened hclosed)

theorem handsOver_promote (h : HandsOver cfg r) (hinline : InlineIfFirst cfg r) :
    HandsOver cfg (r.promote cfg now clientID deviceId userId connection).room := by
  rcases r.promote_cases with ⟨hroom, -⟩ | ⟨file, hrow, -, hpromote⟩
  · rw [hroom]
    exact h
  · rw [hpromote]
    cases hactivates : r.activates with
    | true =>
      have hactive := dormant_of_activates h hactivates
      exact handsOver_join rfl (inRoom_activate h hactive hrow (hinline hactive))
        (agreesWithRow_setActiveUntil (agreesWithRow_self hrow))
    | false =>
      have hactive := active_of_not_activates hactivates
      exact handsOver_join hactive (h.inRoom hactive) (agreesWithRow_self hrow)

/-- The text of the room state a promotion of a dormant room returns. -/
theorem rowText_promote (h : HandsOver cfg r) (hinline : InlineIfFirst cfg r)
    (hactivates : r.activates = true) {epoch : ℕ} {snapshot : D}
    (hresult : (r.promote cfg now clientID deviceId userId connection).result
      = .ok (.roomState epoch snapshot)) :
    RowText cfg r.data (textFromSnapshot cfg snapshot) := by
  rcases r.promote_cases with ⟨-, -, e, he⟩ | ⟨file, hrow, -, hpromote⟩
  · rw [he] at hresult
    simp at hresult
  · rw [hpromote, hactivates, if_pos rfl] at hresult
    have hactive := dormant_of_activates h hactivates
    have htext := rowText_activationDoc clientID hrow (h.dormant hactive).2 (hinline hactive)
    rcases (r.activate cfg now clientID file deviceId).join_cases with
      ⟨e, hroom⟩ | ⟨role, joined, hjoined, hroom⟩
    · rw [hroom] at hresult
      simp at hresult
    · rw [hroom, Except.ok.injEq] at hresult
      obtain ⟨-, hdoc⟩ := RoomMessage.roomState.inj hresult
      rw [textFromSnapshot_eq, ← hdoc, hjoined]
      exact htext

end

/-! ### Calls on an active room -/

section

variable {now : Time} {deviceId userId : String} {busy : RoomSink → Bool}

theorem handsOver_withParticipant {participant : Participant} (counted : Participant)
    (h : HandsOver cfg r)
    (hactive : r.runtime.persisted.active = true) (hopen : r.runtime.state ≠ .closed)
    (hmem : participant ∈ r.runtime.participants.rows)
    (hsame : counted.joinedVV = participant.joinedVV) :
    HandsOver cfg (r.withParticipant counted) := by
  refine handsOver_of_inRoom hactive hopen ((h.inRoom hactive).mono le_rfl (fun _ => id)
    (fun _ => id) rfl ?_)
  intro p hp
  rcases Table.mem_set_iff.mp hp with rfl | ⟨hp, -⟩
  · exact Or.inr ⟨participant, hmem, hsame.symm⟩
  · exact Or.inr ⟨p, hp, rfl⟩

theorem handsOver_acceptUpdate {participant : Participant} {updateId : ℕ} {update : D}
    (h : HandsOver cfg r) (hactive : r.runtime.persisted.active = true)
    (hopen : r.runtime.state ≠ .closed) :
    HandsOver cfg (r.acceptUpdate cfg busy now participant userId updateId update).room := by
  unfold Room.acceptUpdate
  dsimp only
  split <;>
    exact handsOver_of_inRoom hactive hopen ((h.inRoom hactive).mono le_sup_left
      (fun _ => rowText_setActiveUntil _) (fun _ => agreesWithRow_setActiveUntil) rfl
      fun p hp => Or.inr ⟨p, hp, rfl⟩)

theorem handsOver_handleUpdate {roomEpoch updateId : ℕ} {update : D} (h : HandsOver cfg r) :
    HandsOver cfg (r.handleUpdate cfg busy now deviceId userId roomEpoch updateId update).room := by
  rcases r.handleUpdate_cases with hroom | ⟨participant, hget, hactive, hopen, hcases⟩
  · rw [hroom]
    exact h
  · have hcounted := handsOver_withParticipant (Room.checkRateLimit cfg now participant).1 h hactive
      hopen (Table.get?_eq_some_iff.mp hget).1 (by rw [Room.checkRateLimit_fst])
    rcases hcases with hroom | hallowed
    · rw [hroom]
      exact hcounted
    · rw [Room.handleUpdate_of_allowed hallowed]
      exact handsOver_acceptUpdate hcounted hactive hopen

theorem handsOver_heartbeat {roomEpoch : ℕ} (h : HandsOver cfg r) :
    HandsOver cfg (r.heartbeat cfg now deviceId roomEpoch).room := by
  rcases r.heartbeat_cases with hroom | ⟨hactive, hroom⟩ <;> rw [hroom]
  · exact h
  · have hopen : r.runtime.state ≠ .closed := fun hclosed => by
      simp [h.opened hclosed] at hactive
    exact handsOver_of_inRoom hactive hopen ((h.inRoom hactive).mono le_rfl
      (fun _ => rowText_setActiveUntil _) (fun _ => agreesWithRow_setActiveUntil) rfl
      fun p hp => Or.inr ⟨p, hp, rfl⟩)

theorem handsOver_removeParticipant {participant : Participant} (h : HandsOver cfg r)
    (hget : r.runtime.participants.get? deviceId = some participant) :
    HandsOver cfg (r.removeParticipant participant) := by
  have hmem := (Table.get?_eq_some_iff.mp hget).1
  have hactive : r.runtime.persisted.active = true := by
    by_contra hne
    rw [(h.dormant (by simpa using hne)).1] at hmem
    exact absurd hmem List.not_mem_nil
  have hopen : r.runtime.state ≠ .closed := fun hclosed => by simp [h.opened hclosed] at hactive
  have hjoined : ∀ p ∈ (r.runtime.participants.erase participant.deviceId).rows,
      AgreesWithRow cfg r.data p.joinedVV ∨
        ∃ q ∈ r.runtime.participants.rows, q.joinedVV = p.joinedVV :=
    fun p hp => Or.inr ⟨p, (Table.mem_erase_iff.mp hp).1, rfl⟩
  unfold Room.removeParticipant Room.scheduleClosingIfEmpty
  split
  · exact handsOver_of_inRoom hactive (by simp) ((h.inRoom hactive).mono le_rfl (fun _ => id)
      (fun _ => id) rfl hjoined)
  · exact handsOver_of_inRoom hactive hopen ((h.inRoom hactive).mono le_rfl (fun _ => id)
      (fun _ => id) rfl hjoined)

theorem handsOver_leave {roomEpoch : ℕ} (h : HandsOver cfg r) :
    HandsOver cfg (r.leave deviceId roomEpoch).room := by
  rcases r.leave_cases with hroom | ⟨participant, hget, hroom⟩ <;> rw [hroom]
  · exact h
  · exact handsOver_removeParticipant h hget

theorem handsOver_disconnect (h : HandsOver cfg r) : HandsOver cfg (r.disconnect deviceId) := by
  rcases r.disconnect_cases with ⟨-, hroom⟩ | ⟨participant, hget, hroom⟩ <;> rw [hroom]
  · exact h
  · exact handsOver_removeParticipant h hget

/-! ### Closing -/

variable {uuid : Uuid}

/-- A room's op that is not acknowledged keeps the invariant. -/
theorem handsOver_data (h : HandsOver cfg r)
    (hrow : ∀ vaultId fileId, data.getFile vaultId fileId = r.data.getFile vaultId fileId)
    (htext : ∀ {text}, RowText cfg r.data text → RowText cfg data text) :
    HandsOver cfg { r with data } := by
  have hvv : ∀ vv, AgreesWithRow cfg r.data vv → AgreesWithRow cfg data vv := by
    intro vv hvv file hfile
    rw [hrow] at hfile
    exact hvv file hfile
  refine ⟨h.opened, ?_, ?_⟩
  · intro hactive
    obtain ⟨hempty, hsnapshot⟩ := h.dormant hactive
    exact ⟨hempty, fun snapshot hmem => htext (hsnapshot snapshot hmem)⟩
  · intro hactive
    exact (h.inRoom hactive).mono le_rfl (fun _ => htext) hvv rfl fun p hp => Or.inr ⟨p, hp, rfl⟩

/-- **A flush hands the text of the room over to the note.** -/
theorem handsOver_demoteLocked {reason : RoomClosedReason} (h : HandsOver cfg r)
    (hflush : Flushable cfg r) :
    HandsOver cfg (r.demoteLocked cfg busy now uuid reason).room := by
  rcases r.demoteLocked_cases with
    ⟨-, hroom⟩ | ⟨hactive, ⟨data, hnot, rfl, hroom⟩ | ⟨answer, data, hack, hroom⟩⟩ <;> rw [hroom]
  · exact h
  · obtain ⟨hrow, htext⟩ := keeps_of_not_ack (writesText_flushOp r) (hflush hactive).2.2 hnot
    exact handsOver_data h hrow htext
  · obtain ⟨htext, -⟩ := rowText_of_ack (writesText_flushOp r) (hflush hactive)
      (agreesWithRow_flushOp (h.inRoom hactive)) hack
    refine handsOver_of_dormant rfl rfl ?_
    intro snapshot hsnapshot
    obtain rfl : r.runtime.doc = snapshot := Option.some.inj hsnapshot
    exact rowText_clearActiveUntil (rowText_setActiveUntil _ htext)

theorem handsOver_flush {s : Room D} (h : HandsOver cfg r) (hflush : Flushable cfg r)
    (hs : Room.FlushOf cfg busy now uuid r s) : HandsOver cfg s := by
  rcases hs with rfl | ⟨reason, rfl | ⟨hactive, ⟨e, he⟩, rfl⟩⟩
  · exact h
  · exact handsOver_demoteLocked h hflush
  · -- a flush that failed has left the room open
    have hdemote : HandsOver cfg (r.demoteLocked cfg busy now uuid reason).room :=
      handsOver_demoteLocked h hflush
    have hstill :
        (r.demoteLocked cfg busy now uuid reason).room.runtime.persisted.active = true := by
      rcases r.demoteLocked_cases with
        ⟨hno, -⟩ | ⟨-, ⟨data, -, -, hroom⟩ | ⟨answer, data, hack, -⟩⟩
      · simp [hactive] at hno
      · rw [hroom]
        exact hactive
      · simp [Room.demoteLocked, hactive, hack] at he
    have hin := hdemote.inRoom hstill
    exact handsOver_of_inRoom hstill (by simp) ⟨hin.text, hin.base, hin.joined⟩

theorem handsOver_closeDeleted (h : HandsOver cfg r)
    (hsnapshot : r.runtime.persisted.active = true → ∀ snapshot ∈ r.runtime.persisted.snapshot,
      RowText cfg r.data (cfg.crdt.content textName snapshot)) :
    HandsOver cfg (r.closeDeleted cfg busy).room := by
  unfold Room.closeDeleted Room.closeWithoutFlush
  split
  · next hactive =>
    refine handsOver_of_dormant rfl rfl ?_
    exact fun snapshot hmem =>
      rowText_clearActiveUntil (rowText_setActiveUntil _ (hsnapshot hactive snapshot hmem))
  · exact h

/-! ### History -/

theorem handsOver_compact {throughSeq : Option ℕ} (h : HandsOver cfg r)
    (htext : r.runtime.persisted.active = false →
      RowText cfg r.data (cfg.crdt.content textName r.runtime.doc)) :
    HandsOver cfg (r.compact cfg now throughSeq).room := by
  unfold Room.compact
  refine ⟨h.opened, ?_, ?_⟩
  · intro hactive
    refine ⟨(h.dormant hactive).1, ?_⟩
    intro snapshot hsnapshot
    obtain rfl : r.runtime.doc = snapshot := Option.some.inj hsnapshot
    exact rowText_setActiveUntil _ (htext hactive)
  · intro hactive
    exact (h.inRoom hactive).mono le_rfl (fun _ => rowText_setActiveUntil _)
      (fun _ => agreesWithRow_setActiveUntil) rfl fun p hp => Or.inr ⟨p, hp, rfl⟩

/-- After its text was replaced the document has the text. -/
theorem content_replaceText (cfg : RoomConfig D) (clientID : ℕ) (text : String) (doc : D) :
    cfg.crdt.content textName (doc ⊔ cfg.crdt.diff (⊥ ⊔ doc ⊔ cfg.crdt.change clientID textName text
      (⊥ ⊔ doc)) doc) = text := by
  rw [bot_sup_eq, Crdt.sup_diff_of_le le_sup_left, cfg.crdt.content_change]

theorem handsOver_restoreHistoryVersion {clientID versionId : ℕ} {requestId : String}
    (h : HandsOver cfg r)
    (hstorable : ∀ version ∈ r.roomStore.getSnapshotVersion versionId,
      Storable cfg r.data requestId (textFromSnapshot cfg version.snapshot)) :
    HandsOver cfg (r.restoreHistoryVersion cfg busy now uuid clientID deviceId userId versionId
      requestId).room := by
  rcases r.restoreHistoryVersion_cases with
    hroom | ⟨file, version, hrow, hversion,
      ⟨data, hnot, rfl, hroom⟩ | ⟨answer, data, hack, hroom⟩⟩ <;>
    rw [hroom]
  · exact h
  · obtain ⟨hrow, htext⟩ := keeps_of_not_ack (writesText_restoreOp file requestId)
      (hstorable version hversion).2.2 hnot
    exact handsOver_data h hrow htext
  · obtain ⟨htext, hvv⟩ := rowText_of_ack (writesText_restoreOp file requestId)
      (hstorable version hversion) (agreesWithRow_restoreOp hrow) hack
    have hdoc := content_replaceText cfg clientID (textFromSnapshot cfg version.snapshot)
      r.runtime.doc
    have hagrees : ∀ vv, AgreesWithRow cfg r.data vv → AgreesWithRow cfg data vv := by
      intro vv h row hrow' d hd
      rw [hvv row hrow', h file hrow d hd]
      exact (agreesWithRow_restoreOp hrow file hrow d hd).symm
    have htext' := rowText_setActiveUntil
      (if r.runtime.persisted.active then r.runtime.persisted.leaseUntil else none) htext
    rw [← hdoc] at htext'
    unfold Room.replaceText
    refine ⟨h.opened, ?_, ?_⟩
    · intro hactive
      refine ⟨(h.dormant hactive).1, ?_⟩
      intro snapshot hsnapshot
      obtain rfl := Option.some.inj hsnapshot
      exact htext'
    · intro hactive
      have hin := h.inRoom hactive
      exact ⟨⟨_, le_rfl, htext'⟩, agreesWithRow_setActiveUntil (hagrees _ hin.base),
        fun p hp => agreesWithRow_setActiveUntil (hagrees _ (hin.joined p hp))⟩

end

/-! ### Runs -/

/-- What holds in every state of a lossless run. -/
def HandOffInv (cfg : RoomConfig D) (s : RoomServer D) : Prop :=
  Durable s.materialize ∧ HandsOver cfg s.materialize

theorem compactsMerged_of_lossless {s : RoomServer D} {e : RoomEvent D} (h : Lossless cfg s e) :
    CompactsMerged s e := by
  cases e with
  | compact => exact h.1
  | layer1 | promote | handleUpdate | handleSync | heartbeat | leave | disconnect | demote
  | closeDeleted | closingTimer | sweepExpired | closeAll | restoreHistoryVersion | restart =>
    trivial

/-- An op or a resolution that leaves the content of the note alone. -/
theorem handsOver_layer1 {s : RoomServer D} {event : ServerEvent}
    (h : HandsOver cfg s.materialize) (hc : Lossless cfg s (.layer1 event)) :
    HandsOver cfg (roomStep cfg s (.layer1 event)).materialize := by
  refine ⟨h.opened, ?_, ?_⟩
  · intro hactive
    obtain ⟨hempty, hsnapshot⟩ := h.dormant hactive
    refine ⟨hempty, fun snapshot hmem => ?_⟩
    have hsome : s.materialize.runtime.persisted.snapshot.isSome = true :=
      Option.isSome_of_mem hmem
    exact rowText_of_keepsNote (hc (Or.inr hsome)) (hsnapshot snapshot hmem)
  · intro hactive
    have hkeeps := hc (Or.inl hactive)
    have hactive' : s.materialize.runtime.persisted.active = true := hactive
    rw [hactive'] at hkeeps
    exact (h.inRoom hactive).mono le_rfl (fun _ => rowText_of_keepsNote hkeeps)
      (fun _ => agreesWithRow_of_keepsNote hkeeps) rfl fun p hp => Or.inr ⟨p, hp, rfl⟩

/-- A restart loses the sockets only. -/
theorem handsOver_restart {s : RoomServer D} (hdurable : Durable s.materialize)
    (h : HandsOver cfg s.materialize) : HandsOver cfg (roomStep cfg s .restart).materialize := by
  obtain ⟨hpersisted, hdoc⟩ := loadRuntime_of_durable hdurable
  have hactive_eq : (roomStep cfg s .restart).materialize.runtime.persisted
      = s.materialize.runtime.persisted := hpersisted
  have hdoc_eq : (roomStep cfg s .restart).materialize.runtime.doc
      = s.materialize.runtime.doc := hdoc
  refine ⟨?_, ?_, ?_⟩
  · intro hclosed
    have hstate : (if (loadRuntime s.roomStore).persisted.active = true then RuntimeState.active
        else .closed) = .closed := hclosed
    change (loadRuntime s.roomStore).persisted.active = false
    by_contra hne
    rw [if_pos (by simpa using hne)] at hstate
    exact absurd hstate (by decide)
  · intro hactive
    rw [hactive_eq] at hactive ⊢
    exact ⟨rfl, (h.dormant hactive).2⟩
  · intro hactive
    rw [hactive_eq] at hactive
    have hin := h.inRoom hactive
    refine ⟨?_, ?_, fun p hp => absurd hp List.not_mem_nil⟩
    · rw [hdoc_eq]
      exact hin.text
    · rw [hactive_eq]
      exact hin.base

/-- **A lossless step keeps the note where its text is.** -/
theorem handsOver_roomStep {s : RoomServer D} {e : RoomEvent D} (hinv : HandOffInv cfg s)
    (hc : Lossless cfg s e) : HandOffInv cfg (roomStep cfg s e) := by
  obtain ⟨hdurable, h⟩ := hinv
  refine ⟨durable_roomStep hdurable (compactsMerged_of_lossless hc), ?_⟩
  cases e with
  | layer1 => exact handsOver_layer1 h hc
  | promote => exact handsOver_promote h hc
  | handleUpdate => exact handsOver_handleUpdate h
  | handleSync deviceId roomEpoch stateVector =>
    have hroom := s.materialize.handleSync_room cfg deviceId roomEpoch stateVector
    simpa only [roomStep, materialize_server, hroom] using h
  | heartbeat => exact handsOver_heartbeat h
  | leave => exact handsOver_leave h
  | disconnect => exact materialize_inMemory h (handsOver_disconnect h)
  | demote => exact handsOver_flush h hc (Room.flushOf_demote _)
  | closeDeleted => exact handsOver_closeDeleted h hc
  | closingTimer => exact materialize_inMemory h (handsOver_flush h hc Room.flushOf_closingTimer)
  | sweepExpired => exact materialize_inMemory h (handsOver_flush h hc Room.flushOf_sweepExpired)
  | closeAll => exact materialize_inMemory h (handsOver_flush h hc Room.flushOf_closeAll)
  | compact => exact handsOver_compact h hc.2
  | restoreHistoryVersion => exact handsOver_restoreHistoryVersion h hc
  | restart => exact handsOver_restart hdurable h

theorem handOffInv_initial (data : Store) : HandOffInv cfg ({ data } : RoomServer D) :=
  ⟨durable_initial data, handsOver_of_dormant rfl rfl fun _ h => absurd h (by simp [emptyRoom,
    RoomServer.materialize, loadRuntime])⟩

/-- In a lossless run a promotion returns the stored text. -/
theorem returnsStoredText_of_inv {s : RoomServer D} {e : RoomEvent D} (hinv : HandOffInv cfg s)
    (hc : Lossless cfg s e) : ReturnsStoredText cfg s e := by
  cases e with
  | promote now clientID deviceId userId connection =>
    intro hactivates
    cases hresult : (s.materialize.promote cfg now clientID deviceId userId connection).result with
    | error e => trivial
    | ok message =>
      cases message with
      | roomState epoch snapshot => exact rowText_promote hinv.2 hc hactivates hresult
      | yjsUpdate | yjsAck | roomClosed | historyRestored | error => trivial
  | layer1 | handleUpdate | handleSync | heartbeat | leave | disconnect | demote
  | closeDeleted | closingTimer | sweepExpired | closeAll | compact | restoreHistoryVersion
  | restart => trivial

/-- **The hand-off of lossless runs loses nothing.**  From any store and a room that was
never promoted, if every step is lossless, every promotion that activates the room
returns the text stored for the note, and in every state what a flush would write holds
the version it would write over. -/
theorem returnsStoredText_of_lossless (cfg : RoomConfig D) (data : Store) (es : List (RoomEvent D))
    (h : Run.EachStep (roomStep cfg) (Lossless cfg) { data } es) :
    Run.EachStep (roomStep cfg) (ReturnsStoredText cfg) { data } es ∧
      Run.Throughout (roomStep cfg) (FlushDescends cfg) { data } es := by
  constructor
  · exact Run.eachStep_of_invariant (fun _ _ => handsOver_roomStep)
      (fun _ _ => returnsStoredText_of_inv) (handOffInv_initial data) h
  · have hinv := Run.throughout_of_invariant (fun _ _ => handsOver_roomStep)
      (handOffInv_initial data) h
    exact hinv.mono fun s hs hactive => (hs.2.inRoom hactive).text

end

/-! ### A note that goes back and forth -/

/-- The room of the note of the sample vault, with sets of writes for documents. -/
def sampleRoom : RoomConfig (Finset Write) where
  platform := samplePlatform
  crdt := writes
  vaultId := "v"
  fileId := "f1"
  updateBytes _ := 0
  vectorBytes _ := 0

/-- The note is created with the text "one". -/
def sampleCreate : RoomEvent (Finset Write) :=
  .layer1 (.process 1 sampleUuid (sampleContentOp .create "o1" "d1" "f1" 1 (some "a.md")
    (VersionVector.bump VersionVector.emptyVV "d1") "one") (some "u"))

/-- The note is opened by the second device and closed again. -/
def sampleVisit : List (RoomEvent (Finset Write)) :=
  [sampleCreate, .promote 2 7 "d2" "u" 0, .demote 3 sampleUuid "d2" none .demoted]

/-- The first device has seen the flush, edits the dormant note, and the second one
opens it again. -/
def sampleDormantEdit : List (RoomEvent (Finset Write)) :=
  sampleVisit ++
    [.layer1 (.process 4 sampleUuid (sampleContentOp .update "o2" "d1" "f1" 2 none
        (VersionVector.bump (VersionVector.bump (VersionVector.bump VersionVector.emptyVV "d1")
          "collab:f1") "d1") "two") (some "u")),
     .promote 5 8 "d2" "u" 0]

/-- The room shows "one" although the note says "two". -/
theorem not_returnsStoredText_dormantEdit :
    ¬ Run.EachStep (roomStep sampleRoom) (ReturnsStoredText sampleRoom)
      { data := sampleStore } sampleDormantEdit := by
  rintro ⟨-, -, -, -, h, -⟩
  revert h
  simp only [ReturnsStoredText]
  decide +kernel

/-- A note that is edited in its room, flushed and opened again. -/
theorem returnsStoredText_editInRoom :
    Run.EachStep (roomStep sampleRoom) (ReturnsStoredText sampleRoom) { data := sampleStore }
        [sampleCreate, .promote 2 7 "d2" "u" 0,
          .handleUpdate 3 "d2" "u" 1 1 (writes.change 9 textName "two"
            (writes.change 7 textName "one" ⊥)),
          .demote 4 sampleUuid "d2" none .demoted, .promote 5 8 "d1" "u" 1] ∧
      Run.Throughout (roomStep sampleRoom) (FlushDescends sampleRoom) { data := sampleStore }
        [sampleCreate, .promote 2 7 "d2" "u" 0,
          .handleUpdate 3 "d2" "u" 1 1 (writes.change 9 textName "two"
            (writes.change 7 textName "one" ⊥)),
          .demote 4 sampleUuid "d2" none .demoted, .promote 5 8 "d1" "u" 1] :=
  returnsStoredText_of_lossless sampleRoom sampleStore _ (by decide +kernel)

end ObsidianSync
