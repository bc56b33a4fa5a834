import ObsidianSync.Server.OpSpec
import ObsidianSync.Server.PgStore

/-!
# One op on both stores

`Agree` says that a database and an in-memory store hold the same rows, up to the
time stamps the database sets itself.  From stores that agree, every function of
the op processor gives the same result on both, and leaves them in agreement, as
long as the statements it runs break no constraint.

## Main definitions

* `Agree` — the stores hold the same rows.
* `CanonicalIds` — the ids an op names are written as the database writes them.

## Main results

* `checkDevice_postgres`, `validatePayload_postgres`, `applyOp_postgres`,
  `commit_postgres` — the parts of the processor over both stores.
-/

namespace ObsidianSync

/-- A file row without the time the store last wrote it. -/
def StoredFile.unstamped (file : StoredFile) : StoredFile := { file with updatedAt := 0 }

/-- The same row, up to the time of the last write. -/
def SameRow (file file' : StoredFile) : Prop := file'.unstamped = file.unstamped

theorem SameRow.refl (file : StoredFile) : SameRow file file := rfl

theorem SameRow.eq {file file' : StoredFile} (h : SameRow file file') :
    file' = { file with updatedAt := file'.updatedAt } := by
  cases file
  cases file'
  simpa [SameRow, StoredFile.unstamped] using h

theorem SameRow.fileId {file file' : StoredFile} (h : SameRow file file') :
    file'.fileId = file.fileId := by
  rw [h.eq]

/-- The database and the in-memory store hold the same rows. -/
structure Agree (db : Database) (s : Store) : Prop where
  devices : db.devices = s.devices
  roles : db.roles = s.roles
  files : db.files.rows.map StoredFile.unstamped = s.files.rows.map StoredFile.unstamped
  ops : db.fileOps.rows = s.ops
  blobs : db.blobs = s.blobs
  conflicts : db.conflicts = s.conflicts
  seqs : ∀ vaultId vault, db.vaults.get? vaultId = some vault → s.nextSeq vaultId = vault.2

/-- The ids an op names are in the form the database gives them back in. -/
def CanonicalIds (types : SqlTypes) (op : FileOp) (userId : Option String) : Prop :=
  types.uuid op.opId = some op.opId ∧ types.uuid op.vaultId = some op.vaultId ∧
    types.uuid op.fileId = some op.fileId ∧
    (syntheticCollab op = false → types.uuid op.deviceId = some op.deviceId) ∧
    (truthy userId = true → types.uuid (userId.getD "") = some (userId.getD ""))

instance (types : SqlTypes) (op : FileOp) (userId : Option String) :
    Decidable (CanonicalIds types op userId) :=
  inferInstanceAs (Decidable (_ ∧ _))

/-! ### Reads -/

section Reads

variable {db : Database} {s : Store}

theorem find?_map_unstamped {p : StoredFile → Bool} (hp : ∀ file, p file.unstamped = p file)
    (l : List StoredFile) :
    (l.find? p).map StoredFile.unstamped = (l.map StoredFile.unstamped).find? p := by
  rw [List.find?_map]
  congr 2
  exact funext fun file => (hp file).symm

/-- The stores find the same rows by what they do not stamp. -/
theorem Agree.find? (h : Agree db s) {p : StoredFile → Bool}
    (hp : ∀ file, p file.unstamped = p file) :
    (db.files.rows.find? p).map StoredFile.unstamped
      = (s.files.rows.find? p).map StoredFile.unstamped := by
  rw [find?_map_unstamped hp, find?_map_unstamped hp, h.files]

/-- A read of a database by vault and file, as a search. -/
theorem Database.getFile_eq_find? (db : Database) (vaultId fileId : String) :
    db.getFile vaultId fileId
      = db.files.rows.find? fun file => file.key = (vaultId, fileId) := by
  unfold Database.getFile
  cases hfind : db.files.rows.find? fun file => file.key = (vaultId, fileId) with
  | none =>
    rw [Option.filter_eq_none_iff]
    intro file hfile hvault
    have hmem := Table.mem_of_get? hfile
    refine List.find?_eq_none.mp hfind file hmem ?_
    simpa [StoredFile.key, Table.key_of_get? hfile] using hvault
  | some file =>
    have hkey : file.vaultId = vaultId ∧ file.fileId = fileId := by
      simpa [StoredFile.key] using List.find?_some hfind
    have hget : db.files.get? fileId = some file :=
      Table.get?_eq_some_iff.mpr ⟨List.mem_of_find?_eq_some hfind, hkey.2⟩
    simp [hget, hkey.1]

/-- **Stores that agree give the same rows.** -/
theorem Agree.getFile (h : Agree db s) (vaultId fileId : String) :
    (db.getFile vaultId fileId).map StoredFile.unstamped
      = (s.getFile vaultId fileId).map StoredFile.unstamped := by
  rw [Database.getFile_eq_find?]
  exact h.find? fun _ => rfl

theorem Agree.getFile_some (h : Agree db s) {vaultId fileId : String} {file : StoredFile}
    (hs : s.getFile vaultId fileId = some file) :
    ∃ file', db.getFile vaultId fileId = some file' ∧ SameRow file file' := by
  have := h.getFile vaultId fileId
  rw [hs, Option.map_some, Option.map_eq_some_iff] at this
  exact this

/-- Both stores find a live file at a path, or neither, and it has the same id. -/
theorem Agree.findLiveFileByPath (h : Agree db s) (vaultId pathNormalized : String) :
    (db.findLiveFileByPath vaultId pathNormalized).map StoredFile.unstamped
      = (s.findLiveFileByPath vaultId pathNormalized).map StoredFile.unstamped :=
  h.find? fun _ => rfl

end Reads

/-! ### Parts of the processor -/

section Parts

variable {types : SqlTypes} {P : Platform} {now : Time} {uuid : Uuid} {op : FileOp}
  {db : Database} {s : Store}

theorem bind_postgres {α β : Type} (x : Sql α) (f : α → Sql β) (db : Database) :
    (x >>= f) db = (x db).bind fun r => f r.1 r.2 := rfl

theorem bind_of_eq {α β : Type} {x : Sql α} {f : α → Sql β} {db db' : Database} {a : α}
    (h : x db = some (a, db')) : (x >>= f) db = f a db' := by
  rw [bind_postgres, h]
  rfl

theorem uniquePathFrom_postgres (h : Agree db s) {vaultId : String}
    (hvault : types.uuid vaultId = some vaultId) (desired fileId : String) (fuel n : ℕ)
    (candidate : String) :
    (postgres types now uuid).uniquePathFrom P vaultId desired fileId fuel n candidate db
      = some (uniquePathFrom P s vaultId desired fileId fuel n candidate, db) := by
  induction fuel generalizing n candidate with
  | zero => rfl
  | succ fuel ih =>
    have hread : (postgres types now uuid).findLiveFileByPath vaultId (P.toLowerCase candidate) db
        = some (db.findLiveFileByPath vaultId (P.toLowerCase candidate), db) := by
      simp only [postgres, hvault]
      rfl
    have hagree := h.findLiveFileByPath vaultId (P.toLowerCase candidate)
    rw [OpDataStore.uniquePathFrom, uniquePathFrom, bind_postgres, hread]
    cases hs : s.findLiveFileByPath vaultId (P.toLowerCase candidate) with
    | none =>
      rw [hs, Option.map_none, Option.map_eq_none_iff] at hagree
      rw [hagree]
      rfl
    | some collision =>
      rw [hs, Option.map_some, Option.map_eq_some_iff] at hagree
      obtain ⟨collision', hdb, hsame⟩ := hagree
      have hid : collision'.fileId = collision.fileId := SameRow.fileId hsame
      rw [hdb]
      by_cases hown : collision.fileId = fileId
      · simp only [Option.bind_some, hid, if_pos hown]
        rfl
      · simp only [Option.bind_some, hid, if_neg hown]
        exact ih (n + 1) (suffixPath desired n)

theorem uniquePath_postgres (h : Agree db s) {vaultId : String}
    (hvault : types.uuid vaultId = some vaultId) (desired fileId : String) :
    (postgres types now uuid).uniquePath P vaultId desired fileId db
      = some (uniquePath P s vaultId desired fileId, db) :=
  uniquePathFrom_postgres h hvault desired fileId 9998 2 desired

/-- The blob a reference names has a row. -/
def Known (blobs : Table BlobRecord.hash) (ref : Option String) : Prop :=
  truthy ref = true → (blobs.get? (ref.getD "")).isSome = true

instance (blobs : Table BlobRecord.hash) (ref : Option String) : Decidable (Known blobs ref) :=
  inferInstanceAs (Decidable (_ → _))

/-- A reference to a known blob is written. -/
theorem addBlobRef_postgres {ref : Option String} (hknown : Known db.blobs ref)
    (htruthy : truthy ref = true) (refType : BlobRefType) (refId : String) :
    (postgres types now uuid).addBlobRef { hash := ref.getD "", refType, refId } db
      = some ((), { db with blobRefs := db.blobRefs.set { hash := ref.getD "", refType, refId } })
    := by
  have hblob : (db.blobs.get? (ref.getD "")).isNone = false := by
    rw [← Option.not_isSome, hknown htruthy]
    rfl
  simp only [postgres, Sql.write, Database.insertBlobRef, hblob]
  rfl

theorem updateBlobRefs_postgres (types : SqlTypes) (now : Time) (uuid : Uuid)
    (oldFile : Option StoredFile) {newFile : StoredFile} (hknown : Known db.blobs newFile.blobRef) :
    ∃ refs, (postgres types now uuid).updateBlobRefs oldFile newFile db
      = some ((), { db with blobRefs := refs }) := by
  have hadd : ∀ refs, ∃ refs', (if truthy newFile.blobRef then
      (postgres types now uuid).addBlobRef
        { hash := newFile.blobRef.getD "", refType := .fileLive, refId := newFile.fileId }
      else pure ()) { db with blobRefs := refs } = some ((), { db with blobRefs := refs' }) := by
    intro refs
    by_cases hnew : truthy newFile.blobRef = true
    · rw [if_pos hnew, addBlobRef_postgres (by exact hknown) hnew]
      exact ⟨_, rfl⟩
    · rw [if_neg hnew]
      exact ⟨refs, rfl⟩
  unfold OpDataStore.updateBlobRefs
  cases oldFile with
  | none => exact hadd db.blobRefs
  | some old =>
    by_cases hold : (truthy old.blobRef && decide (old.blobRef ≠ newFile.blobRef)) = true
    · simp only [hold, if_true]
      exact hadd _
    · simp only [hold]
      exact hadd db.blobRefs

theorem addConflictRefs_postgres (types : SqlTypes) (now : Time) (uuid : Uuid)
    (conflictId : String) {ours theirs : Option String} (hours : Known db.blobs ours)
    (htheirs : Known db.blobs theirs) :
    ∃ refs, (postgres types now uuid).addConflictRefs conflictId ours theirs db
      = some ((), { db with blobRefs := refs }) := by
  have hadd : ∀ refs, ∃ refs', (if truthy theirs then
      (postgres types now uuid).addBlobRef
        { hash := theirs.getD "", refType := .conflictSide, refId := conflictId ++ ":theirs" }
      else pure ()) { db with blobRefs := refs } = some ((), { db with blobRefs := refs' }) := by
    intro refs
    by_cases hnew : truthy theirs = true
    · rw [if_pos hnew, addBlobRef_postgres (by exact htheirs) hnew]
      exact ⟨_, rfl⟩
    · rw [if_neg hnew]
      exact ⟨refs, rfl⟩
  unfold OpDataStore.addConflictRefs
  by_cases hold : truthy ours = true
  · rw [if_pos hold, bind_postgres, addBlobRef_postgres hours hold]
    exact hadd _
  · rw [if_neg hold]
    exact hadd db.blobRefs

theorem checkBlob_postgres (h : Agree db s) :
    (postgres types now uuid).checkBlob op db = some (checkBlob op s, db) := by
  unfold OpDataStore.checkBlob checkBlob
  by_cases href : truthy op.blobRef = true
  · have hread : (postgres types now uuid).getBlob (op.blobRef.getD "") db
        = some (s.getBlob (op.blobRef.getD ""), db) := by
      rw [Store.getBlob, ← h.blobs]
      rfl
    rw [if_pos href, if_pos href, bind_postgres, hread]
    cases s.getBlob (op.blobRef.getD "") with
    | none => rfl
    | some blob =>
      by_cases hblob : blob.state ≠ .verified ∨ some blob.size ≠ op.size
      · simp only [Option.bind_some, if_pos hblob]
        rfl
      · simp only [Option.bind_some, if_neg hblob]
        rfl
  · rw [if_neg href, if_neg href]
    rfl

/-- Where the op relies on its content being there, both stores have it or neither. -/
def ContentInBoth (db : Database) (s : Store) (op : FileOp) : Prop :=
  op.contentEncoding.isSome = true → truthy op.blobRef = false →
    (db.noteContent.get? (op.contentHash.getD "")).isSome
      = (s.getContent (op.contentHash.getD "")).isSome

instance (db : Database) (s : Store) (op : FileOp) : Decidable (ContentInBoth db s op) :=
  inferInstanceAs (Decidable (_ → _))

theorem encryptedMissing_postgres (hcontent : ContentInBoth db s op) :
    (postgres types now uuid).encryptedMissing op (op.contentHash.getD "") db
      = some (op.contentEncoding.isSome && !truthy op.blobRef &&
          (s.getContent (op.contentHash.getD "")).isNone, db) := by
  unfold OpDataStore.encryptedMissing
  by_cases henc : (op.contentEncoding.isSome && !truthy op.blobRef) = true
  · have hsame := hcontent (by simp_all) (by simp_all)
    have hnone : (db.noteContent.get? (op.contentHash.getD "")).isNone
        = (s.getContent (op.contentHash.getD "")).isNone := by
      rw [← Option.not_isSome, hsame, Option.not_isSome]
    have hread : (postgres types now uuid).getContent (op.contentHash.getD "") db
        = some ((db.noteContent.get? (op.contentHash.getD "")).map Prod.snd, db) := rfl
    rw [if_pos henc, henc, bind_postgres, hread, ← hnone]
    simp only [Option.bind_some, Option.isNone_map, Bool.true_and]
    rfl
  · rw [if_neg henc, Bool.eq_false_iff.mpr henc]
    rfl

/-- Validation on the database gives what it gives in memory, and keeps at most a text. -/
theorem validateContent_postgres (h : Agree db s) (hcontent : ContentInBoth db s op) :
    ∃ content, (postgres types now uuid).validateContent P op (op.contentHash.getD "") db
      = some ((validateContent P op (op.contentHash.getD "") s).1,
          { db with noteContent := content }) := by
  unfold OpDataStore.validateContent validateContent
  by_cases hvalid : (!isValidContentHash (op.contentHash.getD "")) = true
  · simp only [if_pos hvalid]
    exact ⟨db.noteContent, rfl⟩
  · by_cases hboth : (op.contentEncoding.isSome && op.inlineText.isSome) = true
    · simp only [if_neg hvalid, if_pos hboth]
      exact ⟨db.noteContent, rfl⟩
    · simp only [if_neg hvalid, if_neg hboth, bind_postgres, encryptedMissing_postgres hcontent,
        Option.bind_some]
      by_cases hmissing : (op.contentEncoding.isSome && !truthy op.blobRef &&
          (s.getContent (op.contentHash.getD "")).isNone) = true
      · simp only [if_pos hmissing]
        exact ⟨db.noteContent, rfl⟩
      · simp only [if_neg hmissing]
        cases op.inlineText with
        | none => exact ⟨db.noteContent, checkBlob_postgres h⟩
        | some inlineText =>
          by_cases hhash : contentHashText P inlineText ≠ op.contentHash.getD ""
          · simp only [if_pos hhash]
            exact ⟨db.noteContent, rfl⟩
          · simp only [if_neg hhash]
            obtain ⟨content, hwrite⟩ : ∃ content, (postgres types now uuid).putContent
                (op.contentHash.getD "") (encodeText inlineText) db
                  = some ((), { db with noteContent := content }) := by
              simp only [postgres, Sql.write, Database.insertContent]
              by_cases hstored : (db.noteContent.get? (op.contentHash.getD "")).isSome = true
              · rw [if_pos hstored]
                exact ⟨db.noteContent, rfl⟩
              · rw [if_neg hstored]
                exact ⟨_, rfl⟩
            rw [bind_postgres, hwrite]
            refine ⟨content, ?_⟩
            have hagree : Agree { db with noteContent := content }
                (s.putContent (op.contentHash.getD "") (encodeText inlineText)) :=
              ⟨h.devices, h.roles, h.files, h.ops, h.blobs, h.conflicts, h.seqs⟩
            exact checkBlob_postgres hagree

theorem validatePayload_postgres (h : Agree db s) (hcontent : ContentInBoth db s op) :
    ∃ content, (postgres types now uuid).validatePayload P op db
      = some ((validatePayload P op s).1, { db with noteContent := content }) := by
  unfold OpDataStore.validatePayload validatePayload
  split
  · exact ⟨db.noteContent, rfl⟩
  · split
    · exact ⟨db.noteContent, rfl⟩
    · cases (if truthy op.newPath then normalized P (op.newPath.getD "") else .ok "") with
      | error e => exact ⟨db.noteContent, rfl⟩
      | ok _ =>
        by_cases hhash : (op.kind.isContent && truthy op.contentHash) = true
        · simp only [if_pos hhash]
          exact validateContent_postgres h hcontent
        · simp only [if_neg hhash]
          exact ⟨db.noteContent, rfl⟩

/-- No two logged ops have one device and one sequence. -/
def DeviceSeqsUnique (ops : List StoredOp) : Prop :=
  ∀ a ∈ ops, ∀ b ∈ ops, a.deviceId = b.deviceId → a.deviceSeq = b.deviceSeq → a = b

theorem Agree.getOpByDeviceSeq (h : Agree db s) (hunique : DeviceSeqsUnique s.ops)
    (deviceId : String) (deviceSeq : ℕ) :
    db.getOpByDeviceSeq deviceId deviceSeq = s.getOpByDeviceSeq deviceId deviceSeq := by
  rw [Database.getOpByDeviceSeq, Store.getOpByDeviceSeq, h.ops, Table.find?_reverse]
  intro a ha b hb hpa hpb
  simp only [decide_eq_true_eq] at hpa hpb
  exact hunique a ha b hb (hpa.1.trans hpb.1.symm) (hpa.2.trans hpb.2.symm)

theorem Agree.getOpById (h : Agree db s) (opId : String) :
    db.fileOps.get? opId = s.getOpById opId := by
  rw [Store.getOpById, ← h.ops, Table.find?_reverse]
  · rfl
  · intro a ha b hb hpa hpb
    simp only [decide_eq_true_eq] at hpa hpb
    exact Table.eq_of_key_eq ha hb (hpa.trans hpb.symm)

theorem mayWrite_postgres (h : Agree db s) {vaultId : String} {userId : Option String}
    (hvault : types.uuid vaultId = some vaultId)
    (huser : truthy userId = true → types.uuid (userId.getD "") = some (userId.getD "")) :
    (postgres types now uuid).mayWrite vaultId userId db
      = some (!(truthy userId && !((s.getRole vaultId (userId.getD "")).elim false Role.canWrite)),
          db) := by
  unfold OpDataStore.mayWrite
  by_cases hnamed : truthy userId = true
  · have hread : (postgres types now uuid).getRole vaultId (userId.getD "") db
        = some (s.getRole vaultId (userId.getD ""), db) := by
      rw [Store.getRole, ← h.roles]
      simp only [postgres, hvault, huser hnamed]
      rfl
    rw [if_pos hnamed, bind_postgres, hread]
    simp only [hnamed, Bool.true_and, Bool.not_not]
    rfl
  · simp only [hnamed, Bool.false_and]
    rfl

/-- The checks on the device give the same answer on both stores. -/
theorem checkDevice_postgres (h : Agree db s) (hunique : DeviceSeqsUnique s.ops)
    {userId : Option String} (hids : CanonicalIds types op userId) :
    (postgres types now uuid).checkDevice op userId db = some (deviceOutcome op s userId, db) := by
  obtain ⟨-, hvaultId, -, hdeviceId, huserId⟩ := hids
  unfold OpDataStore.checkDevice deviceOutcome checkDevice opDevice
  by_cases hcollab : syntheticCollab op = true
  · simp only [if_pos hcollab]
    rfl
  · have hread : (postgres types now uuid).getDevice op.deviceId db
        = some (s.getDevice op.deviceId, db) := by
      rw [Store.getDevice, ← h.devices]
      simp only [postgres, hdeviceId (Bool.eq_false_iff.mpr hcollab)]
      rfl
    simp only [if_neg hcollab, bind_postgres, hread, Option.bind_some]
    cases s.getDevice op.deviceId with
    | none => rfl
    | some device =>
      by_cases hvault : device.vaultId ≠ op.vaultId
      · simp only [if_pos hvault]
        rfl
      · by_cases hrevoked : device.revoked = true
        · simp only [if_neg hvault, if_pos hrevoked]
          rfl
        · simp only [if_neg hvault, if_neg hrevoked, bind_postgres,
            mayWrite_postgres h hvaultId huserId, Option.bind_some, Bool.not_not]
          by_cases hrole : (truthy userId &&
              !((s.getRole op.vaultId (userId.getD "")).elim false Role.canWrite)) = true
          · simp only [if_pos hrole]
            rfl
          · simp only [if_neg hrole]
            by_cases hlow : op.deviceSeq < device.lastDeviceSeq + 1
            · have hprior : (postgres types now uuid).getOpByDeviceSeq op.deviceId op.deviceSeq db
                  = some (s.getOpByDeviceSeq op.deviceId op.deviceSeq, db) := by
                rw [← h.getOpByDeviceSeq hunique]
                rfl
              simp only [if_pos hlow, bind_postgres, hprior, Option.bind_some]
              cases s.getOpByDeviceSeq op.deviceId op.deviceSeq <;> rfl
            · by_cases hhigh : op.deviceSeq > device.lastDeviceSeq + 1
              · simp only [if_neg hlow, if_pos hhigh]
                rfl
              · simp only [if_neg hlow, if_neg hhigh]
                rfl

/-! ### The five kinds -/

/-- The database, once the applier has run, next to what it was. -/
structure Applies (db : Database) (applied : Applied) (file' : StoredFile) (db' : Database) :
    Prop where
  same : SameRow applied.file file'
  agree : Agree db' applied.tx
  vaults : db'.vaults = db.vaults
  files : db'.files = db.files
  fileOps : db'.fileOps = db.fileOps

/-- The applier fails on the database as in memory, or writes there what it does in
memory. -/
def Matches (db : Database) (x : Option (OpDataStore.Outcome × Database)) :
    Except Failure Applied → Prop
  | .error e => x = some (.error e, db)
  | .ok applied => ∃ file' db', x = some (.ok (file', applied.conflictId), db') ∧
      Applies db applied file' db'

theorem Agree.blobRefs (h : Agree db s) (refs refs' : Table (id : BlobRef → BlobRef)) :
    Agree { db with blobRefs := refs } { s with blobRefs := refs' } :=
  ⟨h.devices, h.roles, h.files, h.ops, h.blobs, h.conflicts, h.seqs⟩

/-- What moves blob references only leaves the stores in agreement. -/
theorem Agree.refsOnly {tx : Store} (h : Agree db s) (hrefs : RefsOnly s tx)
    (refs : Table (id : BlobRef → BlobRef)) : Agree { db with blobRefs := refs } tx := by
  obtain ⟨refs', rfl⟩ := hrefs
  exact h.blobRefs refs refs'

/-- Where the file has no conflict yet, both stores open the same one. -/
theorem createConflict_postgres (now : Time) (h : Agree db s) {vaultId fileId : String}
    (hvaultId : types.uuid vaultId = some vaultId) (hfileId : types.uuid fileId = some fileId)
    (hnone : ∀ conflict ∈ s.conflicts.rows, conflict.fileId ≠ fileId)
    (hfresh : s.getConflict uuid.1 = none) (hvault : (db.vaults.get? vaultId).isSome = true)
    (hfile : (db.files.get? fileId).isSome = true) (kind : ConflictKind)
    (baseHash oursHash theirsHash : Option String) (oursVV theirsVV : Option VersionVector) :
    ∃ conflicts, (postgres types now uuid).createConflict vaultId fileId kind baseHash oursHash
        theirsHash oursVV theirsVV db
      = some ((s.createConflict uuid vaultId fileId kind baseHash oursHash theirsHash oursVV
          theirsVV).1, { db with conflicts }) ∧
      (s.createConflict uuid vaultId fileId kind baseHash oursHash theirsHash oursVV theirsVV).2
        = { s with conflicts } := by
  have hdb : db.conflicts.rows.find? (fun existing =>
      decide (existing.fileId = fileId ∧ existing.kind = kind ∧
        existing.oursHash.getD "" = oursHash.getD "" ∧
        existing.theirsHash.getD "" = theirsHash.getD "" ∧ existing.status ≠ .resolved))
      = none := by
    rw [h.conflicts, List.find?_eq_none]
    intro conflict hmem hsame
    exact hnone conflict hmem (by simpa using (decide_eq_true_eq.mp hsame).1)
  have hs : s.conflicts.rows.find? (fun existing =>
      decide (existing.fileId = fileId ∧ existing.kind = kind ∧ existing.oursHash = oursHash ∧
        existing.theirsHash = theirsHash ∧ existing.status ≠ .resolved)) = none := by
    rw [List.find?_eq_none]
    intro conflict hmem hsame
    exact hnone conflict hmem (by simpa using (decide_eq_true_eq.mp hsame).1)
  have hallowed : ((db.vaults.get? vaultId).isNone || (db.files.get? fileId).isNone ||
      (db.conflicts.get? uuid.1).isSome) = false := by
    rw [← Option.not_isSome, hvault, ← Option.not_isSome, hfile, h.conflicts]
    rw [show s.conflicts.get? uuid.1 = none from hfresh]
    rfl
  let opened : ConflictRecord :=
    { conflictId := uuid.1, vaultId, fileId, kind, baseHash, oursHash, theirsHash, oursVV,
      theirsVV, status := .opened }
  refine ⟨s.conflicts.set opened, ?_, ?_⟩
  · simp only [postgres, hvaultId, hfileId, Store.createConflict, hs]
    show db.insertConflict uuid vaultId fileId kind baseHash oursHash theirsHash oursVV theirsVV = _
    simp only [Database.insertConflict, hdb, hallowed]
    rw [h.conflicts]
    rfl
  · simp only [Store.createConflict, hs]
    rfl

/-- What the statements of an applier need of the stores before the op. -/
structure Writable (types : SqlTypes) (db : Database) (s : Store) (uuid : Uuid) (op : FileOp) :
    Prop where
  vaultId : types.uuid op.vaultId = some op.vaultId
  fileId : types.uuid op.fileId = some op.fileId
  vault : (db.vaults.get? op.vaultId).isSome = true
  opBlob : Known db.blobs op.blobRef
  fresh : s.getConflict uuid.1 = none

/-- What they need of the row besides. -/
structure WritableRow (db : Database) (s : Store) (op : FileOp) (file : StoredFile) : Prop where
  blob : Known db.blobs file.blobRef
  stored : (db.files.get? op.fileId).isSome = true
  noConflict : ∀ conflict ∈ s.conflicts.rows, conflict.fileId ≠ op.fileId

theorem applyUpdate_postgres (h : Agree db s) (hop : Writable types db s uuid op)
    {file file' : StoredFile} (hsame : SameRow file file') (hrow : WritableRow db s op file) :
    Matches db ((postgres types now uuid).applyUpdate now op file' db)
      (applyUpdate now uuid op file s) := by
  unfold OpDataStore.applyUpdate applyUpdate
  have hvv : file'.contentVV = file.contentVV := by rw [hsame.eq]
  have hhash : file'.contentHash = file.contentHash := by rw [hsame.eq]
  have hblob : file'.blobRef = file.blobRef := by rw [hsame.eq]
  rw [hvv, hhash, hblob]
  by_cases hdominates : (!VersionVector.dominates (op.newContentVV.getD VersionVector.emptyVV)
      file.contentVV) = true
  · by_cases hconcurrent : VersionVector.isConcurrent
        (op.newContentVV.getD VersionVector.emptyVV) file.contentVV = true
    · obtain ⟨conflicts, hpg, hmem⟩ := createConflict_postgres now h hop.vaultId hop.fileId
        hrow.noConflict hop.fresh hop.vault hrow.stored
        (if op.type = .attachment then .attachment else .content) op.contentHash
        file.contentHash (op.contentHash.or op.blobRef) (some file.contentVV)
        (some (op.newContentVV.getD VersionVector.emptyVV))
      simp only [if_pos hdominates, if_pos hconcurrent, bind_postgres, hpg, Option.bind_some]
      generalize hconflict : s.createConflict uuid op.vaultId op.fileId _ _ _ _ _ _ = opened
        at hmem ⊢
      have hknown : Known ({ db with conflicts } : Database).blobs file.blobRef := hrow.blob
      obtain ⟨refs, hrefs⟩ := addConflictRefs_postgres types now uuid opened.1.conflictId hknown
        hop.opBlob
      rw [hrefs]
      refine ⟨_, _, rfl, ?_, ?_, rfl, rfl, rfl⟩
      · rw [hsame.eq]
        rfl
      · have hagree : Agree { db with conflicts } opened.2 := by
          rw [hmem]
          exact ⟨h.devices, h.roles, h.files, h.ops, h.blobs, rfl, h.seqs⟩
        exact hagree.refsOnly (refsOnly_addConflictRefs _ _ _ _) refs
    · simp only [if_pos hdominates, if_neg hconcurrent]
      rfl
  · have hupdated : SameRow (updatedFile now op file) (updatedFile now op file') := by
      rw [hsame.eq]
      rfl
    obtain ⟨refs, hrefs⟩ := updateBlobRefs_postgres types now uuid (some file')
      (show Known db.blobs (updatedFile now op file').blobRef from hop.opBlob)
    have hagree := h.refsOnly (refsOnly_updateBlobRefs s (some file) (updatedFile now op file)) refs
    simp only [if_neg hdominates, bind_postgres]
    refine ⟨updatedFile now op file', { db with blobRefs := refs }, ?_, hupdated, hagree, rfl, rfl,
      rfl⟩
    rw [← hhash]
    exact congrArg (Option.bind · _) hrefs

theorem createNew_postgres (h : Agree db s) (hop : Writable types db s uuid op) :
    Matches db ((postgres types now uuid).createNew P now op db)
      (applyCreate P now uuid op none s) := by
  unfold OpDataStore.createNew applyCreate
  cases normalized P (op.newPath.getD op.fileId) with
  | error e => rfl
  | ok desired =>
    simp only [bind_postgres, uniquePath_postgres h hop.vaultId, Option.bind_some]
    cases uniquePath P s op.vaultId desired op.fileId with
    | error e => rfl
    | ok path =>
      let file := newStoredFile P now op path
        (op.pathClock.getD { lamport := 1, deviceId := op.deviceId })
      obtain ⟨refs, hrefs⟩ := updateBlobRefs_postgres types now uuid none
        (show Known db.blobs file.blobRef from hop.opBlob)
      exact ⟨file, { db with blobRefs := refs }, congrArg (Option.bind · _) hrefs,
        SameRow.refl file, h.refsOnly (refsOnly_updateBlobRefs s none file) refs, rfl, rfl, rfl⟩

theorem applyCreate_postgres (h : Agree db s) (hop : Writable types db s uuid op)
    {existing existing' : Option StoredFile}
    (hsame : existing'.map StoredFile.unstamped = existing.map StoredFile.unstamped)
    (hrow : ∀ file, existing = some file → WritableRow db s op file) :
    Matches db ((postgres types now uuid).applyCreate P now op existing' db)
      (applyCreate P now uuid op existing s) := by
  cases existing with
  | none =>
    rw [Option.map_none, Option.map_eq_none_iff] at hsame
    rw [hsame]
    exact createNew_postgres h hop
  | some file =>
    rw [Option.map_some, Option.map_eq_some_iff] at hsame
    obtain ⟨file', rfl, hsame⟩ := hsame
    have hdeleted : file'.deleted = file.deleted := by rw [SameRow.eq hsame]
    unfold OpDataStore.applyCreate
    by_cases hlive : (!file.deleted) = true
    · simp only [applyCreate, hdeleted, if_pos hlive]
      exact applyUpdate_postgres h hop hsame (hrow file rfl)
    · simp only [applyCreate, hdeleted, if_neg hlive]
      exact createNew_postgres h hop

theorem applyRename_postgres (h : Agree db s) (hvault : types.uuid op.vaultId = some op.vaultId)
    {file file' : StoredFile} (hsame : SameRow file file') :
    Matches db ((postgres types now uuid).applyRename P now op file' db)
      (applyRename P now op file s) := by
  have hclock : file'.pathClock = file.pathClock := by rw [hsame.eq]
  have hpath : file'.path = file.path := by rw [hsame.eq]
  unfold OpDataStore.applyRename applyRename
  cases requiredPathClock op.pathClock with
  | error e => rfl
  | ok incoming =>
    rw [hclock, hpath]
    by_cases hwins : (!pathClockWins incoming file.pathClock) = true
    · simp only [if_pos hwins]
      exact ⟨file', db, rfl, hsame, h, rfl, rfl, rfl⟩
    · simp only [if_neg hwins]
      cases normalized P (op.newPath.getD file.path) with
      | error e => rfl
      | ok desired =>
        simp only [bind_postgres, uniquePath_postgres h hvault, Option.bind_some]
        cases uniquePath P s op.vaultId desired op.fileId with
        | error e => rfl
        | ok path =>
          refine ⟨renamedFile P now file' path incoming, db, rfl, ?_, h, rfl, rfl, rfl⟩
          rw [hsame.eq]
          rfl

theorem Known.or {blobs : Table BlobRecord.hash} {a b : Option String} (ha : Known blobs a)
    (hb : Known blobs b) : Known blobs (a.or b) := by
  cases a with
  | none => exact hb
  | some hash => exact ha

theorem applyRestore_postgres (h : Agree db s) (hop : Writable types db s uuid op)
    {file file' : StoredFile} (hsame : SameRow file file') (hrow : Known db.blobs file.blobRef) :
    Matches db ((postgres types now uuid).applyRestore P now op file' db)
      (applyRestore P now op file s) := by
  have hpath : file'.path = file.path := by rw [hsame.eq]
  have hblob : file'.blobRef = file.blobRef := by rw [hsame.eq]
  unfold OpDataStore.applyRestore applyRestore
  rw [hpath]
  cases normalized P (op.newPath.getD file.path) with
  | error e => rfl
  | ok desired =>
    simp only [bind_postgres, uniquePath_postgres h hop.vaultId, Option.bind_some]
    cases uniquePath P s op.vaultId desired op.fileId with
    | error e => rfl
    | ok path =>
      have hknown : Known db.blobs (restoredFile P now op file' path).blobRef :=
        hop.opBlob.or (hblob ▸ hrow)
      obtain ⟨refs, hrefs⟩ := updateBlobRefs_postgres types now uuid (some file') hknown
      have hrestored : SameRow (restoredFile P now op file path)
          (restoredFile P now op file' path) := by
        rw [hsame.eq]
        rfl
      exact ⟨restoredFile P now op file' path, { db with blobRefs := refs },
        congrArg (Option.bind · _) hrefs, hrestored,
        h.refsOnly (refsOnly_updateBlobRefs s (some file) (restoredFile P now op file path)) refs,
        rfl, rfl, rfl⟩

/-- What the statements of an op's applier need, given the row of its file. -/
structure WritableOp (types : SqlTypes) (db : Database) (s : Store) (uuid : Uuid) (op : FileOp)
    (file : Option StoredFile) : Prop where
  vaultId : types.uuid op.vaultId = some op.vaultId
  content : op.kind.isContent = true → Writable types db s uuid op
  row : op.kind.isContent = true → truthy (file.bind StoredFile.conflictId) = false →
    ∀ row, file = some row → WritableRow db s op row

/-- Both rows are there, and the same, or neither is. -/
theorem rows_of_same {file file' : Option StoredFile}
    (hsame : file'.map StoredFile.unstamped = file.map StoredFile.unstamped) :
    (file = none ∧ file' = none)
      ∨ ∃ row row', file = some row ∧ file' = some row' ∧ SameRow row row' := by
  cases file with
  | none =>
    rw [Option.map_none, Option.map_eq_none_iff] at hsame
    exact Or.inl ⟨rfl, hsame⟩
  | some row =>
    rw [Option.map_some, Option.map_eq_some_iff] at hsame
    obtain ⟨row', hrow', hsame⟩ := hsame
    exact Or.inr ⟨row, row', rfl, hrow', hsame⟩

/-- **Applying an op gives on the database what it gives in memory.** -/
theorem applyOp_postgres (now : Time) (h : Agree db s) {file file' : Option StoredFile}
    (hop : WritableOp types db s uuid op file)
    (hsame : file'.map StoredFile.unstamped = file.map StoredFile.unstamped) :
    Matches db ((postgres types now uuid).applyOp P now op file' db)
      (applyOp P now uuid op file s) := by
  -- the guards do not look at the stamp
  have hactive : file'.any (isActive now) = file.any (isActive now) := by
    have hstamp : ∀ file : Option StoredFile,
        file.any (isActive now) = (file.map StoredFile.unstamped).any (isActive now) := by
      rintro (_ | file) <;> rfl
    rw [hstamp, hsame, ← hstamp]
  have hconflict : file'.bind StoredFile.conflictId = file.bind StoredFile.conflictId := by
    have hstamp : ∀ file : Option StoredFile,
        file.bind StoredFile.conflictId
          = (file.map StoredFile.unstamped).bind StoredFile.conflictId := by
      rintro (_ | file) <;> rfl
    rw [hstamp, hsame, ← hstamp]
  unfold OpDataStore.applyOp applyOp
  rw [hactive, hconflict]
  split
  · rfl
  split
  · rfl
  next hfrozen =>
  have hwritable : op.kind.isContent = true → ∀ row, file = some row → WritableRow db s op row := by
    intro hcontent
    refine hop.row hcontent (Bool.eq_false_iff.mpr fun htruthy => hfrozen ?_)
    rw [htruthy, hcontent]
    rfl
  have hcontent : op.kind = .create ∨ op.kind = .update ∨ op.kind = .restore →
      op.kind.isContent = true := by
    rintro (hkind | hkind | hkind) <;> rw [hkind] <;> rfl
  rcases rows_of_same hsame with ⟨rfl, rfl⟩ | ⟨row, row', rfl, rfl, hrow⟩
  · cases hkind : op.kind with
    | create => exact applyCreate_postgres h (hop.content (hcontent (.inl hkind))) rfl (by simp)
    | update | rename | delete | restore => rfl
  · cases hkind : op.kind with
    | create =>
      have hc := hcontent (.inl hkind)
      exact applyCreate_postgres h (hop.content hc) hsame (hwritable hc)
    | update =>
      have hc := hcontent (.inr (.inl hkind))
      exact applyUpdate_postgres h (hop.content hc) hrow (hwritable hc row rfl)
    | rename => exact applyRename_postgres h hop.vaultId hrow
    | delete =>
      refine ⟨applyDelete now op row', db, rfl, ?_, h, rfl, rfl, rfl⟩
      rw [hrow.eq]
      rfl
    | restore =>
      have hc := hcontent (.inr (.inr hkind))
      exact applyRestore_postgres h (hop.content hc) hrow (hwritable hc row rfl).blob

/-! ### The commit -/

/-- What the statements of a commit need: the file is of the op's own vault, no row of
another vault has its id, no other live file has its path, and the log has no row with
the keys of the op. -/
structure Committable (types : SqlTypes) (db : Database) (op : FileOp)
    (device : Option StoredDevice) (file : StoredFile) : Prop where
  opId : types.uuid op.opId = some op.opId
  vaultId : types.uuid op.vaultId = some op.vaultId
  fileId : types.uuid op.fileId = some op.fileId
  deviceId : ∀ d ∈ device, types.uuid d.deviceId = some d.deviceId ∧
    db.devices.get? d.deviceId = some d
  vault : (db.vaults.get? op.vaultId).isSome = true
  key : file.key = (op.vaultId, op.fileId)
  own : ∀ row ∈ db.files.rows, row.fileId = op.fileId → row.vaultId = op.vaultId ∧
    row.type = file.type
  path : db.livePathTaken file = false
  takes : types.takes file = true
  logged : ∀ logged ∈ db.fileOps.rows, ¬ (logged.vaultId = op.vaultId ∧
    some logged.seq = (db.vaults.get? op.vaultId).map Prod.snd) ∧ logged.opId ≠ op.opId ∧
    ¬ (logged.deviceId = op.deviceId ∧ logged.deviceSeq = op.deviceSeq)
  payload : types.jsonb op = true

/-- Where the row of the file is of the same vault and type, the database stores what it
is given. -/
theorem upserted_of_own {file : StoredFile} (hown : ∀ row ∈ db.files.rows,
    row.fileId = file.fileId → row.vaultId = file.vaultId ∧ row.type = file.type) :
    db.upserted now file = { file with updatedAt := now } := by
  unfold Database.upserted
  cases hrow : db.files.get? file.fileId with
  | none => rfl
  | some row =>
    obtain ⟨hvault, htype⟩ := hown row (Table.mem_of_get? hrow) (Table.key_of_get? hrow)
    simp only [hvault, htype]

/-- Writing the row of a file keeps the files in agreement. -/
theorem files_upserted (h : Agree db s) {file file' : StoredFile} (hsame : SameRow file file')
    (hown : ∀ row ∈ db.files.rows, row.fileId = file.fileId → row.vaultId = file.vaultId) :
    (db.files.set { file' with updatedAt := now }).rows.map StoredFile.unstamped
      = (s.files.set file).rows.map StoredFile.unstamped := by
  have hid : ∀ row : StoredFile, row.unstamped.fileId = row.fileId := fun _ => rfl
  have hkey : ∀ row : StoredFile, row.unstamped.key = row.key := fun _ => rfl
  show (Table.setRows StoredFile.fileId _ _).map _ = (Table.setRows StoredFile.key _ _).map _
  rw [Table.map_setRows hid, Table.map_setRows hkey, ← h.files,
    show ({ file' with updatedAt := now } : StoredFile).unstamped = file.unstamped from hsame]
  refine Table.setRows_congr ?_
  intro row hrow
  obtain ⟨row, hmem, rfl⟩ := List.mem_map.mp hrow
  constructor
  · intro hid
    exact Prod.ext (hown row hmem hid) hid
  · intro hkey
    exact (Prod.mk.inj hkey).2

/-- The row of a file of the op's own vault is written as it is. -/
theorem saveFile_postgres {file : StoredFile}
    (hvaultId : types.uuid file.vaultId = some file.vaultId)
    (hfileId : types.uuid file.fileId = some file.fileId)
    (hvault : (db.vaults.get? file.vaultId).isSome = true)
    (hown : ∀ row ∈ db.files.rows,
      row.fileId = file.fileId → row.vaultId = file.vaultId ∧ row.type = file.type)
    (hpath : db.livePathTaken file = false) (htakes : types.takes file = true) :
    (postgres types now uuid).saveFile file db
      = some ((), { db with files := db.files.set { file with updatedAt := now } }) := by
  have hfree : db.livePathTaken { file with updatedAt := now } = false := hpath
  have hknown : (db.vaults.get? file.vaultId).isNone = false := by
    rw [← Option.not_isSome, hvault]
    rfl
  simp only [postgres, hvaultId, hfileId]
  show (db.upsertFile types now file).map _ = _
  rw [Database.upsertFile, upserted_of_own hown, hfree, hknown, Bool.and_false, htakes]
  rfl

/-- An entry none of whose keys is taken is logged. -/
theorem appendOp_postgres {logged : StoredOp}
    (hvaultId : types.uuid logged.vaultId = some logged.vaultId)
    (hopId : types.uuid logged.opId = some logged.opId)
    (hfileId : types.uuid logged.fileId = some logged.fileId)
    (hvault : (db.vaults.get? logged.vaultId).isSome = true)
    (hpayload : types.jsonb logged.payload = true) (hfree : db.opTaken logged = false) :
    (postgres types now uuid).appendOp logged db
      = some ((), { db with fileOps := db.fileOps.set logged }) := by
  have hknown : (db.vaults.get? logged.vaultId).isNone = false := by
    rw [← Option.not_isSome, hvault]
    rfl
  simp only [postgres, hvaultId, hopId, hfileId]
  show (db.insertOp types logged).map _ = _
  rw [Database.insertOp, hfree, hpayload, hknown]
  rfl

theorem appendOutbox_postgres {vaultId : String} (hvaultId : types.uuid vaultId = some vaultId)
    (vaultSeq : ℕ) {payload : AppliedOp} (hpayload : types.jsonb payload.op = true) :
    ∃ outbox, (postgres types now uuid).appendOutbox vaultId vaultSeq payload db
      = some ((), { db with outbox }) := by
  simp only [postgres, hvaultId]
  show ∃ outbox, (db.insertOutbox types { vaultId, vaultSeq, payload }).map _ = _
  simp only [Database.insertOutbox, hpayload]
  by_cases hqueued : (db.outbox.get? (vaultId, vaultSeq)).isSome = true
  · exact ⟨db.outbox, by simp only [OutboxRow.key, hqueued]; rfl⟩
  · exact ⟨_, by simp only [OutboxRow.key, hqueued]; rfl⟩

/-- A device that is stored is moved forward. -/
theorem saveDevice_postgres {device : StoredDevice}
    (hdeviceId : types.uuid device.deviceId = some device.deviceId)
    (hstored : db.devices.get? device.deviceId = some device) (lastDeviceSeq lastSeq : ℕ) :
    (postgres types now uuid).saveDevice
        { device with lastDeviceSeq, lastSeq, lastSeen := some now } db
      = some ((), { db with
          devices := db.devices.set
            { device with lastDeviceSeq, lastSeq, lastSeen := some now } }) := by
  simp only [postgres, hdeviceId]
  show some ((), Database.updateDevice _ now _) = _
  simp only [Database.updateDevice, hstored]

/-- The log entry of the commit has no key in common with the log. -/
theorem not_opTaken_of_committable {file : StoredFile} {device : Option StoredDevice}
    (hc : Committable types db op device file) {vault : String × ℕ}
    (hvault : db.vaults.get? op.vaultId = some vault) {logged : StoredOp}
    (hvaultId : logged.vaultId = op.vaultId) (hseq : logged.seq = vault.2)
    (hopId : logged.opId = op.opId)
    (hdevice : logged.deviceId = op.deviceId ∧ logged.deviceSeq = op.deviceSeq) :
    db.opTaken logged = false := by
  refine Bool.eq_false_iff.mpr fun htaken => ?_
  obtain ⟨row, hrow, hkey⟩ := List.any_eq_true.mp htaken
  obtain ⟨hfreeSeq, hfreeId, hfreeDevice⟩ := hc.logged row hrow
  rw [decide_eq_true_eq, hvaultId, hseq, hopId, hdevice.1, hdevice.2] at hkey
  rcases hkey with ⟨hv, hs⟩ | hid | hboth
  · exact hfreeSeq ⟨hv, by rw [hvault, hs]; rfl⟩
  · exact hfreeId hid
  · exact hfreeDevice hboth

/-- **A commit on the database does what it does in memory**, and writes the one row. -/
theorem commit_postgres (now : Time) (uuid : Uuid) {applied : Applied} {file' : StoredFile}
    {device : Option StoredDevice} (h : Agree db applied.tx) (hsame : SameRow applied.file file')
    (hc : Committable types db op device file') :
    ∃ ack db', (postgres types now uuid).commit now op device file' applied.conflictId db
        = some (ack, db') ∧
      Agree db' (commit now op device applied).2 ∧
      db'.files = db.files.set { file' with updatedAt := now } := by
  obtain ⟨vault, hvault⟩ := Option.isSome_iff_exists.mp hc.vault
  obtain ⟨hvaultId, hfileId⟩ := Prod.mk.inj hc.key
  let ack : OpAckResult :=
    { opId := op.opId, vaultSeq := vault.2, resultingClocks := clocks file',
      conflictId := applied.conflictId }
  let logged : StoredOp :=
    { vaultId := op.vaultId, seq := vault.2, opId := op.opId, deviceId := op.deviceId,
      deviceSeq := op.deviceSeq, fileId := op.fileId, kind := op.kind, payload := op,
      result := .ack ack, createdAt := now }
  -- the database after each statement
  let db₁ : Database := { db with vaults := db.vaults.set (op.vaultId, vault.2 + 1) }
  let db₂ : Database := { db₁ with files := db.files.set { file' with updatedAt := now } }
  let db₃ : Database := { db₂ with fileOps := db.fileOps.set logged }
  have hvaults : (db₁.vaults.get? op.vaultId).isSome = true := by
    rw [show db₁.vaults.get? op.vaultId = some (op.vaultId, vault.2 + 1) from
      Table.get?_set_self db.vaults _]
    rfl
  have hseq : (postgres types now uuid).nextVaultSeq op.vaultId db = some (vault.2, db₁) := by
    simp only [postgres, hc.vaultId]
    show db.nextVaultSeq op.vaultId = _
    rw [Database.nextVaultSeq, hvault]
    rfl
  have hsave : (postgres types now uuid).saveFile file' db₁ = some ((), db₂) := by
    refine saveFile_postgres (hvaultId.symm ▸ hc.vaultId) (hfileId.symm ▸ hc.fileId)
      (hvaultId.symm ▸ hvaults) (fun row hrow hid => ?_) hc.path hc.takes
    rw [hvaultId]
    exact hc.own row hrow (hid.trans hfileId)
  have hlog : (postgres types now uuid).appendOp logged db₂ = some ((), db₃) :=
    appendOp_postgres hc.vaultId hc.opId hc.fileId hvaults hc.payload
      (not_opTaken_of_committable hc hvault rfl rfl rfl ⟨rfl, rfl⟩)
  obtain ⟨outbox, hqueue⟩ : ∃ outbox, (postgres types now uuid).appendOutbox op.vaultId vault.2
      { vaultSeq := vault.2, op, resultingClocks := clocks file' } db₃
        = some ((), { db₃ with outbox }) := appendOutbox_postgres hc.vaultId vault.2 hc.payload
  have hnext : applied.tx.nextSeq op.vaultId = vault.2 := h.seqs op.vaultId vault hvault
  have hagree : ∀ devices, devices = (commit now op device applied).2.devices →
      Agree { db₃ with outbox, devices } (commit now op device applied).2 := by
    rintro devices rfl
    refine ⟨rfl, ?_, ?_, ?_, ?_, ?_, ?_⟩
    · rw [commit_roles]
      exact h.roles
    · rw [commit_files]
      refine files_upserted h hsame fun row hrow hid => ?_
      rw [hsame.fileId.symm, hfileId] at hid
      rw [show applied.file.vaultId = file'.vaultId by rw [hsame.eq], hvaultId]
      exact (hc.own row hrow hid).1
    · have hclocks : clocks file' = clocks applied.file := by
        rw [hsame.eq]
        rfl
      rw [commit_ops, ← h.ops, hnext]
      show Table.setRows StoredOp.opId logged db.fileOps.rows = _
      rw [Table.setRows_of_fresh fun row hrow => (hc.logged row hrow).2.1]
      simp only [logged, ack, loggedOp, ackOf, hclocks]
    · rw [commit_blobs]
      exact h.blobs
    · rw [commit_conflicts]
      exact h.conflicts
    · intro vaultId row hrow
      have hset : (db.vaults.set (op.vaultId, vault.2 + 1)).get? vaultId = some row := hrow
      rw [Table.get?_set] at hset
      rw [commit_nextSeq]
      by_cases hown : op.vaultId = vaultId
      · rw [if_pos hown, Option.some.injEq] at hset
        rw [if_pos hown, ← hset, ← hown, hnext]
      · rw [if_neg hown] at hset
        rw [if_neg hown]
        exact h.seqs vaultId row hset
  cases device with
  | none =>
    refine ⟨ack, { db₃ with outbox }, ?_, hagree db.devices h.devices, rfl⟩
    unfold OpDataStore.commit
    exact (bind_of_eq hseq).trans <| (bind_of_eq hsave).trans <| (bind_of_eq hlog).trans <|
      bind_of_eq hqueue
  | some d =>
    obtain ⟨hdevice, hstored⟩ := hc.deviceId d rfl
    let moved : StoredDevice :=
      { d with lastDeviceSeq := op.deviceSeq, lastSeq := vault.2, lastSeen := some now }
    have hmoved : (postgres types now uuid).saveDevice moved { db₃ with outbox }
        = some ((), { db₃ with outbox, devices := db.devices.set moved }) :=
      saveDevice_postgres hdevice
        (show ({ db₃ with outbox } : Database).devices.get? d.deviceId = some d from hstored)
        op.deviceSeq vault.2
    refine ⟨ack, { db₃ with outbox, devices := db.devices.set moved }, ?_, hagree _ ?_, rfl⟩
    · unfold OpDataStore.commit
      exact (bind_of_eq hseq).trans <| (bind_of_eq hsave).trans <| (bind_of_eq hlog).trans <|
        (bind_of_eq hqueue).trans <| bind_of_eq hmoved
    · rw [commit_devices, h.devices, hnext]

end Parts

end ObsidianSync
