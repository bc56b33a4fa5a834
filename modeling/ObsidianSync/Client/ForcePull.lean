import ObsidianSync.Client.ForceIndex
import ObsidianSync.Shared.Envelope

/-!
# Force pull

A force pull makes the device like the server: each file of the manifest is fetched and written,
and what the device has under other paths is trashed.  Files are written by their ids, and what
is left over is looked for by paths, in the list of the files.

The server's answers to `get_content`, and decryption, are parameters.

## Main definitions

* `applyManifestEntry` — a file of the manifest is fetched, verified and written.
* `planForcePullStrays`, `forcePull` — `ForceSyncRunner.forcePull`.
* `Mirrors` — what a pull should leave.
* `Mirrorable` — the entries that are left over are under paths that are trashed, texts survive
  decoding, and no path differs from one of the manifest in its case only.

## Main results

* `applyManifest_spec` — the entries and the files after the manifest.
* `liveAt_removeStrays` — a stray takes one entry off its path.
* `mirrors_iff_mirrorable` — **a pull that succeeds mirrors the server exactly if it can.**
-/

namespace ObsidianSync

open Engine

/-! ### A file of the manifest -/

/-- Where content comes from. -/
structure ContentSource where
  /-- The data of the content message for a hash; none where the server has none. -/
  getContent : String → Option Bytes
  /-- `decryptVaultBytes` under the key; none where it throws, or where no key is unlocked. -/
  decrypt : Bytes → Option Bytes

namespace ContentSource

/-- Stored bytes, decrypted where they are encrypted. -/
def opened (source : ContentSource) (encoding : Option ContentEncryptionEncoding)
    (bytes : Bytes) : Option Bytes :=
  match encoding with
  | none => some bytes
  | some encoding =>
    if encoding.algorithm ≠ encryptedBlobAlgorithm || !isEncryptedBlobEnvelope bytes then none
    else source.decrypt bytes

/-- The content of a file of the manifest. -/
def content (source : ContentSource) (entry : ManifestEntry) : Option Bytes :=
  (source.getContent (entry.contentHash.getD "")).bind (source.opened entry.contentEncoding)

end ContentSource

section Manifest

variable (P : Platform) (source : ContentSource) (now : Time)

/-- What is written for the content of a file: notes and settings go through a text. -/
def writtenBytes (type : FileType) (bytes : Bytes) : Bytes :=
  if type = .note ∨ type = .config then encodeText (decodeText P bytes) else bytes

/-- The entry of the index for a file of the manifest. -/
def manifestIndexEntry (entry : ManifestEntry) (bytes : Bytes) : FileIndexEntry :=
  { fileId := entry.fileId, path := entry.path, pathNormalized := caseFoldPath P entry.path
    type := entry.type, contentHash := entry.contentHash
    size := entry.size.getD bytes.length, appliedContentVV := entry.contentVV
    pathClock := some entry.pathClock, isDir := false, mtime := now }

/-- Whether the file that is there is used: `canUseLocalCache`. -/
def canUseLocalCache (entry : ManifestEntry) (e : Engine) : Bool :=
  entry.contentEncoding.isNone &&
    e.index.device.downloadedHashes.contains (entry.contentHash.getD "") &&
    e.vault.contains entry.path

/-- The stored bytes of a file, and the index with the hash among the downloaded ones. -/
def fetchEntry (entry : ManifestEntry) (e : Engine) : Option (Bytes × LocalIndex) :=
  if canUseLocalCache entry e then
    (e.vault.readBytes entry.path).map fun bytes => (bytes, e.index)
  else
    (source.getContent (entry.contentHash.getD "")).map fun bytes =>
      (bytes, e.index.addDownloaded (entry.contentHash.getD ""))

/-- `applyManifestEntry`; false where it throws. -/
def applyManifestEntry (entry : ManifestEntry) (e : Engine) : Bool × Engine :=
  if entry.deleted || !truthy entry.contentHash then (true, e)
  else
    match fetchEntry source entry e with
    | none => (false, e)
    | some (stored, index) =>
      -- what the server has stored is hashed, not what it decrypts to
      if contentHash P stored ≠ entry.contentHash.getD "" then (false, { e with index })
      else
        match source.opened entry.contentEncoding stored with
        | none => (false, { e with index })
        | some bytes =>
          let vault :=
            if entry.type = .note ∨ entry.type = .config then
              e.vault.writeText entry.path (decodeText P bytes)
            else e.vault.writeBytes entry.path bytes
          (true, { e with vault, index := index.upsertFile (manifestIndexEntry P now entry bytes) })

/-- The loop over the manifest, with the number of files that were written. -/
def applyManifest : List ManifestEntry → Engine → Option ℕ × Engine
  | [], e => (some 0, e)
  | entry :: rest, e =>
    if entry.deleted then applyManifest rest e
    else
      match applyManifestEntry P source now entry e with
      | (false, e) => (none, e)
      | (true, e) =>
        let (written, e) := applyManifest rest e
        (written.map (· + 1), e)

end Manifest

/-! ### The runner -/

namespace OutboxManager

/-- The lowest sequence of the queued ops. -/
def lowestQueuedSeq (queued : List OutboxEntry) : ℕ :=
  ((queued.map fun entry => entry.op.deviceSeq).min?).getD 0

/-- `discardUnsent`: whether it was blocked, and the outbox without the ops that were not sent. -/
def discardUnsent (m : OutboxManager) : Bool × OutboxManager :=
  if m.entries.any fun entry => entry.status = .inflight then (true, m)
  else
    let queued := m.entries.filter fun entry => entry.status = .queued
    if queued.isEmpty then (false, m)
    else if m.entries.any fun entry =>
        entry.status ≠ .queued && decide (entry.op.deviceSeq > lowestQueuedSeq queued) then
      (true, m)
    else
      (false, { m with
        map := queued.foldl (fun map entry => map.erase entry.op.opId) m.map
        nextDeviceSeq := lowestQueuedSeq queued })

end OutboxManager

/-- How a pull ends. -/
inductive ForcePullResult
  | ok (written trashed : ℕ)
  /-- Ops may be on their way. -/
  | inflight
  | threw
  deriving DecidableEq, Repr

section Pull

variable (P : Platform) (source : ContentSource) (now : Time)

/-- The paths that match no file of the manifest. -/
def planForcePullStrays (paths : List String) (remote : List RemoteFileSnapshot) : List String :=
  paths.filter fun path => !(remote.any fun entry =>
    caseFoldPath P entry.path = caseFoldPath P path)

/-- The body of the loop over the strays. -/
def removeStray (e : Engine) (path : String) : Engine :=
  { e with
    vault := if e.vault.contains path then e.vault.trash path else e.vault
    index :=
      match e.index.byPath path with
      | none => e.index
      | some entry => e.index.markDeleted entry.fileId }

/-- What the runner does before it asks for the manifest. -/
def clearDownloaded (e : Engine) : Engine :=
  { e with index.device.downloadedHashes := [] }

/-- `ForceSyncRunner.forcePull`, with the manifest and its watermark. -/
def forcePull (entries : List ManifestEntry) (watermarkSeq : ℕ) (syncablePaths : List String)
    (w : VaultWatcher) : ForcePullResult × VaultWatcher :=
  let w := w.suspend
  let (blocked, outbox) := w.engine.outbox.discardUnsent
  let e := persistOutbox { w.engine with outbox }
  if blocked then (.inflight, { w with engine := e }.resume)
  else
    match applyManifest P source now entries (clearDownloaded e) with
    | (none, e) => (.threw, { w with engine := e }.resume)
    | (some written, e) =>
      let strays := planForcePullStrays P syncablePaths (toRemoteSnapshots entries)
      let e := strays.foldl removeStray e
      let e := { e with index := e.index.setAppliedSeq watermarkSeq }
      (.ok written strays.length, { w with engine := e }.resume)

end Pull

/-! ### What a pull should leave -/

/-- A live file, as the index and the manifest have it. -/
structure SyncedFile where
  fileId : String
  path : String
  contentHash : Option String
  contentVV : VersionVector
  deriving DecidableEq

/-- The live files of the index. -/
def LocalIndex.liveFiles (index : LocalIndex) : List SyncedFile :=
  (index.files.rows.filter fun row => !row.deleted).map fun row =>
    { fileId := row.fileId, path := row.path, contentHash := row.contentHash
      contentVV := row.appliedContentVV }

/-- The files of the manifest that are not deleted. -/
def liveEntries (entries : List ManifestEntry) : List ManifestEntry :=
  entries.filter fun entry => !entry.deleted

/-- The live files of a manifest. -/
def manifestFiles (entries : List ManifestEntry) : List SyncedFile :=
  (liveEntries entries).map fun entry =>
    { fileId := entry.fileId, path := entry.path, contentHash := entry.contentHash
      contentVV := entry.contentVV }

/-- The device is like the server: the same live files, each with its content, and none of the
listed paths is in the vault besides. -/
structure Mirrors (source : ContentSource) (entries : List ManifestEntry) (paths : List String)
    (index : LocalIndex) (vault : Vault) : Prop where
  index : ∀ file, file ∈ index.liveFiles ↔ file ∈ manifestFiles entries
  files : ∀ entry ∈ liveEntries entries, ∃ bytes, source.content entry = some bytes ∧
    vault.readBytes entry.path = some bytes
  paths : ∀ path ∈ paths, vault.contains path = true →
    ∃ entry ∈ liveEntries entries, entry.path = path

/-- The live entries at a path. -/
def liveAt (path : String) (index : LocalIndex) : ℕ :=
  index.files.rows.countP fun row => !row.deleted && decide (row.path = path)

/-- The live entries at a path whose ids the manifest does not have. -/
def leftAt (entries : List ManifestEntry) (path : String) (index : LocalIndex) : ℕ :=
  index.files.rows.countP fun row => !row.deleted && decide (row.path = path) &&
    !((liveEntries entries).any fun entry => entry.fileId = row.fileId)

/-- What a pull relies on, of the index, the vault and the paths it starts with. -/
structure Mirrorable (P : Platform) (source : ContentSource) (entries : List ManifestEntry)
    (paths : List String) (index : LocalIndex) (vault : Vault) : Prop where
  /-- The entries that are left over are under paths that are trashed, one for each. -/
  leftovers : ∀ path, leftAt entries path index
    ≤ (planForcePullStrays P paths (toRemoteSnapshots entries)).count path
  /-- The contents of notes and settings are what the encoding of a text can be. -/
  texts : ∀ entry ∈ liveEntries entries, entry.type = .note ∨ entry.type = .config →
    ∀ bytes, source.content entry = some bytes → encodeText (decodeText P bytes) = bytes
  /-- No file differs from one of the manifest in the case of its path only. -/
  cased : ∀ path ∈ paths, vault.contains path = true → ∀ entry ∈ liveEntries entries,
    caseFoldPath P entry.path = caseFoldPath P path → entry.path = path

/-- A manifest of files with different ids and folded paths, each with content. -/
structure Pullable (P : Platform) (entries : List ManifestEntry) : Prop where
  ids : (liveEntries entries).Pairwise fun a b => a.fileId ≠ b.fileId
  paths : (liveEntries entries).Pairwise fun a b => caseFoldPath P a.path ≠ caseFoldPath P b.path
  hashes : ∀ entry ∈ liveEntries entries, truthy entry.contentHash = true

/-! ### The manifest -/

section Spec

variable {P : Platform} {source : ContentSource} {now : Time} {entry : ManifestEntry}
  {entries : List ManifestEntry} {e e' : Engine}

/-- The hashes that were downloaded are those of what the server has. -/
def Downloaded (P : Platform) (source : ContentSource) (e : Engine) : Prop :=
  ∀ hash ∈ e.index.device.downloadedHashes,
    ∃ stored, source.getContent hash = some stored ∧ contentHash P stored = hash

/-- A file in place of one of the manifest that has its hash has its stored bytes. -/
def HashesDistinguish (P : Platform) (source : ContentSource) (entry : ManifestEntry)
    (vault : Vault) : Prop :=
  ∀ bytes stored, vault.readBytes entry.path = some bytes →
    source.getContent (entry.contentHash.getD "") = some stored →
      contentHash P bytes = entry.contentHash.getD "" →
        contentHash P stored = entry.contentHash.getD "" → bytes = stored

theorem mem_addDownloaded {index : LocalIndex} {hash hash' : String} :
    hash' ∈ (index.addDownloaded hash).device.downloadedHashes ↔
      hash' ∈ index.device.downloadedHashes ∨ hash' = hash := by
  unfold LocalIndex.addDownloaded
  dsimp only
  split
  · next h =>
    rw [List.contains_iff_mem] at h
    exact ⟨Or.inl, fun h' => h'.elim id fun h' => h' ▸ h⟩
  · rw [List.mem_append, List.mem_singleton]

/-- The bytes that pass the check are those of the server, and fetching changes the downloaded
hashes only. -/
theorem fetchEntry_spec (hdownloaded : Downloaded P source e)
    (hdistinguish : HashesDistinguish P source entry e.vault) {stored : Bytes} {index : LocalIndex}
    (hfetch : fetchEntry source entry e = some (stored, index))
    (hhash : contentHash P stored = entry.contentHash.getD "") :
    source.getContent (entry.contentHash.getD "") = some stored ∧
      index.files = e.index.files ∧ Downloaded P source { e with index } := by
  unfold fetchEntry at hfetch
  split at hfetch
  · next hcached =>
    obtain ⟨bytes, hread, heq⟩ := Option.map_eq_some_iff.mp hfetch
    obtain ⟨rfl, rfl⟩ := Prod.mk.inj heq
    simp only [canUseLocalCache, Bool.and_eq_true, List.contains_iff_mem] at hcached
    obtain ⟨stored, hget, hstored⟩ := hdownloaded _ hcached.1.2
    rw [hdistinguish bytes stored hread hget hhash hstored]
    exact ⟨hget, rfl, hdownloaded⟩
  · obtain ⟨bytes, hget, heq⟩ := Option.map_eq_some_iff.mp hfetch
    obtain ⟨rfl, rfl⟩ := Prod.mk.inj heq
    refine ⟨hget, rfl, ?_⟩
    intro hash hmem
    rcases mem_addDownloaded.mp hmem with hmem | rfl
    · exact hdownloaded hash hmem
    · exact ⟨bytes, hget, hhash⟩

/-- A file that is applied is written and indexed with its content. -/
theorem applyManifestEntry_spec (hlive : entry.deleted = false)
    (hcontent : truthy entry.contentHash = true) (hdownloaded : Downloaded P source e)
    (hdistinguish : HashesDistinguish P source entry e.vault)
    (h : applyManifestEntry P source now entry e = (true, e')) :
    ∃ bytes, source.content entry = some bytes ∧
      e'.vault = e.vault.writeBytes entry.path (writtenBytes P entry.type bytes) ∧
      e'.index.files = e.index.files.set (manifestIndexEntry P now entry bytes) ∧
      Downloaded P source e' := by
  unfold applyManifestEntry at h
  rw [hlive, hcontent, Bool.not_true, Bool.or_self, if_neg Bool.false_ne_true] at h
  split at h
  · cases (Prod.mk.inj h).1
  next stored index hfetch =>
  split at h
  · cases (Prod.mk.inj h).1
  next hhash =>
  rw [not_not] at hhash
  split at h
  · cases (Prod.mk.inj h).1
  next bytes hopened =>
  obtain ⟨hget, hfiles, hdownloaded'⟩ := fetchEntry_spec hdownloaded hdistinguish hfetch hhash
  obtain rfl := (Prod.mk.inj h).2
  refine ⟨bytes, ?_, ?_, ?_, hdownloaded'⟩
  · rw [ContentSource.content, hget]
    exact hopened
  · dsimp only
    unfold writtenBytes
    split <;> rfl
  · rw [← hfiles]
    rfl

/-- The deleted files of the manifest are skipped. -/
theorem applyManifest_liveEntries (e : Engine) :
    applyManifest P source now entries e = applyManifest P source now (liveEntries entries) e := by
  induction entries generalizing e with
  | nil => rfl
  | cons entry entries ih =>
    cases hdeleted : entry.deleted with
    | true =>
      have hskip : liveEntries (entry :: entries) = liveEntries entries := by
        simp [liveEntries, hdeleted]
      rw [hskip, applyManifest, hdeleted, if_pos rfl, ih]
    | false =>
      have hkeep : liveEntries (entry :: entries) = entry :: liveEntries entries := by
        simp [liveEntries, hdeleted]
      rw [hkeep, applyManifest, applyManifest, hdeleted, if_neg Bool.false_ne_true,
        if_neg Bool.false_ne_true]
      split
      · rfl
      · rw [ih]

/-- What the files of a manifest leave: each is written and indexed, and the rest stays. -/
structure Materialized (P : Platform) (source : ContentSource) (now : Time)
    (entries : List ManifestEntry) (e e' : Engine) : Prop where
  written : ∀ entry ∈ entries, ∃ bytes, source.content entry = some bytes ∧
    e'.vault.readBytes entry.path = some (writtenBytes P entry.type bytes) ∧
    e'.index.byFileId entry.fileId = some (manifestIndexEntry P now entry bytes)
  others : ∀ path, (∀ entry ∈ entries, entry.path ≠ path) →
    e'.vault.readBytes path = e.vault.readBytes path
  rows : (e'.index.files.rows.filter fun row =>
      !(entries.any fun entry => entry.fileId = row.fileId))
    = e.index.files.rows.filter fun row =>
      !(entries.any fun entry => entry.fileId = row.fileId)

/-- The entries of other ids stay. -/
theorem Materialized.mem_rows_iff (h : Materialized P source now entries e e')
    {row : FileIndexEntry} (hother : ∀ entry ∈ entries, entry.fileId ≠ row.fileId) :
    row ∈ e'.index.files.rows ↔ row ∈ e.index.files.rows := by
  have hnone : (!(entries.any fun entry => entry.fileId = row.fileId)) = true := by
    rw [Bool.not_eq_true', List.any_eq_false]
    exact fun entry hentry => by simpa using hother entry hentry
  have hfilter := congrArg (row ∈ ·) h.rows
  simpa only [List.mem_filter, hnone, and_true, eq_iff_iff] using hfilter

theorem Materialized.byFileId (h : Materialized P source now entries e e') {fileId : String}
    (hother : ∀ entry ∈ entries, entry.fileId ≠ fileId) :
    e'.index.byFileId fileId = e.index.byFileId fileId := by
  apply Option.ext
  intro row
  rw [LocalIndex.byFileId, LocalIndex.byFileId, Table.get?_eq_some_iff, Table.get?_eq_some_iff]
  constructor
  · rintro ⟨hrow, rfl⟩
    exact ⟨(h.mem_rows_iff hother).mp hrow, rfl⟩
  · rintro ⟨hrow, rfl⟩
    exact ⟨(h.mem_rows_iff hother).mpr hrow, rfl⟩

/-- The rows with ids of the manifest may be written over. -/
theorem rows_of_set {row : FileIndexEntry} {files : Table FileIndexEntry.fileId}
    (h : ∃ entry ∈ entries, entry.fileId = row.fileId) :
    ((files.set row).rows.filter fun row =>
      !(entries.any fun entry => entry.fileId = row.fileId))
    = files.rows.filter fun row => !(entries.any fun entry => entry.fileId = row.fileId) := by
  rw [Table.set, Table.filter_setRows fun a b hab => by rw [hab], if_neg]
  rw [Bool.not_eq_true, Bool.not_eq_false', List.any_eq_true]
  exact h.imp fun entry hentry => ⟨hentry.1, by simpa using hentry.2⟩

/-- **The loop over files with different ids and paths materializes each of them.** -/
theorem applyManifest_spec {written : ℕ} (hlive : ∀ entry ∈ entries, entry.deleted = false)
    (hhashes : ∀ entry ∈ entries, truthy entry.contentHash = true)
    (hids : entries.Pairwise fun a b => a.fileId ≠ b.fileId)
    (hpaths : entries.Pairwise fun a b => a.path ≠ b.path) (hdownloaded : Downloaded P source e)
    (hdistinguish : ∀ entry ∈ entries, HashesDistinguish P source entry e.vault)
    (h : applyManifest P source now entries e = (some written, e')) :
    Materialized P source now entries e e' := by
  induction entries generalizing e written with
  | nil =>
    obtain ⟨-, rfl⟩ := Prod.mk.inj h
    exact ⟨by simp, fun _ _ => rfl, rfl⟩
  | cons entry rest ih =>
    rw [applyManifest, hlive entry (List.mem_cons_self ..), if_neg Bool.false_ne_true] at h
    split at h
    · cases (Prod.mk.inj h).1
    next e₁ happly =>
    obtain ⟨hwritten, rfl⟩ := Prod.mk.inj h
    obtain ⟨n, hn, -⟩ := Option.map_eq_some_iff.mp hwritten
    obtain ⟨bytes, hcontent, hvault, hfiles, hdownloaded'⟩ := applyManifestEntry_spec
      (hlive entry (List.mem_cons_self ..)) (hhashes entry (List.mem_cons_self ..)) hdownloaded
      (hdistinguish entry (List.mem_cons_self ..)) happly
    obtain ⟨hid, hids⟩ := List.pairwise_cons.mp hids
    obtain ⟨hpath, hpaths⟩ := List.pairwise_cons.mp hpaths
    have hread : ∀ path, e₁.vault.readBytes path = if entry.path = path then
        some (writtenBytes P entry.type bytes) else e.vault.readBytes path := by
      intro path
      rw [hvault, Vault.readBytes_writeBytes]
    have hrest := ih (fun b hb => hlive b (List.mem_cons_of_mem _ hb))
      (fun b hb => hhashes b (List.mem_cons_of_mem _ hb)) hids hpaths hdownloaded'
      (by
        -- the files in place of the others are as they were
        intro b hb bytes' stored hbytes'
        rw [hread, if_neg (hpath b hb)] at hbytes'
        exact hdistinguish b (List.mem_cons_of_mem _ hb) bytes' stored hbytes')
      (Prod.ext hn rfl)
    refine ⟨?_, ?_, ?_⟩
    · intro b hb
      rcases List.mem_cons.mp hb with rfl | hb
      · refine ⟨bytes, hcontent, ?_, ?_⟩
        · rw [hrest.others _ fun c hc => (hpath c hc).symm, hread, if_pos rfl]
        · rw [hrest.byFileId fun c hc => (hid c hc).symm, LocalIndex.byFileId, hfiles]
          exact Table.get?_set_self _ _
      · exact hrest.written b hb
    · intro path hother
      rw [hrest.others path fun c hc => hother c (List.mem_cons_of_mem _ hc), hread,
        if_neg (hother entry (List.mem_cons_self ..))]
    · -- select the rows of other ids than the rest first
      have hsplit : ∀ l : List FileIndexEntry,
          (l.filter fun row => !((entry :: rest).any fun entry => entry.fileId = row.fileId))
            = (l.filter fun row => !(rest.any fun entry => entry.fileId = row.fileId)).filter
              fun row => !decide (entry.fileId = row.fileId) := by
        intro l
        rw [List.filter_filter]
        congr 1
        funext row
        rw [List.any_cons, Bool.not_or]
      rw [hsplit, hrest.rows, ← hsplit, hfiles]
      exact rows_of_set ⟨entry, List.mem_cons_self .., rfl⟩

end Spec

/-! ### The strays -/

section Strays

variable {e : Engine} {path path' : String}

theorem byPath_spec {index : LocalIndex} {row : FileIndexEntry}
    (h : index.byPath path = some row) :
    row ∈ index.files.rows ∧ row.path = path ∧ row.deleted = false := by
  have hfound := List.find?_some h
  rw [decide_eq_true_eq] at hfound
  exact ⟨List.mem_of_find?_eq_some h, hfound⟩

/-- Where there is a live entry at the path, one is marked. -/
theorem markDeleted_of_mem {index : LocalIndex} {row : FileIndexEntry}
    (h : row ∈ index.files.rows) :
    (index.markDeleted row.fileId).files = index.files.set { row with deleted := true } := by
  have hget : index.byFileId row.fileId = some row := Table.get?_key h
  rw [LocalIndex.markDeleted, hget]

/-- **A stray takes one entry off its path.** -/
theorem liveAt_removeStray (e : Engine) (path path' : String) :
    liveAt path' (removeStray e path).index
      = liveAt path' e.index - if path = path' then 1 else 0 := by
  cases hfound : e.index.byPath path with
  | none =>
    have hindex : (removeStray e path).index = e.index := by
      rw [removeStray]
      simp only [hfound]
    rw [hindex]
    split
    · next h =>
      -- there is none to take off
      have hzero : liveAt path' e.index = 0 := by
        rw [liveAt, List.countP_eq_zero]
        intro row hrow hcounted
        have hnot := List.find?_eq_none.mp hfound row hrow
        simp only [Bool.and_eq_true, Bool.not_eq_true', decide_eq_true_eq] at hcounted hnot
        exact hnot ⟨hcounted.2.trans h.symm, hcounted.1⟩
      rw [hzero]
    · rw [Nat.sub_zero]
  | some row =>
    obtain ⟨hrow, hpath, hlive⟩ := byPath_spec hfound
    have hindex : (removeStray e path).index.files
        = e.index.files.set { row with deleted := true } := by
      rw [← markDeleted_of_mem hrow, removeStray]
      simp only [hfound]
    have hget : e.index.files.get? { row with deleted := true }.fileId = some row :=
      Table.get?_key hrow
    have hcount : liveAt path' (removeStray e path).index + (if path = path' then 1 else 0)
        = liveAt path' e.index := by
      have hset := Table.countP_set
        (p := fun row : FileIndexEntry => !row.deleted && decide (row.path = path')) hget
      rw [liveAt, hindex, liveAt]
      simpa [hlive, hpath] using hset
    omega

/-- An entry at another path stays as it is. -/
theorem mem_removeStray_iff {row : FileIndexEntry} (h : row.path ≠ path) :
    row ∈ (removeStray e path).index.files.rows ↔ row ∈ e.index.files.rows := by
  cases hfound : e.index.byPath path with
  | none =>
    rw [removeStray]
    simp only [hfound]
  | some found =>
    obtain ⟨hmem, hpath, -⟩ := byPath_spec hfound
    have hindex : (removeStray e path).index.files
        = e.index.files.set { found with deleted := true } := by
      rw [← markDeleted_of_mem hmem, removeStray]
      simp only [hfound]
    rw [hindex, Table.mem_set_iff]
    constructor
    · rintro (rfl | ⟨hrow, -⟩)
      · exact absurd hpath h
      · exact hrow
    · intro hrow
      refine Or.inr ⟨hrow, fun hid => h ?_⟩
      rw [Table.eq_of_key_eq hrow hmem hid, hpath]

theorem readBytes_trash (vault : Vault) (path path' : String) :
    (if vault.contains path then vault.trash path else vault).readBytes path'
      = if path = path' then none else vault.readBytes path' := by
  unfold Vault.readBytes Vault.trash
  by_cases h : path = path'
  · subst h
    rw [if_pos rfl]
    split
    · rw [Table.get?_erase, if_pos rfl]
      rfl
    · next hnot =>
      rw [Vault.contains, Bool.not_eq_true, Option.isSome_eq_false_iff,
        Option.isNone_iff_eq_none] at hnot
      rw [hnot]
      rfl
  · rw [if_neg h]
    split
    · rw [Table.get?_erase, if_neg fun heq => h heq.symm]
    · rfl

/-- **The strays take an entry each off their paths.** -/
theorem liveAt_removeStrays (strays : List String) (e : Engine) (path : String) :
    liveAt path (strays.foldl removeStray e).index
      = liveAt path e.index - strays.count path := by
  induction strays generalizing e with
  | nil => simp
  | cons stray strays ih =>
    rw [List.foldl_cons, ih, liveAt_removeStray, List.count_cons]
    by_cases h : stray = path
    · simp only [h, if_true, beq_self_eq_true]
      omega
    · simp [h]

theorem mem_removeStrays_iff {row : FileIndexEntry} {strays : List String}
    (h : row.path ∉ strays) :
    row ∈ (strays.foldl removeStray e).index.files.rows ↔ row ∈ e.index.files.rows := by
  induction strays generalizing e with
  | nil => rfl
  | cons stray strays ih =>
    rw [List.mem_cons, not_or] at h
    rw [List.foldl_cons, ih h.2, mem_removeStray_iff h.1]

/-- The strays are not in the vault any more, and the rest stays. -/
theorem readBytes_removeStrays (strays : List String) (e : Engine) (path : String) :
    (strays.foldl removeStray e).vault.readBytes path
      = if path ∈ strays then none else e.vault.readBytes path := by
  induction strays generalizing e with
  | nil => simp
  | cons stray strays ih =>
    rw [List.foldl_cons, ih, removeStray, readBytes_trash]
    by_cases h : stray = path
    · simp [h]
    · simp [h, Ne.symm h]

end Strays

/-! ### The pull -/

section Mirror

variable {P : Platform} {source : ContentSource} {now : Time} {entries : List ManifestEntry}
  {paths : List String} {e e₀ : Engine}

theorem mem_liveEntries {entry : ManifestEntry} :
    entry ∈ liveEntries entries ↔ entry ∈ entries ∧ entry.deleted = false := by
  simp [liveEntries]

/-- A stray is a listed path that no file of the manifest has in any case. -/
theorem mem_strays_iff {path : String} :
    path ∈ planForcePullStrays P paths (toRemoteSnapshots entries) ↔
      path ∈ paths ∧
        ∀ entry ∈ liveEntries entries, caseFoldPath P entry.path ≠ caseFoldPath P path := by
  simp [planForcePullStrays, toRemoteSnapshots, liveEntries]

theorem not_mem_strays {entry : ManifestEntry} (h : entry ∈ liveEntries entries) :
    entry.path ∉ planForcePullStrays P paths (toRemoteSnapshots entries) :=
  fun hstray => (mem_strays_iff.mp hstray).2 entry h rfl

/-- What a pull that succeeds went through. -/
theorem forcePull_ok {watermarkSeq written trashed : ℕ} {w w' : VaultWatcher}
    (hok : forcePull P source now entries watermarkSeq paths w = (.ok written trashed, w')) :
    ∃ e₀ e, e₀.index.files = w.engine.index.files ∧ e₀.vault = w.engine.vault ∧
      Downloaded P source e₀ ∧
      applyManifest P source now (liveEntries entries) e₀ = (some written, e) ∧
      w'.engine.index.files = ((planForcePullStrays P paths
        (toRemoteSnapshots entries)).foldl removeStray e).index.files ∧
      w'.engine.vault = ((planForcePullStrays P paths
        (toRemoteSnapshots entries)).foldl removeStray e).vault := by
  unfold forcePull at hok
  dsimp only at hok
  split at hok
  · cases (Prod.mk.inj hok).1
  split at hok
  · cases (Prod.mk.inj hok).1
  next e happly =>
  obtain ⟨hresult, rfl⟩ := Prod.mk.inj hok
  obtain ⟨rfl, -⟩ := ForcePullResult.ok.inj hresult
  rw [applyManifest_liveEntries] at happly
  refine ⟨_, e, ?_, ?_, ?_, happly, rfl, rfl⟩
  · rfl
  · rfl
  · intro hash hmem
    cases hmem

/-- The rows with ids of the manifest are those that were written. -/
theorem Materialized.eq_of_fileId
    (h : Materialized P source now (liveEntries entries) e₀ e) {row : FileIndexEntry}
    (hrow : row ∈ e.index.files.rows) {entry : ManifestEntry} (hentry : entry ∈ liveEntries entries)
    (hid : entry.fileId = row.fileId) :
    ∃ bytes, row = manifestIndexEntry P now entry bytes := by
  obtain ⟨bytes, -, -, hfound⟩ := h.written entry hentry
  refine ⟨bytes, ?_⟩
  exact Table.eq_of_key_eq hrow (Table.mem_of_get? hfound) (hid ▸ rfl)

/-- At a path the manifest does not have, the live entries are those that were left. -/
theorem Materialized.liveAt_eq (h : Materialized P source now (liveEntries entries) e₀ e)
    {path : String} (hpath : ∀ entry ∈ liveEntries entries, entry.path ≠ path) :
    liveAt path e.index = leftAt entries path e₀.index := by
  have hcount : ∀ index : LocalIndex, leftAt entries path index
      = (index.files.rows.filter fun row =>
          !((liveEntries entries).any fun entry => entry.fileId = row.fileId)).countP
        fun row => !row.deleted && decide (row.path = path) := by
    intro index
    rw [leftAt, List.countP_filter]
  rw [hcount e₀.index, ← h.rows, ← hcount e.index]
  refine List.countP_congr fun row hrow => ?_
  have hleft : row.path = path →
      ((liveEntries entries).any fun entry => entry.fileId = row.fileId) = false := by
    rintro rfl
    rw [List.any_eq_false]
    intro entry hentry hid
    obtain ⟨bytes, hwritten⟩ := h.eq_of_fileId hrow hentry (by simpa using hid)
    exact hpath entry hentry (by rw [hwritten]; rfl)
  simp only [Bool.and_eq_true, Bool.not_eq_true', decide_eq_true_eq]
  exact ⟨fun hlive => ⟨hlive, hleft hlive.2⟩, And.left⟩

/-- The live files of an index, by its rows. -/
theorem mem_liveFiles_iff {index : LocalIndex} {file : SyncedFile} :
    file ∈ index.liveFiles ↔ ∃ row ∈ index.files.rows, row.deleted = false ∧
      file = { fileId := row.fileId, path := row.path, contentHash := row.contentHash
               contentVV := row.appliedContentVV } := by
  simp only [LocalIndex.liveFiles, List.mem_map, List.mem_filter, Bool.not_eq_true', and_assoc]
  exact exists_congr fun row => and_congr_right fun _ => and_congr_right fun _ => eq_comm

theorem mem_manifestFiles_iff {file : SyncedFile} :
    file ∈ manifestFiles entries ↔ ∃ entry ∈ liveEntries entries,
      file = { fileId := entry.fileId, path := entry.path, contentHash := entry.contentHash
               contentVV := entry.contentVV } := by
  simp only [manifestFiles, List.mem_map, eq_comm]

/-- **The index is that of the manifest exactly if each entry that is left over is taken off by a
stray.** -/
theorem liveFiles_iff_leftovers (h : Materialized P source now (liveEntries entries) e₀ e)
    {index : LocalIndex} (hindex : index.files = ((planForcePullStrays P paths
      (toRemoteSnapshots entries)).foldl removeStray e).index.files) :
    (∀ file, file ∈ index.liveFiles ↔ file ∈ manifestFiles entries) ↔
      ∀ path, leftAt entries path e₀.index
        ≤ (planForcePullStrays P paths (toRemoteSnapshots entries)).count path := by
  have hcount : ∀ path, liveAt path index = liveAt path e.index
      - (planForcePullStrays P paths (toRemoteSnapshots entries)).count path := by
    intro path
    rw [← liveAt_removeStrays, liveAt, hindex, liveAt]
  have hkept : ∀ row : FileIndexEntry, (∃ entry ∈ liveEntries entries, entry.path = row.path) →
      (row ∈ index.files.rows ↔ row ∈ e.index.files.rows) := by
    rintro row ⟨entry, hentry, hpath⟩
    rw [hindex, mem_removeStrays_iff (hpath ▸ not_mem_strays hentry)]
  -- an entry that is left over is not in the manifest
  have hleft : ∀ row : FileIndexEntry, leftAt entries row.path e₀.index = 0 →
      row ∈ e₀.index.files.rows → row.deleted = false →
        ∃ entry ∈ liveEntries entries, entry.fileId = row.fileId := by
    intro row hzero hrow hlive
    rw [leftAt, List.countP_eq_zero] at hzero
    simpa [hlive] using hzero row hrow
  constructor
  · intro hfiles path
    by_contra hmore
    by_cases hpath : ∃ entry ∈ liveEntries entries, entry.path = path
    · -- a path of the manifest is no stray
      have hnone : (planForcePullStrays P paths (toRemoteSnapshots entries)).count path = 0 := by
        obtain ⟨entry, hentry, rfl⟩ := hpath
        exact List.count_eq_zero.mpr (not_mem_strays hentry)
      rw [hnone, not_le, leftAt, List.countP_pos_iff] at hmore
      obtain ⟨row, hrow, hcounted⟩ := hmore
      simp only [Bool.and_eq_true, Bool.not_eq_true', decide_eq_true_eq, List.any_eq_false]
        at hcounted
      obtain ⟨⟨hlive, rfl⟩, hother⟩ := hcounted
      have hafter : row ∈ index.files.rows :=
        (hkept row hpath).mpr ((h.mem_rows_iff hother).mpr hrow)
      obtain ⟨entry, hentry, heq⟩ := mem_manifestFiles_iff.mp
        ((hfiles _).mp (mem_liveFiles_iff.mpr ⟨row, hafter, hlive, rfl⟩))
      exact hother entry hentry (congrArg SyncedFile.fileId heq).symm
    · have hpath' : ∀ entry ∈ liveEntries entries, entry.path ≠ path :=
        fun entry hentry heq => hpath ⟨entry, hentry, heq⟩
      have hpositive : 0 < liveAt path index := by
        rw [hcount, h.liveAt_eq hpath']
        omega
      rw [liveAt, List.countP_pos_iff] at hpositive
      obtain ⟨row, hrow, hcounted⟩ := hpositive
      simp only [Bool.and_eq_true, Bool.not_eq_true', decide_eq_true_eq] at hcounted
      obtain ⟨entry, hentry, heq⟩ := mem_manifestFiles_iff.mp
        ((hfiles _).mp (mem_liveFiles_iff.mpr ⟨row, hrow, hcounted.1, rfl⟩))
      exact hpath' entry hentry ((congrArg SyncedFile.path heq).symm.trans hcounted.2)
  · intro hleftovers file
    rw [mem_liveFiles_iff, mem_manifestFiles_iff]
    constructor
    · rintro ⟨row, hrow, hlive, rfl⟩
      by_cases hid : ∃ entry ∈ liveEntries entries, entry.fileId = row.fileId
      · obtain ⟨entry, hentry, hid⟩ := hid
        obtain ⟨bytes, -, -, hfound⟩ := h.written entry hentry
        have hwritten : manifestIndexEntry P now entry bytes ∈ index.files.rows :=
          (hkept _ ⟨entry, hentry, rfl⟩).mpr (Table.mem_of_get? hfound)
        rw [Table.eq_of_key_eq hrow hwritten hid.symm]
        exact ⟨entry, hentry, rfl⟩
      · exfalso
        have hother : ∀ entry ∈ liveEntries entries, entry.fileId ≠ row.fileId :=
          fun entry hentry heq => hid ⟨entry, hentry, heq⟩
        have hmore := hleftovers row.path
        by_cases hpath : ∃ entry ∈ liveEntries entries, entry.path = row.path
        · have hnone : (planForcePullStrays P paths (toRemoteSnapshots entries)).count row.path
              = 0 := by
            obtain ⟨entry, hentry, heq⟩ := hpath
            exact List.count_eq_zero.mpr (heq ▸ not_mem_strays hentry)
          rw [hnone, Nat.le_zero] at hmore
          exact hid (hleft row hmore ((h.mem_rows_iff hother).mp ((hkept row hpath).mp hrow)) hlive)
        · have hzero : liveAt row.path index = 0 := by
            rw [hcount, h.liveAt_eq fun entry hentry heq => hpath ⟨entry, hentry, heq⟩]
            omega
          rw [liveAt, List.countP_eq_zero] at hzero
          exact hzero row hrow (by simp [hlive])
    · rintro ⟨entry, hentry, rfl⟩
      obtain ⟨bytes, -, -, hfound⟩ := h.written entry hentry
      refine ⟨manifestIndexEntry P now entry bytes, ?_, rfl, rfl⟩
      exact (hkept _ ⟨entry, hentry, rfl⟩).mpr (Table.mem_of_get? hfound)

/-- **A pull that succeeds mirrors the server exactly if it can.** -/
theorem mirrors_iff_mirrorable (P : Platform) (source : ContentSource) (now : Time)
    (entries : List ManifestEntry) (watermarkSeq : ℕ) (paths : List String) (w w' : VaultWatcher)
    (written trashed : ℕ) (hmanifest : Pullable P entries)
    (hdistinguish : ∀ entry ∈ liveEntries entries, HashesDistinguish P source entry w.engine.vault)
    (hok : forcePull P source now entries watermarkSeq paths w = (.ok written trashed, w')) :
    Mirrors source entries paths w'.engine.index w'.engine.vault ↔
      Mirrorable P source entries paths w.engine.index w.engine.vault := by
  obtain ⟨e₀, e, hfiles₀, hvault₀, hdownloaded, happly, hfiles, hvault⟩ := forcePull_ok hok
  have hpaths : (liveEntries entries).Pairwise fun a b => a.path ≠ b.path :=
    hmanifest.paths.imp fun h heq => h (by rw [heq])
  have h := applyManifest_spec (fun entry hentry => (mem_liveEntries.mp hentry).2)
    hmanifest.hashes hmanifest.ids hpaths hdownloaded
    (fun entry hentry => by rw [hvault₀]; exact hdistinguish entry hentry) happly
  have hindex := liveFiles_iff_leftovers h hfiles
  have hleft : ∀ path, leftAt entries path e₀.index = leftAt entries path w.engine.index := by
    intro path
    rw [leftAt, hfiles₀, leftAt]
  simp only [hleft] at hindex
  have hread : ∀ path, w'.engine.vault.readBytes path
      = if path ∈ planForcePullStrays P paths (toRemoteSnapshots entries) then none
        else e.vault.readBytes path := by
    intro path
    rw [hvault, readBytes_removeStrays]
  have hwritten : ∀ entry ∈ liveEntries entries, ∃ bytes, source.content entry = some bytes ∧
      w'.engine.vault.readBytes entry.path = some (writtenBytes P entry.type bytes) := by
    intro entry hentry
    obtain ⟨bytes, hcontent, hbytes, -⟩ := h.written entry hentry
    exact ⟨bytes, hcontent, by rw [hread, if_neg (not_mem_strays hentry), hbytes]⟩
  have hcontains : ∀ path, (∀ entry ∈ liveEntries entries, entry.path ≠ path) →
      path ∉ planForcePullStrays P paths (toRemoteSnapshots entries) →
      w'.engine.vault.contains path = w.engine.vault.contains path := by
    intro path hother hnot
    have hsame : w'.engine.vault.readBytes path = w.engine.vault.readBytes path := by
      rw [hread, if_neg hnot, h.others path hother, hvault₀]
    have hisSome := congrArg Option.isSome hsame
    rwa [Vault.readBytes, Vault.readBytes, Option.isSome_map, Option.isSome_map] at hisSome
  constructor
  · intro hmirrors
    refine ⟨hindex.mp hmirrors.index, ?_, ?_⟩
    · intro entry hentry htext bytes hcontent
      obtain ⟨bytes', hcontent', hbytes'⟩ := hwritten entry hentry
      obtain ⟨bytes'', hcontent'', hbytes''⟩ := hmirrors.files entry hentry
      obtain rfl := Option.some.inj (hcontent.symm.trans hcontent')
      obtain rfl := Option.some.inj (hcontent.symm.trans hcontent'')
      have hsame := Option.some.inj (hbytes'.symm.trans hbytes'')
      rwa [writtenBytes, if_pos htext] at hsame
    · intro path hpath hthere entry hentry hfold
      by_contra hne
      -- only the file itself could have the path, and it is no stray
      have hother : ∀ entry' ∈ liveEntries entries, entry'.path ≠ path := by
        rintro entry' hentry' rfl
        have hsymm : Std.Symm fun a b : ManifestEntry =>
            caseFoldPath P a.path ≠ caseFoldPath P b.path := ⟨fun _ _ h => h.symm⟩
        exact hmanifest.paths.forall hentry hentry' (fun heq => hne (by rw [heq])) hfold
      have hnot : path ∉ planForcePullStrays P paths (toRemoteSnapshots entries) :=
        fun hstray => (mem_strays_iff.mp hstray).2 entry hentry hfold
      obtain ⟨entry', hentry', heq⟩ := hmirrors.paths path hpath
        ((hcontains path hother hnot).trans hthere)
      exact hother entry' hentry' heq
  · rintro ⟨hleftovers, htexts, hcased⟩
    refine ⟨hindex.mpr hleftovers, ?_, ?_⟩
    · intro entry hentry
      obtain ⟨bytes, hcontent, hbytes⟩ := hwritten entry hentry
      refine ⟨bytes, hcontent, ?_⟩
      rw [hbytes, writtenBytes]
      split
      · next htext => rw [htexts entry hentry htext bytes hcontent]
      · rfl
    · intro path hpath hthere
      by_contra hnone
      have hother : ∀ entry ∈ liveEntries entries, entry.path ≠ path :=
        fun entry hentry heq => hnone ⟨entry, hentry, heq⟩
      by_cases hstray : path ∈ planForcePullStrays P paths (toRemoteSnapshots entries)
      · -- a stray was trashed
        have hgone := hread path
        rw [if_pos hstray, Vault.readBytes, Option.map_eq_none_iff] at hgone
        rw [Vault.contains, hgone] at hthere
        cases hthere
      · rw [hcontains path hother hstray] at hthere
        have hfold : ∃ entry ∈ liveEntries entries,
            caseFoldPath P entry.path = caseFoldPath P path := by
          by_contra hno
          exact hstray (mem_strays_iff.mpr ⟨hpath, fun entry hentry heq =>
            hno ⟨entry, hentry, heq⟩⟩)
        obtain ⟨entry, hentry, hfold⟩ := hfold
        exact hother entry hentry (hcased path hpath hthere entry hentry hfold)

end Mirror

/-! ### An entry under another id -/

/-- The contents of the sample texts. -/
def sampleSource : ContentSource where
  getContent hash := (sampleDigests.find? fun entry =>
    contentHashText samplePlatform entry.1 = hash).map fun entry => encodeText entry.1
  decrypt _ := none

/-- A device with an old version of a note, and one that the server does not have. -/
def samplePulling : VaultWatcher :=
  samplePushing [sampleIndexed "f1" "keep.md", sampleIndexed "f9" "stray.md"]
    [("keep.md", "two"), ("stray.md", "one")]

/-- A manifest of two notes. -/
def samplePulled : List ManifestEntry :=
  [sampleListed "f1" "keep.md" "one", sampleListed "f2" "new.md" "two"]

/-- A pull of the sample contents. -/
def samplePull (entries : List ManifestEntry) (paths : List String) (w : VaultWatcher) :
    ForcePullResult × VaultWatcher :=
  forcePull samplePlatform sampleSource 1 entries 5 paths w

/-- A pull that overwrites a note, creates one and trashes one. -/
theorem mirrors_samplePulled :
    (samplePull samplePulled ["keep.md", "stray.md"] samplePulling).1 = .ok 2 1 ∧
      Mirrors sampleSource samplePulled ["keep.md", "stray.md"]
        (samplePull samplePulled ["keep.md", "stray.md"] samplePulling).2.engine.index
        (samplePull samplePulled ["keep.md", "stray.md"] samplePulling).2.engine.vault := by
  have hresult : (samplePull samplePulled ["keep.md", "stray.md"] samplePulling).1 = .ok 2 1 := by
    decide +kernel
  refine ⟨hresult, ?_⟩
  refine (mirrors_iff_mirrorable samplePlatform sampleSource 1 samplePulled 5 _ samplePulling _ 2 1
    ⟨by decide +kernel, by decide +kernel, by decide +kernel⟩ ?_ (Prod.ext hresult rfl)).mpr ?_
  · -- the note that is there has another hash
    have hdiffers : ∀ entry ∈ liveEntries samplePulled,
        Option.all (fun bytes => decide (contentHash samplePlatform bytes
          ≠ entry.contentHash.getD "")) (samplePulling.engine.vault.readBytes entry.path)
          = true := by
      decide +kernel
    intro entry hentry bytes stored hread _ hhash
    have hne := (Option.all_eq_true _ _).mp (hdiffers entry hentry) bytes hread
    rw [decide_eq_true_eq] at hne
    exact absurd hhash hne
  · refine ⟨?_, ?_, by decide +kernel⟩
    · intro path
      by_cases hpath : path = "stray.md"
      · subst hpath
        decide +kernel
      · have hrows : ∀ row ∈ samplePulling.engine.index.files.rows,
            ((liveEntries samplePulled).any fun entry => entry.fileId = row.fileId) = false →
              row.path = "stray.md" := by
          decide +kernel
        have hzero : leftAt samplePulled path samplePulling.engine.index = 0 := by
          rw [leftAt, List.countP_eq_zero]
          intro row hrow hcounted
          simp only [Bool.and_eq_true, Bool.not_eq_true', decide_eq_true_eq] at hcounted
          exact hpath (hcounted.1.2.symm.trans (hrows row hrow hcounted.2))
        rw [hzero]
        exact Nat.zero_le _
    · have htexts : ∀ entry ∈ liveEntries samplePulled,
          Option.all (fun bytes => decide (encodeText (decodeText samplePlatform bytes) = bytes))
            (sampleSource.content entry) = true := by
        decide +kernel
      intro entry hentry _ bytes hcontent
      simpa using (Option.all_eq_true _ _).mp (htexts entry hentry) bytes hcontent

/-- **A note that the device has under another id than the server has two live entries after the
pull**: its path is no stray. -/
theorem not_mirrors_otherId :
    Pullable samplePlatform [sampleListed "f1" "a.md" "one"] ∧
      (samplePull [sampleListed "f1" "a.md" "one"] ["a.md"]
        (samplePushing [sampleIndexed "f9" "a.md"] [("a.md", "one")])).1 = .ok 1 0 ∧
      ¬ Mirrors sampleSource [sampleListed "f1" "a.md" "one"] ["a.md"]
        (samplePull [sampleListed "f1" "a.md" "one"] ["a.md"]
          (samplePushing [sampleIndexed "f9" "a.md"] [("a.md", "one")])).2.engine.index
        (samplePull [sampleListed "f1" "a.md" "one"] ["a.md"]
          (samplePushing [sampleIndexed "f9" "a.md"] [("a.md", "one")])).2.engine.vault := by
  refine ⟨⟨by decide +kernel, by decide +kernel, by decide +kernel⟩, by decide +kernel,
    fun hmirrors => ?_⟩
  have hboth : (samplePull [sampleListed "f1" "a.md" "one"] ["a.md"]
      (samplePushing [sampleIndexed "f9" "a.md"]
        [("a.md", "one")])).2.engine.index.liveFiles.map SyncedFile.fileId = ["f9", "f1"] := by
    decide +kernel
  have hold : "f9" ∈ ["f9", "f1"] := by decide
  rw [← hboth, List.mem_map] at hold
  obtain ⟨file, hfile, hid⟩ := hold
  obtain ⟨entry, hentry, rfl⟩ := mem_manifestFiles_iff.mp ((hmirrors.index file).mp hfile)
  revert entry
  decide +kernel

end ObsidianSync
