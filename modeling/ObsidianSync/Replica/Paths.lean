import ObsidianSync.Replica.Content

/-!
# Path agreement

A client that replays the log should hold every live file at the server's path.
The server may suffix a colliding path, drop a rename whose clock loses, and it
ignores the path of an update; the op it broadcasts still carries the path that
was asked for, and the client takes that one.

## Main definitions

* `PathAgreement` — the replay ends with the server's paths and never writes over
  another live file.
* `KeepsPaths` — an op asks for the path it gets.

## Main results

* `pathAgreement_of_keepsPaths` — agreement in every state of a run.
-/

namespace ObsidianSync

open Engine

/-- The client holds a live file at the server's path. -/
def PathSyncedAt (vaultId : String) (s : Store) (e : Engine) (fileId : String) : Prop :=
  ∀ file ∈ s.getFile vaultId fileId, file.deleted = false →
    ∃ entry ∈ e.index.byFileId fileId, entry.deleted = false ∧ entry.path = file.path

instance (vaultId : String) (s : Store) (e : Engine) (fileId : String) :
    Decidable (PathSyncedAt vaultId s e fileId) := by
  unfold PathSyncedAt
  infer_instance

/-- The path the client puts content at when it applies an op. -/
def writeTarget (op : FileOp) (e : Engine) : Option String :=
  if op.kind.isContent && truthy op.contentHash && contentTarget op e ≠ "" then
    some (contentTarget op e)
  else if op.kind = .rename && truthy op.newPath then
    (e.index.byFileId op.fileId).bind fun entry =>
      if op.newPath = some entry.path then none else op.newPath
  else none

/-- Applying the op puts content at the path of another live file. -/
def OverwritesOther (op : FileOp) (e : Engine) : Prop :=
  ∃ target ∈ writeTarget op e, ∃ entry ∈ e.index.files.rows,
    entry.deleted = false ∧ entry.fileId ≠ op.fileId ∧ entry.path = target

theorem readBytes_writeBytes_of_ne (vault : Vault) {path path' : String} (bytes : Bytes)
    (h : path ≠ path') : (vault.writeBytes path bytes).readBytes path' = vault.readBytes path' := by
  rw [Vault.writeBytes, Vault.readBytes, Table.get?_set, if_neg h, Vault.readBytes]

theorem readBytes_erase_of_ne (vault : Vault) {path path' : String} (h : path ≠ path') :
    Vault.readBytes (vault.erase path) path' = vault.readBytes path' := by
  rw [Vault.readBytes, Table.get?_erase, if_neg h.symm, Vault.readBytes]

/-- The client that replays the log of a vault ends with the server's paths, and
no op it applies on the way overwrites another live file. -/
def PathAgreement (P : Platform) (cfg : ClientConfig) (now : Time) (vaultId : String)
    (s : Store) : Prop :=
  ∃ e, replay P cfg now s vaultId = (.done, e) ∧ (∀ fileId, PathSyncedAt vaultId s e fileId) ∧
    ∀ p ∈ replayStates P cfg now s vaultId, ¬ OverwritesOther p.1.op p.2

/-! ### The condition -/

/-- The op asks for a canonical path that no other live file has. -/
def TakesFreePath (P : Platform) (op : FileOp) (s : Store) : Prop :=
  ∃ path ∈ op.newPath, normalizePath P path = .ok path ∧
    PathFree P s op.vaultId path op.fileId

instance (P : Platform) (op : FileOp) (s : Store) : Decidable (TakesFreePath P op s) := by
  unfold TakesFreePath
  infer_instance

/-- The op names no path, or the one the file has. -/
def StaysAt (op : FileOp) (file : StoredFile) : Prop := op.newPath.getD file.path = file.path

instance (op : FileOp) (file : StoredFile) : Decidable (StaysAt op file) :=
  inferInstanceAs (Decidable (_ = _))

/-- The clock of a rename wins over that of the file. -/
def RenameWins (op : FileOp) (file : StoredFile) : Prop :=
  ∃ clock ∈ op.pathClock, pathClockWins clock file.pathClock = true

instance (op : FileOp) (file : StoredFile) : Decidable (RenameWins op file) := by
  unfold RenameWins
  infer_instance

/-- The op asks for the path the server will give the file: a new file and a
winning rename for a canonical free one, any other op for the one the file has.
An update that the client skips may ask for anything. -/
def AsksForItsPath (P : Platform) (op : FileOp) (s : Store) : Prop :=
  match opRow op s with
  | none => truthy op.contentHash = true ∧ TakesFreePath P op s
  | some file =>
    match op.kind with
    | .create | .update =>
      truthy op.contentHash = true → op.newPath ≠ some "" → StaysAt op file
    | .rename => if RenameWins op file then TakesFreePath P op s else StaysAt op file
    | .restore => StaysAt op file
    | .delete => True

instance (P : Platform) (op : FileOp) (s : Store) : Decidable (AsksForItsPath P op s) := by
  unfold AsksForItsPath
  split
  · infer_instance
  · split <;> infer_instance

/-- An accepted op of the vault asks for the path it gets. -/
def KeepsPaths (P : Platform) (vaultId : String) (s : Store) : ServerEvent → Prop
  | .process now uuid op userId =>
    (accepted P now uuid op userId s).isSome → op.vaultId = vaultId → AsksForItsPath P op s
  | _ => True

instance (P : Platform) (vaultId : String) (s : Store) :
    (e : ServerEvent) → Decidable (KeepsPaths P vaultId s e)
  | .process now uuid op userId => inferInstanceAs (Decidable
      ((accepted P now uuid op userId s).isSome → op.vaultId = vaultId → AsksForItsPath P op s))
  | .claim .. | .release .. | .resolve .. | .saveDevice _ | .setRole .. | .saveBlob _
  | .putContent .. => isTrue trivial

/-- Runs of creates, updates, renames and restores, without conflict resolution. -/
def PathEvent : ServerEvent → Prop
  | .process _ _ op _ => op.kind ≠ .delete
  | .resolve .. => False
  | _ => True

instance : (e : ServerEvent) → Decidable (PathEvent e)
  | .process _ _ op _ => inferInstanceAs (Decidable (op.kind ≠ .delete))
  | .resolve .. => isFalse id
  | .claim .. | .release .. | .saveDevice _ | .setRole .. | .saveBlob _ | .putContent .. =>
    isTrue trivial

/-! ### The invariant -/

/-- A row of a run that meets the condition: live, under a canonical path. -/
structure CanonicalRow (P : Platform) (file : StoredFile) : Prop where
  live : file.deleted = false
  folded : file.pathNormalized = P.toLowerCase file.path
  canonical : normalizePath P file.path = .ok file.path

/-- Server and client have the same files at the same paths, the paths are
distinct, and the vault of the client holds nothing else. -/
structure PathInvariant (P : Platform) (vaultId : String) (s : Store) (e : Engine) : Prop where
  row : ∀ fileId file, s.getFile vaultId fileId = some file → CanonicalRow P file
  unknown : ∀ fileId, s.getFile vaultId fileId = none → e.index.byFileId fileId = none
  synced : ∀ fileId file, s.getFile vaultId fileId = some file →
    ∃ entry, e.index.byFileId fileId = some entry ∧ entry.deleted = false ∧ entry.path = file.path
  distinct : ∀ fileId file fileId' file', s.getFile vaultId fileId = some file →
    s.getFile vaultId fileId' = some file' → file.pathNormalized = file'.pathNormalized →
    fileId = fileId'
  vault : ∀ path, e.vault.contains path = true →
    ∃ fileId entry, e.index.byFileId fileId = some entry ∧ entry.path = path

section Step

variable {P : Platform} {cfg : ClientConfig} {now t : Time} {uuid : Uuid} {op : FileOp}
  {userId : Option String} {vaultId : String} {s : Store} {applied : Applied} {e : Engine}

/-- An entry of the client stands for a row at its path. -/
theorem PathInvariant.row_of_entry (h : PathInvariant P vaultId s e) {fileId : String}
    {entry : FileIndexEntry} (hentry : e.index.byFileId fileId = some entry) :
    ∃ file, s.getFile vaultId fileId = some file ∧ entry.path = file.path := by
  cases hrow : s.getFile vaultId fileId with
  | none => simp [h.unknown fileId hrow] at hentry
  | some file =>
    obtain ⟨entry', hentry', -, hpath⟩ := h.synced fileId file hrow
    rw [hentry, Option.some.injEq] at hentry'
    exact ⟨file, rfl, hentry' ▸ hpath⟩

/-- A free path is at most the path of the file itself. -/
theorem PathInvariant.eq_of_pathFree (h : PathInvariant P vaultId s e) {path fileId : String}
    (hfree : PathFree P s vaultId path fileId) {fileId' : String} {file : StoredFile}
    (hrow : s.getFile vaultId fileId' = some file)
    (hpath : file.pathNormalized = P.toLowerCase path) : fileId' = fileId := by
  have hmem : file ∈ s.files.rows := Table.mem_of_get? hrow
  have hlive : LiveFile vaultId file :=
    ⟨(Store.key_of_getFile hrow).1, (h.row fileId' file hrow).live⟩
  cases hfind : s.findLiveFileByPath vaultId (P.toLowerCase path) with
  | none => exact absurd hpath (Store.findLiveFileByPath_eq_none_iff.mp hfind file hmem hlive)
  | some c =>
    obtain ⟨hc, hclive, hcpath⟩ := Store.of_findLiveFileByPath hfind
    have hcrow : s.getFile vaultId fileId = some c := by
      rw [Store.getFile, ← hfree c hfind, ← hclive.1]
      exact Table.get?_key hc
    exact h.distinct _ _ _ _ hrow hcrow (hpath.trans hcpath.symm)

/-- The path a row has is free for it. -/
theorem PathInvariant.pathFree_self (h : PathInvariant P vaultId s e) {fileId : String}
    {file : StoredFile} (hrow : s.getFile vaultId fileId = some file) :
    PathFree P s vaultId file.path fileId := by
  intro c hc
  obtain ⟨hmem, hclive, hcpath⟩ := Store.of_findLiveFileByPath hc
  have hcrow : s.getFile vaultId c.fileId = some c := by
    rw [Store.getFile, ← hclive.1]
    exact Table.get?_key hmem
  exact h.distinct _ _ _ _ hcrow hrow (hcpath.trans (h.row fileId file hrow).folded.symm)

/-- Content at a free path does not overwrite another live file. -/
theorem PathInvariant.not_overwrites (h : PathInvariant P vaultId s e) {path : String}
    (hfree : PathFree P s vaultId path op.fileId)
    (htarget : ∀ target ∈ writeTarget op e, target = path) : ¬ OverwritesOther op e := by
  rintro ⟨target, ht, entry, hentry, -, hid, hpath⟩
  obtain ⟨file, hrow, hsame⟩ := h.row_of_entry (Table.get?_key hentry)
  refine hid (h.eq_of_pathFree hfree hrow ?_)
  rw [(h.row _ file hrow).folded, ← hsame, hpath, htarget target ht]

/-- Writing the row of an accepted op and the client's entry for it keeps the
invariant, if the path is free and the vault gained at most that path. -/
theorem PathInvariant.set (h : PathInvariant P vaultId s e) {e' : Engine}
    (entry : FileIndexEntry)
    (ha : accepted P t uuid op userId s = some applied) (hvault : op.vaultId = vaultId)
    (hrow : CanonicalRow P applied.file)
    (hfree : PathFree P s vaultId applied.file.path op.fileId)
    (hentries : ∀ fileId, e'.index.byFileId fileId
      = if op.fileId = fileId then some entry else e.index.byFileId fileId)
    (hlive : entry.deleted = false) (hpath : entry.path = applied.file.path)
    (hvault' : ∀ path, e'.vault.contains path = true → path = applied.file.path ∨
      ∃ fileId entry, fileId ≠ op.fileId ∧ e.index.byFileId fileId = some entry ∧
        entry.path = path) :
    PathInvariant P vaultId (serverStep P s (.process t uuid op userId)) e' := by
  have hget := fun fileId => getFile_accepted ha hvault fileId
  -- another row of the new store is an old one
  have hold : ∀ {fileId file}, op.fileId ≠ fileId →
      (serverStep P s (.process t uuid op userId)).getFile vaultId fileId = some file →
      s.getFile vaultId fileId = some file := by
    intro fileId file hne hf
    rwa [hget, if_neg hne] at hf
  have hnew : ∀ {file}, (serverStep P s (.process t uuid op userId)).getFile vaultId op.fileId
      = some file → file = applied.file := by
    intro file hf
    rw [hget, if_pos rfl, Option.some.injEq] at hf
    exact hf.symm
  constructor
  · intro fileId file hf
    by_cases hne : op.fileId = fileId
    · subst hne
      rw [hnew hf]
      exact hrow
    · exact h.row fileId file (hold hne hf)
  · intro fileId hf
    rw [hget] at hf
    split at hf
    · simp at hf
    · next hne => rw [hentries, if_neg hne]; exact h.unknown fileId hf
  · intro fileId file hf
    by_cases hne : op.fileId = fileId
    · subst hne
      rw [hnew hf]
      exact ⟨entry, by rw [hentries, if_pos rfl], hlive, hpath⟩
    · rw [hentries, if_neg hne]
      exact h.synced fileId file (hold hne hf)
  · intro fileId file fileId' file' hf hf' heq
    by_cases hne : op.fileId = fileId <;> by_cases hne' : op.fileId = fileId'
    · exact hne.symm.trans hne'
    · subst hne
      have hrow' := hold hne' hf'
      rw [hnew hf, hrow.folded] at heq
      exact absurd (h.eq_of_pathFree hfree hrow' heq.symm).symm hne'
    · subst hne'
      have hrow' := hold hne hf
      rw [hnew hf', hrow.folded] at heq
      exact absurd (h.eq_of_pathFree hfree hrow' heq).symm hne
    · exact h.distinct _ _ _ _ (hold hne hf) (hold hne' hf') heq
  · intro path hp
    rcases hvault' path hp with rfl | ⟨fileId, entry', hne, hentry', hpath'⟩
    · exact ⟨op.fileId, entry, by rw [hentries, if_pos rfl], hpath⟩
    · exact ⟨fileId, entry', by rw [hentries, if_neg (Ne.symm hne)]; exact hentry', hpath'⟩

/-- What is on disk is the file of the op or another known one. -/
theorem PathInvariant.vault_cases (h : PathInvariant P vaultId s e) {path : String}
    (hp : e.vault.contains path = true) :
    (∃ entry, e.index.byFileId op.fileId = some entry ∧ path = entry.path) ∨
      ∃ fileId entry, fileId ≠ op.fileId ∧ e.index.byFileId fileId = some entry ∧
        entry.path = path := by
  obtain ⟨fileId, entry, hentry, hpath⟩ := h.vault path hp
  by_cases hne : fileId = op.fileId
  · subst hne
    exact Or.inl ⟨entry, hentry, hpath.symm⟩
  · exact Or.inr ⟨fileId, entry, hne, hentry, hpath⟩

/-- The entries after one is written. -/
theorem byFileId_of_files_set {e' : Engine} {entry : FileIndexEntry}
    (hfiles : e'.index.files = e.index.files.set entry) (hid : entry.fileId = op.fileId)
    (fileId : String) :
    e'.index.byFileId fileId = if op.fileId = fileId then some entry else e.index.byFileId fileId
    := by
  rw [LocalIndex.byFileId, hfiles, Table.get?_set, hid]
  rfl

/-- What is proved of an applied op: it does not overwrite, the client does not
throw, and the invariant is kept. -/
def KeepsPathInvariant (P : Platform) (cfg : ClientConfig) (now t : Time) (uuid : Uuid)
    (op : FileOp) (userId : Option String) (vaultId : String) (s : Store) (applied : Applied)
    (e : Engine) : Prop :=
  ¬ OverwritesOther op e ∧
    ∃ e', Engine.applyOp P cfg now op (some applied.file.contentVV)
        (some applied.file.pathClock) e = (true, e') ∧
      e'.index.device.appliedSeq = e.index.device.appliedSeq ∧
      PathInvariant P vaultId (serverStep P s (.process t uuid op userId)) e'

/-- A content op that is written at the path of its row. -/
theorem keepsPathInvariant_content (h : PathInvariant P vaultId s e)
    (hcommon : ∀ c, cfg.configSync c = .common)
    (hfetch : ∀ hash enc, (cfg.fetchContentBytes hash enc).isSome = true)
    (ha : accepted P t uuid op userId s = some applied) (hvault : op.vaultId = vaultId)
    (hkind : op.kind.isContent = true) (hhash : truthy op.contentHash = true)
    (hrow : CanonicalRow P applied.file)
    (hfree : PathFree P s vaultId applied.file.path op.fileId)
    (hne : contentTarget op e ≠ "") (htarget : contentTarget op e = applied.file.path)
    (hpath : ∀ entry, e.index.byFileId op.fileId = some entry →
      entry.path = applied.file.path) :
    KeepsPathInvariant P cfg now t uuid op userId vaultId s applied e := by
  constructor
  · refine h.not_overwrites hfree fun target ht => ?_
    have : contentTarget op e = target := by simpa [writeTarget, hkind, hhash, hne] using ht
    rw [← this, htarget]
  · obtain ⟨e', happly, hfiles, hseq, hcontains⟩ := applyOp_content (P := P)
      hkind hhash hne hcommon hfetch
    refine ⟨e', happly, hseq, h.set _ ha hvault hrow hfree (byFileId_of_files_set hfiles rfl) rfl
      htarget fun path hp => ?_⟩
    rcases hcontains path hp with rfl | hp
    · exact Or.inl htarget
    · rcases h.vault_cases hp with ⟨entry, hentry, rfl⟩ | hother
      · exact Or.inl (hpath entry hentry)
      · exact Or.inr hother

/-- A content op on a row that keeps its path. -/
theorem keepsPathInvariant_inPlace (h : PathInvariant P vaultId s e)
    (hcommon : ∀ c, cfg.configSync c = .common)
    (hfetch : ∀ hash enc, (cfg.fetchContentBytes hash enc).isSome = true)
    (ha : accepted P t uuid op userId s = some applied) (hvault : op.vaultId = vaultId)
    (hkind : op.kind.isContent = true) {file : StoredFile} (hrow : opRow op s = some file)
    (hnew : CanonicalRow P applied.file) (hsame : applied.file.path = file.path)
    (hstays : truthy op.contentHash = true → op.newPath ≠ some "" → StaysAt op file) :
    KeepsPathInvariant P cfg now t uuid op userId vaultId s applied e := by
  rw [opRow, hvault] at hrow
  obtain ⟨entry, hentry, hlive, hpath⟩ := h.synced op.fileId file hrow
  have hfree : PathFree P s vaultId applied.file.path op.fileId := by
    rw [hsame]
    exact h.pathFree_self hrow
  have hentrypath : ∀ entry', e.index.byFileId op.fileId = some entry' →
      entry'.path = applied.file.path := by
    intro entry' hentry'
    rw [hentry, Option.some.injEq] at hentry'
    rw [← hentry', hpath, hsame]
  by_cases hskip : truthy op.contentHash = false ∨ contentTarget op e = ""
  · -- the client leaves everything as it is
    constructor
    · refine h.not_overwrites hfree fun target ht => ?_
      have hrename : op.kind ≠ .rename := fun hk => by simp [hk, OpKind.isContent] at hkind
      rcases hskip with hk | hk <;> simp [writeTarget, hk, hrename] at ht
    · refine ⟨_, applyOp_skip hkind hskip, rfl, h.set _ ha hvault hnew hfree ?_ hlive
        (hentrypath entry hentry) fun path hp => ?_⟩
      · intro fileId
        by_cases hne : op.fileId = fileId
        · subst hne
          rw [if_pos rfl]
          exact hentry
        · rw [if_neg hne]
      · rcases h.vault_cases hp with ⟨entry', hentry', rfl⟩ | hother
        · exact Or.inl (hentrypath entry' hentry')
        · exact Or.inr hother
  · rw [not_or, Bool.not_eq_false] at hskip
    refine keepsPathInvariant_content h hcommon hfetch ha hvault hkind hskip.1 hnew hfree hskip.2
      ?_ hentrypath
    have hne : op.newPath ≠ some "" := by
      intro hempty
      exact hskip.2 (by simp [contentTarget, hempty])
    have hstay := hstays hskip.1 hne
    rw [StaysAt] at hstay
    rw [hsame, ← hstay, contentTarget, hentry]
    cases op.newPath with
    | none => simp [hpath]
    | some path => simp

/-- A rename to the path the file has on both sides. -/
theorem keepsPathInvariant_renameSame (h : PathInvariant P vaultId s e)
    (ha : accepted P t uuid op userId s = some applied) (hvault : op.vaultId = vaultId)
    (hkind : op.kind = .rename) {file : StoredFile} (hrow : opRow op s = some file)
    (hnew : CanonicalRow P applied.file) (hsame : applied.file.path = file.path)
    (hpath : op.newPath = some file.path) :
    KeepsPathInvariant P cfg now t uuid op userId vaultId s applied e := by
  rw [opRow, hvault] at hrow
  obtain ⟨entry, hentry, hlive, hentrypath⟩ := h.synced op.fileId file hrow
  have hfree : PathFree P s vaultId applied.file.path op.fileId := by
    rw [hsame]
    exact h.pathFree_self hrow
  have htruthy : truthy op.newPath = true := (accepted_spec ha).payload.newPath (Or.inr hkind)
  constructor
  · refine h.not_overwrites hfree fun target ht => ?_
    simp [writeTarget, hkind, OpKind.isContent, hentry, hpath, hentrypath] at ht
  · obtain ⟨e', entry', happly, rfl, hindex, hv⟩ := applyOp_rename_same (P := P)
      hkind hentry htruthy (by rw [hpath, hentrypath])
    have hid : entry.fileId = op.fileId := Table.key_of_get? hentry
    refine ⟨e', happly, by rw [hindex]; rfl, h.set
      { entry with pathClock := some applied.file.pathClock }
      ha hvault hnew hfree (byFileId_of_files_set (by rw [hindex]; rfl) hid) hlive
      (hentrypath.trans hsame.symm) fun path hp => ?_⟩
    rw [hv] at hp
    rcases h.vault_cases hp with ⟨entry', hentry', rfl⟩ | hother
    · rw [hentry, Option.some.injEq] at hentry'
      exact Or.inl (by rw [← hentry', hentrypath, hsame])
    · exact Or.inr hother

/-- A rename to a free path. -/
theorem keepsPathInvariant_renameMove (h : PathInvariant P vaultId s e)
    (ha : accepted P t uuid op userId s = some applied) (hvault : op.vaultId = vaultId)
    (hkind : op.kind = .rename) {file : StoredFile} (hrow : opRow op s = some file)
    (hnew : CanonicalRow P applied.file)
    (hfree : PathFree P s vaultId applied.file.path op.fileId)
    (hpath : op.newPath = some applied.file.path) :
    KeepsPathInvariant P cfg now t uuid op userId vaultId s applied e := by
  have hrow' := hrow
  rw [opRow, hvault] at hrow
  obtain ⟨entry, hentry, hlive, hentrypath⟩ := h.synced op.fileId file hrow
  have htruthy : truthy op.newPath = true := (accepted_spec ha).payload.newPath (Or.inr hkind)
  have hne : applied.file.path ≠ "" := by simpa [hpath] using htruthy
  -- the clock may win for the path the row has
  by_cases hsame : applied.file.path = file.path
  · exact keepsPathInvariant_renameSame h ha hvault hkind hrow' hnew hsame (hsame ▸ hpath)
  constructor
  · refine h.not_overwrites hfree fun target ht => ?_
    have hneq : applied.file.path ≠ entry.path := by rw [hentrypath]; exact hsame
    have : applied.file.path = target := by
      simpa [writeTarget, hkind, OpKind.isContent, htruthy, hentry, hpath, hneq, hne] using ht
    exact this.symm
  · -- nothing is on disk at the new path: it would be a row there
    have hclear : e.vault.contains applied.file.path = false := by
      rw [← Bool.not_eq_true]
      intro hin
      obtain ⟨fileId, entry', hentry', hat⟩ := h.vault _ hin
      obtain ⟨file', hrow', hpath'⟩ := h.row_of_entry hentry'
      have hid : fileId = op.fileId := by
        refine h.eq_of_pathFree hfree hrow' ?_
        rw [(h.row _ _ hrow').folded, ← hpath', hat]
      subst hid
      rw [hrow, Option.some.injEq] at hrow'
      exact hsame (by rw [← hat, hpath', hrow'])
    obtain ⟨e', entry', happly, rfl, hindex, hcontains⟩ := applyOp_rename_move (P := P)
      hkind hentry hpath hne hclear
    have hid : entry.fileId = op.fileId := Table.key_of_get? hentry
    refine ⟨e', happly, by rw [hindex]; rfl, h.set
      { entry with path := applied.file.path, pathClock := some applied.file.pathClock }
      ha hvault hnew hfree (byFileId_of_files_set (by rw [hindex]; rfl) hid) hlive rfl
      fun path hp => ?_⟩
    rcases hcontains path hp with rfl | ⟨hne', hp⟩ | ⟨hgone, hp⟩
    · exact Or.inl rfl
    · rcases h.vault_cases hp with ⟨entry', hentry', rfl⟩ | hother
      · rw [hentry, Option.some.injEq] at hentry'
        exact absurd (by rw [hentry']) hne'
      · exact Or.inr hother
    · rcases h.vault_cases hp with ⟨entry', hentry', rfl⟩ | hother
      · rw [hentry, Option.some.injEq] at hentry'
        rw [hentry', hp] at hgone
        simp at hgone
      · exact Or.inr hother

/-- A free canonical path that an op asks for is the one it gets. -/
theorem eq_of_ownPath {path' fallback desired path : String} (hnew : path' ∈ op.newPath)
    (hcanon : normalizePath P path' = .ok path') (hfree : PathFree P s op.vaultId path' op.fileId)
    (canonical : normalizePath P (op.newPath.getD fallback) = .ok desired)
    (unique : uniquePath P s op.vaultId desired op.fileId = .ok path) : path = path' := by
  rw [Option.mem_def.mp hnew, Option.getD_some, hcanon, Except.ok.injEq] at canonical
  rw [← canonical, uniquePath_of_pathFree hfree, Except.ok.injEq] at unique
  exact unique.symm

/-- An accepted op that meets the condition keeps the invariant. -/
theorem keepsPathInvariant_accepted
    (hcommon : ∀ c, cfg.configSync c = .common)
    (hfetch : ∀ hash enc, (cfg.fetchContentBytes hash enc).isSome = true)
    (h : PathInvariant P vaultId s e) (hC : AsksForItsPath P op s) (hdelete : op.kind ≠ .delete)
    (ha : accepted P t uuid op userId s = some applied) (hvault : op.vaultId = vaultId) :
    KeepsPathInvariant P cfg now t uuid op userId vaultId s applied e := by
  have hspec := accepted_spec ha
  have heffect := hspec.effect
  have hcanonical : ∀ {file}, opRow op s = some file → CanonicalRow P file := by
    intro file hrow
    rw [opRow, hvault] at hrow
    exact h.row op.fileId file hrow
  have hupdate : ∀ {file}, opRow op s = some file →
      (op.kind = .create ∧ file.deleted = false ∨ op.kind = .update) →
      op.kind.isContent = true ∧
        (truthy op.contentHash = true → op.newPath ≠ some "" → StaysAt op file) := by
    intro file hrow hkind
    rw [AsksForItsPath, hrow] at hC
    rcases hkind with ⟨hk, -⟩ | hk
    · rw [hk] at hC
      exact ⟨by simp [hk, OpKind.isContent], hC⟩
    · rw [hk] at hC
      exact ⟨by simp [hk, OpKind.isContent], hC⟩
  cases heffect with
  | @created desired path tx kind dead canonical unique =>
    -- every row is live, so there was none
    have hnone : opRow op s = none := by
      cases hrow : opRow op s with
      | none => rfl
      | some file =>
        have := (hcanonical hrow).live
        simp [dead file hrow] at this
    rw [AsksForItsPath, hnone] at hC
    obtain ⟨hhash, path', hnew, hcanon, hfree⟩ := hC
    obtain rfl : path = path' := eq_of_ownPath hnew hcanon hfree canonical unique
    rw [opRow, hvault] at hnone
    rw [Option.mem_def] at hnew
    have htarget : contentTarget op e = path := by simp [contentTarget, hnew]
    have hne : path ≠ "" := by
      have := hspec.payload.newPath (Or.inl kind)
      simpa [hnew] using this
    refine keepsPathInvariant_content h hcommon hfetch ha hvault
      (by simp [kind, OpKind.isContent]) hhash ⟨rfl, rfl, hcanon⟩ (hvault ▸ hfree)
      (htarget ▸ hne) htarget ?_
    intro entry hentry
    simp [h.unknown op.fileId hnone] at hentry
  | @updated file tx row kind =>
    obtain ⟨hkind, hstays⟩ := hupdate row kind
    have hrow := hcanonical row
    exact keepsPathInvariant_inPlace h hcommon hfetch ha hvault hkind row
      ⟨rfl, hrow.folded, hrow.canonical⟩ rfl hstays
  | @conflicted file tx row kind =>
    obtain ⟨hkind, hstays⟩ := hupdate row kind
    have hrow := hcanonical row
    exact keepsPathInvariant_inPlace h hcommon hfetch ha hvault hkind row
      ⟨hrow.live, hrow.folded, hrow.canonical⟩ rfl hstays
  | @lostRename file clock tx row kind clock_eq loses =>
    have hclock : op.pathClock = some clock := eq_of_requiredPathClock clock_eq
    have hnot : ¬ RenameWins op file := by
      rintro ⟨clock', hclock', hwins⟩
      rw [hclock, Option.mem_some_iff] at hclock'
      simp [← hclock', loses] at hwins
    simp only [AsksForItsPath, row, kind, hnot, if_false] at hC
    refine keepsPathInvariant_renameSame h ha hvault kind row (hcanonical row) rfl ?_
    have htruthy := hspec.payload.newPath (Or.inr kind)
    rw [StaysAt] at hC
    cases hpath : op.newPath with
    | none => simp [hpath] at htruthy
    | some path =>
      rw [hpath] at hC
      simpa using hC
  | @renamed file clock desired path tx row kind clock_eq wins canonical unique =>
    have hclock : op.pathClock = some clock := eq_of_requiredPathClock clock_eq
    have hwins : RenameWins op file := ⟨clock, hclock, wins⟩
    simp only [AsksForItsPath, row, kind, hwins, if_true] at hC
    obtain ⟨path', hnew, hcanon, hfree⟩ := hC
    obtain rfl : path = path' := eq_of_ownPath hnew hcanon hfree canonical unique
    exact keepsPathInvariant_renameMove h ha hvault kind row
      ⟨(hcanonical row).live, rfl, hcanon⟩ (hvault ▸ hfree) hnew
  | deleted row kind => exact absurd kind hdelete
  | @restored file desired path tx row kind canonical unique =>
    have hrow := hcanonical row
    simp only [AsksForItsPath, row, kind] at hC
    have hstay : op.newPath.getD file.path = file.path := hC
    rw [hstay, hrow.canonical, Except.ok.injEq] at canonical
    subst canonical
    have hfree : PathFree P s op.vaultId file.path op.fileId := by
      rw [hvault]
      refine h.pathFree_self ?_
      rw [← hvault]
      exact row
    rw [uniquePath_of_pathFree hfree, Except.ok.injEq] at unique
    subst unique
    exact keepsPathInvariant_inPlace h hcommon hfetch ha hvault (by simp [kind, OpKind.isContent])
      row ⟨rfl, rfl, hrow.canonical⟩ rfl (fun _ _ => hC)

end Step

/-- **Path agreement.**  In every state of a run of creates, updates, renames and
restores whose ops ask for the path they get, the client that replays the log has
the server's paths and has not written over another live file. -/
theorem pathAgreement_of_keepsPaths {P : Platform} {cfg : ClientConfig} (now : Time)
    {vaultId : String} (hcommon : ∀ c, cfg.configSync c = .common)
    (hfetch : ∀ hash enc, (cfg.fetchContentBytes hash enc).isSome = true)
    {s : Store} (hs : FreshVault vaultId s) {es : List ServerEvent}
    (hevents : Run.EachStep (serverStep P)
      (fun s ev => PathEvent ev ∧ KeepsPaths P vaultId s ev) s es) :
    Run.Throughout (serverStep P) (PathAgreement P cfg now vaultId) s es := by
  have hinv := replay_invariant_of_ops now (P := P)
    (A := PathInvariant P vaultId) (W := fun item e => ¬ OverwritesOther item.op e)
    (C := fun s ev => PathEvent ev ∧ KeepsPaths P vaultId s ev)
    (fun s s' e hrows h =>
      ⟨fun fileId file hf => h.row fileId file (hrows fileId ▸ hf),
        fun fileId hf => h.unknown fileId (hrows fileId ▸ hf),
        fun fileId file hf => h.synced fileId file (hrows fileId ▸ hf),
        fun fileId file fileId' file' hf hf' =>
          h.distinct fileId file fileId' file' (hrows fileId ▸ hf) (hrows fileId' ▸ hf'),
        h.vault⟩)
    (fun s e seq h => ⟨h.row, h.unknown, h.synced, h.distinct, h.vault⟩)
    (fun s t input h => absurd h.1 id)
    (fun s t uuid op userId applied e h hC ha hvault =>
      keepsPathInvariant_accepted hcommon hfetch h (hC.2 (by simp [ha]) hvault) hC.1 ha hvault)
    hs ?_ hevents
  · refine hinv.mono fun s ⟨e, he⟩ => ⟨e, he.done, fun fileId file hf _ => ?_, he.writes⟩
    obtain ⟨entry, hentry, hlive, hpath⟩ := he.agrees.synced fileId file hf
    exact ⟨entry, hentry, hlive, hpath⟩
  · -- a fresh vault has no rows, a fresh client no entries and no files
    have hnone : ∀ fileId file, s.getFile vaultId fileId ≠ some file := fun fileId file hf =>
      hs.files file (Table.mem_of_get? hf) (Store.key_of_getFile hf).1
    exact ⟨fun fileId file hf => absurd hf (hnone fileId file), fun _ _ => rfl,
      fun fileId file hf => absurd hf (hnone fileId file),
      fun fileId file _ _ hf => absurd hf (hnone fileId file),
      fun path hp => by simp [freshEngine, Vault.contains] at hp⟩

/-! ### Paths seen from a replica -/

/-- A rename as clients send it. -/
def sampleRename (opId deviceId fileId : String) (deviceSeq : ℕ) (newPath : String)
    (clock : PathClock) : FileOp :=
  { opId, deviceId, deviceSeq, fileId, vaultId := "v", kind := .rename, type := .note
    newPath := some newPath, pathClock := some clock }

/-- A note is made, edited, renamed and restored in place. -/
def lifeOfAPath : List ServerEvent :=
  [.process 1 sampleUuid
      (sampleContentOp .create "o1" "d1" "f1" 1 (some "a.md") (sampleVV "d1" 1) "one")
      (some "u"),
    .process 2 sampleUuid
      (sampleContentOp .update "o2" "d1" "f1" 2 (some "a.md") (sampleVV "d1" 2) "two")
      (some "u"),
    .process 3 sampleUuid (sampleRename "o3" "d2" "f1" 1 "b.md" ⟨5, "d2"⟩) (some "u"),
    .process 4 sampleUuid
      { sampleContentOp .restore "o4" "d1" "f1" 3 none (sampleVV "d1" 3) "one" with
        inlineText := none }
      (some "u")]

/-- The replicas of such a note hold it at the server's path at all times. -/
theorem pathAgreement_lifeOfAPath :
    Run.Throughout (serverStep samplePlatform) (PathAgreement samplePlatform sampleConfig 9 "v")
      sampleStore lifeOfAPath :=
  pathAgreement_of_keepsPaths 9 (fun _ => rfl) (fun _ _ => rfl)
    ⟨by decide, by decide, by decide⟩ (by decide +kernel)

/-- Two devices make a note at the same path. -/
def collidingCreates : List ServerEvent :=
  [.process 1 sampleUuid
      (sampleContentOp .create "o1" "d1" "f1" 1 (some "a.md") (sampleVV "d1" 1) "one")
      (some "u"),
    .process 2 sampleUuid
      (sampleContentOp .create "o2" "d2" "f2" 1 (some "a.md") (sampleVV "d2" 1) "two")
      (some "u")]

/-- The server puts the second note next to the first; a replica writes it over the
first. -/
theorem not_pathAgreement_collidingCreates :
    ¬ PathAgreement samplePlatform sampleConfig 9 "v"
      (Run.final (serverStep samplePlatform) sampleStore collidingCreates) := by
  rintro ⟨e, hdone, hsync, -⟩
  have hreplay : (replay samplePlatform sampleConfig 9 (Run.final (serverStep samplePlatform)
      sampleStore collidingCreates) "v").2 = e := congrArg Prod.snd hdone
  have hnote := hsync "f2"
  rw [← hreplay] at hnote
  revert hnote
  decide +kernel

end ObsidianSync
