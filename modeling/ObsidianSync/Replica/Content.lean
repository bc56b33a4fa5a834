import ObsidianSync.Replica.Replay

/-!
# Content agreement

A client that replays the log should end with the content the server has.  The
client decides by the kind of an op and its hash alone; it does not see that an op
opened a conflict, and it skips content ops without a hash or with an empty path.

## Main definitions

* `ContentAgreement` — the replay ends with the server's flags, hashes, vectors.
* `KeepsContent` — what a content op has to meet for that.

## Main results

* `contentAgreement_of_keepsContent` — agreement in every state of a run.
-/

namespace ObsidianSync

open Engine

/-- The entry has the row's deleted flag and, where the row is live and has
content, its hash and vector. -/
def SameContent (file : StoredFile) (entry : FileIndexEntry) : Prop :=
  entry.deleted = file.deleted ∧
    (file.deleted = false → ∀ hash ∈ file.contentHash,
      entry.contentHash = some hash ∧ entry.appliedContentVV = file.contentVV)

instance (file : StoredFile) (entry : FileIndexEntry) : Decidable (SameContent file entry) :=
  inferInstanceAs (Decidable (_ ∧ _))

/-- The client has an entry with the same content for the row of a file, and none
where there is no row. -/
def ContentSyncedAt (vaultId : String) (s : Store) (e : Engine) (fileId : String) : Prop :=
  match s.getFile vaultId fileId with
  | none => e.index.byFileId fileId = none
  | some file => ∃ entry ∈ e.index.byFileId fileId, SameContent file entry

instance (vaultId : String) (s : Store) (e : Engine) (fileId : String) :
    Decidable (ContentSyncedAt vaultId s e fileId) := by
  unfold ContentSyncedAt
  split <;> infer_instance

/-- The client has the server's content for every file id. -/
def ContentSynced (vaultId : String) (s : Store) (e : Engine) : Prop :=
  ∀ fileId, ContentSyncedAt vaultId s e fileId

/-- The client that replays the log of a vault ends with the server's content. -/
def ContentAgreement (P : Platform) (cfg : ClientConfig) (now : Time) (vaultId : String)
    (s : Store) : Prop :=
  ∃ e, replay P cfg now s vaultId = (.done, e) ∧ ContentSynced vaultId s e

/-! ### The condition -/

/-- The op is an update, or a create on a live row, whose vector is concurrent
with the stored one. -/
def OpensConflict (op : FileOp) (s : Store) : Prop :=
  ∃ file ∈ opRow op s, (op.kind = .create ∧ file.deleted = false ∨ op.kind = .update) ∧
    VersionVector.isConcurrent (declaredVV op) file.contentVV = true

instance (op : FileOp) (s : Store) : Decidable (OpensConflict op s) := by
  unfold OpensConflict
  infer_instance

/-- An accepted content op of the vault names its content by hash, does not have
an empty path, and opens no conflict. -/
def KeepsContent (P : Platform) (vaultId : String) (s : Store) : ServerEvent → Prop
  | .process now uuid op userId =>
    (accepted P now uuid op userId s).isSome → op.vaultId = vaultId → op.kind.isContent = true →
      truthy op.contentHash = true ∧ op.newPath ≠ some "" ∧ ¬ OpensConflict op s
  | _ => True

instance (P : Platform) (vaultId : String) (s : Store) :
    (e : ServerEvent) → Decidable (KeepsContent P vaultId s e)
  | .process now uuid op userId => inferInstanceAs (Decidable
      ((accepted P now uuid op userId s).isSome → op.vaultId = vaultId →
        op.kind.isContent = true →
        truthy op.contentHash = true ∧ op.newPath ≠ some "" ∧ ¬ OpensConflict op s))
  | .claim .. | .release .. | .resolve .. | .saveDevice _ | .setRole .. | .saveBlob _
  | .putContent .. => isTrue trivial

/-- Runs of creates, updates, deletes and restores, without conflict resolution. -/
def ContentEvent : ServerEvent → Prop
  | .process _ _ op _ => op.kind ≠ .rename
  | .resolve .. => False
  | _ => True

instance : (e : ServerEvent) → Decidable (ContentEvent e)
  | .process _ _ op _ => inferInstanceAs (Decidable (op.kind ≠ .rename))
  | .resolve .. => isFalse id
  | .claim .. | .release .. | .saveDevice _ | .setRole .. | .saveBlob _ | .putContent .. =>
    isTrue trivial

/-! ### The invariant -/

/-- Agreement, and every entry has a path. -/
def ContentInvariant (vaultId : String) (s : Store) (e : Engine) : Prop :=
  ContentSynced vaultId s e ∧ ∀ fileId entry, e.index.byFileId fileId = some entry → entry.path ≠ ""

section Step

variable {P : Platform} {cfg : ClientConfig} {now t : Time} {uuid : Uuid} {op : FileOp}
  {userId : Option String} {vaultId : String} {s : Store} {applied : Applied} {e : Engine}

/-- The row of an accepted op in its vault is the written one; the others stay. -/
theorem getFile_accepted (ha : accepted P t uuid op userId s = some applied)
    (hvault : op.vaultId = vaultId) (fileId : String) :
    (serverStep P s (.process t uuid op userId)).getFile vaultId fileId
      = if op.fileId = fileId then some applied.file else s.getFile vaultId fileId := by
  have hkey := key_of_effect (accepted_spec ha).effect
  rw [getFile_serverStep]
  simp only [writtenFile, ha, Option.map_some, hkey, hvault, Prod.mk.injEq, true_and]

/-- An entry written for the op of a row restores the agreement, if it agrees with
the row. -/
theorem contentInvariant_set {e' : Engine} (entry : FileIndexEntry)
    (ha : accepted P t uuid op userId s = some applied) (hvault : op.vaultId = vaultId)
    (h : ContentInvariant vaultId s e)
    (hfiles : e'.index.files = e.index.files.set entry) (hid : entry.fileId = op.fileId)
    (hpath : entry.path ≠ "") (hsame : SameContent applied.file entry) :
    ContentInvariant vaultId (serverStep P s (.process t uuid op userId)) e' := by
  have hentry : ∀ fileId, e'.index.byFileId fileId
      = if op.fileId = fileId then some entry else e.index.byFileId fileId := by
    intro fileId
    rw [LocalIndex.byFileId, hfiles, Table.get?_set, hid]
    rfl
  constructor
  · intro fileId
    unfold ContentSyncedAt
    rw [getFile_accepted ha hvault, hentry]
    by_cases hf : op.fileId = fileId
    · simp only [hf, if_true]
      exact ⟨entry, rfl, hsame⟩
    · simp only [hf, if_false]
      exact h.1 fileId
  · intro fileId entry' hentry'
    rw [hentry] at hentry'
    split at hentry'
    · rw [← Option.some.inj hentry']
      exact hpath
    · exact h.2 fileId entry' hentry'

/-- The target of a content op with a non-empty path, or none, on a known file. -/
theorem contentTarget_ne (hinv : ContentInvariant vaultId s e) (hnewPath : op.newPath ≠ some "")
    (hknown : op.newPath = none → ∃ entry, e.index.byFileId op.fileId = some entry) :
    contentTarget op e ≠ "" := by
  unfold contentTarget
  cases hpath : op.newPath with
  | some path =>
    rw [hpath] at hnewPath
    simpa using hnewPath
  | none =>
    obtain ⟨entry, hentry⟩ := hknown hpath
    simpa [hentry] using hinv.2 op.fileId entry hentry

/-- The hash a truthy field holds. -/
theorem eq_some_of_truthy {field : Option String} (h : truthy field = true) :
    field = some (field.getD "") := by
  cases field with
  | none => simp at h
  | some hash => rfl

/-- An accepted op that meets the condition keeps the invariant. -/
theorem contentInvariant_accepted
    (hcommon : ∀ c, cfg.configSync c = .common)
    (hfetch : ∀ hash enc, (cfg.fetchContentBytes hash enc).isSome = true)
    (hinv : ContentInvariant vaultId s e)
    (hC : KeepsContent P vaultId s (.process t uuid op userId)) (hrename : op.kind ≠ .rename)
    (ha : accepted P t uuid op userId s = some applied) (hvault : op.vaultId = vaultId) :
    ∃ e', Engine.applyOp P cfg now op (some applied.file.contentVV)
        (some applied.file.pathClock) e = (true, e') ∧
      e'.index.device.appliedSeq = e.index.device.appliedSeq ∧
      ContentInvariant vaultId (serverStep P s (.process t uuid op userId)) e' := by
  have hspec := accepted_spec ha
  have heffect := hspec.effect
  -- the row and the entry of the op
  have hentry : ∀ {file}, opRow op s = some file →
      ∃ entry, e.index.byFileId op.fileId = some entry ∧ SameContent file entry := by
    intro file hrow
    rw [opRow, hvault] at hrow
    have hsync := hinv.1 op.fileId
    rw [ContentSyncedAt, hrow] at hsync
    exact hsync
  -- a content op that wrote its hash and vector
  have hcontent : op.kind.isContent = true → applied.file.deleted = false →
      applied.file.contentHash = some (op.contentHash.getD "") →
      (op.newPath = none → ∃ entry, e.index.byFileId op.fileId = some entry) →
      ∃ e', Engine.applyOp P cfg now op (some applied.file.contentVV)
          (some applied.file.pathClock) e = (true, e') ∧
        e'.index.device.appliedSeq = e.index.device.appliedSeq ∧
        ContentInvariant vaultId (serverStep P s (.process t uuid op userId)) e' := by
    intro hkind hlive hhash hknown
    obtain ⟨htruthy, hnewPath, -⟩ := hC (by simp [ha]) hvault hkind
    have htarget := contentTarget_ne hinv hnewPath hknown
    obtain ⟨e', happly, hfiles, hseq, -⟩ := applyOp_content (P := P)
      hkind htruthy htarget hcommon hfetch
    refine ⟨e', happly, hseq, contentInvariant_set _ ha hvault hinv hfiles rfl htarget ?_⟩
    refine ⟨hlive.symm, fun _ hash h => ?_⟩
    rw [hhash] at h
    exact ⟨h, rfl⟩
  have hhash : op.kind.isContent = true → op.contentHash = some (op.contentHash.getD "") :=
    fun hkind => eq_some_of_truthy (hC (by simp [ha]) hvault hkind).1
  cases heffect with
  | created kind =>
    have hkind : op.kind.isContent = true := by simp [kind, OpKind.isContent]
    refine hcontent hkind rfl ?_ fun hnone => ?_
    · show op.contentHash.or op.blobRef = _
      rw [hhash hkind]
      rfl
    · -- a create has a path
      have := hspec.payload.newPath (Or.inl kind)
      simp [hnone] at this
  | @updated file tx row kind =>
    have hkind : op.kind.isContent = true := by
      rcases kind with ⟨h, -⟩ | h <;> simp [h, OpKind.isContent]
    refine hcontent hkind rfl ?_ fun _ => ?_
    · show (op.contentHash.or op.blobRef).or file.contentHash = _
      rw [hhash hkind]
      rfl
    · obtain ⟨entry, hget, -⟩ := hentry row
      exact ⟨entry, hget⟩
  | @conflicted file tx row kind concurrent =>
    -- excluded by the condition
    have hkind : op.kind.isContent = true := by
      rcases kind with ⟨h, -⟩ | h <;> simp [h, OpKind.isContent]
    exact absurd ⟨file, row, kind, concurrent⟩ (hC (by simp [ha]) hvault hkind).2.2
  | lostRename row kind => exact absurd kind hrename
  | renamed row kind => exact absurd kind hrename
  | @deleted file tx row kind =>
    obtain ⟨entry, hget, -⟩ := hentry row
    obtain ⟨e', happly, hindex⟩ := applyOp_delete (P := P)
      (e := e) kind
    have hid : entry.fileId = op.fileId := Table.key_of_get? hget
    refine ⟨e', happly, by rw [hindex, LocalIndex.appliedSeq_markDeleted], ?_⟩
    refine contentInvariant_set { entry with deleted := true } ha hvault hinv ?_ hid
      (hinv.2 op.fileId entry hget) ⟨rfl, fun hlive => by simp [applyDelete] at hlive⟩
    rw [hindex, LocalIndex.markDeleted, hget]
  | @restored file desired path tx row kind =>
    have hkind : op.kind.isContent = true := by simp [kind, OpKind.isContent]
    refine hcontent hkind rfl ?_ fun _ => ?_
    · show op.contentHash.or file.contentHash = _
      rw [hhash hkind]
      rfl
    · obtain ⟨entry, hget, -⟩ := hentry row
      exact ⟨entry, hget⟩

end Step

/-- **Content agreement.**  In every state of a run of creates, updates, deletes
and restores whose content ops meet the condition, the client that replays the log
has the server's content. -/
theorem contentAgreement_of_keepsContent {P : Platform} {cfg : ClientConfig} (now : Time)
    {vaultId : String} (hcommon : ∀ c, cfg.configSync c = .common)
    (hfetch : ∀ hash enc, (cfg.fetchContentBytes hash enc).isSome = true)
    {s : Store} (hs : FreshVault vaultId s) {es : List ServerEvent}
    (hevents : Run.EachStep (serverStep P)
      (fun s ev => ContentEvent ev ∧ KeepsContent P vaultId s ev) s es) :
    Run.Throughout (serverStep P) (ContentAgreement P cfg now vaultId) s es := by
  have hinv := replay_invariant_of_ops now (P := P)
    (A := ContentInvariant vaultId) (W := fun _ _ => True)
    (C := fun s ev => ContentEvent ev ∧ KeepsContent P vaultId s ev)
    (fun s s' e hrows h =>
      ⟨fun fileId => by rw [ContentSyncedAt, hrows fileId]; exact h.1 fileId, h.2⟩)
    (fun s e seq h => h)
    (fun s t input h => absurd h.1 id)
    (fun s t uuid op userId applied e h hC ha hvault =>
      ⟨trivial, contentInvariant_accepted hcommon hfetch h hC.2 hC.1 ha hvault⟩)
    hs ?_ hevents
  · exact hinv.mono fun s ⟨e, he⟩ => ⟨e, he.done, he.agrees.1⟩
  · -- a fresh vault has no rows, a fresh client no entries
    refine ⟨fun fileId => ?_, fun fileId entry h => ?_⟩
    · unfold ContentSyncedAt
      split
      · rfl
      · next file hfile =>
        exact absurd (Store.key_of_getFile hfile).1 (hs.files file (Table.mem_of_get? hfile))
    · simp [freshEngine, LocalIndex.byFileId] at h

/-! ### A conflict seen from a replica -/

/-- A note is made, edited, deleted and restored with its first text. -/
def lifeOfANote : List ServerEvent :=
  [.process 1 sampleUuid
      (sampleContentOp .create "o1" "d1" "f1" 1 (some "a.md") (sampleVV "d1" 1) "one")
      (some "u"),
    .process 2 sampleUuid
      (sampleContentOp .update "o2" "d1" "f1" 2 (some "a.md") (sampleVV "d1" 2) "two")
      (some "u"),
    .process 3 sampleUuid (sampleDelete "o3" "d2" "f1" 1) (some "u"),
    .process 4 sampleUuid
      { sampleContentOp .restore "o4" "d1" "f1" 3 none (sampleVV "d1" 3) "one" with
        inlineText := none }
      (some "u")]

/-- The replicas of such a note agree with the server at all times. -/
theorem contentAgreement_lifeOfANote :
    Run.Throughout (serverStep samplePlatform) (ContentAgreement samplePlatform sampleConfig 9 "v")
      sampleStore lifeOfANote :=
  contentAgreement_of_keepsContent 9 (fun _ => rfl) (fun _ _ => rfl)
    ⟨by decide, by decide, by decide⟩ (by decide +kernel)

/-- A note is made, and another device edits it without having seen it. -/
def concurrentEdit : List ServerEvent :=
  [.process 1 sampleUuid
      (sampleContentOp .create "o1" "d1" "f1" 1 (some "a.md") (sampleVV "d1" 1) "one")
      (some "u"),
    .process 2 sampleUuid
      (sampleContentOp .update "o2" "d2" "f1" 1 (some "a.md") (sampleVV "d2" 1) "two")
      (some "u")]

/-- The server keeps the first text and opens a conflict; a replica writes the
second one. -/
theorem not_contentAgreement_concurrentEdit :
    ¬ ContentAgreement samplePlatform sampleConfig 9 "v"
      (Run.final (serverStep samplePlatform) sampleStore concurrentEdit) := by
  rintro ⟨e, hdone, hsync⟩
  have hreplay : (replay samplePlatform sampleConfig 9 (Run.final (serverStep samplePlatform)
      sampleStore concurrentEdit) "v").2 = e := congrArg Prod.snd hdone
  have hnote := hsync "f1"
  rw [← hreplay] at hnote
  revert hnote
  decide +kernel

end ObsidianSync
