import ObsidianSync.Server.OpSpec

/-!
# Ops that are accepted

What is enough for the processor to accept a content op: the converse of
`OpSpec`, which says what an accepted op has met.

## Main definitions

* `BlobReady`, `WellFormedContent`, `NextOfDevice` — the checks before the file is
  looked at.

## Main results

* `validatePayload_of_wellFormed` — a well-formed payload passes.
* `accepted_of_dominates` — a content op on a live row that it dominates.
* `accepted_of_free` — a create of a new file at a free path.
-/

namespace ObsidianSync

/-- The blob of an op is verified and has the declared size. -/
def BlobReady (op : FileOp) (s : Store) : Prop :=
  truthy op.blobRef = true →
    ∃ blob ∈ s.getBlob (op.blobRef.getD ""), blob.state = .verified ∧ some blob.size = op.size

instance (op : FileOp) (s : Store) : Decidable (BlobReady op s) := by
  unfold BlobReady
  infer_instance

/-- A content op with a path and content as clients make them. -/
structure WellFormedContent (P : Platform) (op : FileOp) (path : String) : Prop where
  opId : op.opId ≠ ""
  deviceId : op.deviceId ≠ ""
  vaultId : op.vaultId ≠ ""
  fileId : op.fileId ≠ ""
  deviceSeq : 1 ≤ op.deviceSeq
  safeSeq : isSafeInteger op.deviceSeq = true
  newPath : op.newPath = some path
  canonical : normalizePath P path = .ok path
  contentHash : ∃ hash, op.contentHash = some hash ∧ isValidContentHash hash = true
  inlineText : ∀ text, op.inlineText = some text →
    op.contentHash = some (contentHashText P text) ∧ op.contentEncoding = none ∧ op.blobRef = none
  blobRef : op.contentEncoding.isSome = true → truthy op.blobRef = true

/-- The op is the next one of a device that may write to its vault. -/
structure NextOfDevice (op : FileOp) (userId : String) (device : StoredDevice) (s : Store) :
    Prop where
  notSynthetic : syntheticCollab op = false
  known : s.getDevice op.deviceId = some device
  vaultId : device.vaultId = op.vaultId
  notRevoked : device.revoked = false
  canWrite : (s.getRole op.vaultId userId).elim false Role.canWrite = true
  deviceSeq : op.deviceSeq = device.lastDeviceSeq + 1

section

variable {P : Platform} {op : FileOp} {path : String} {s : Store}

theorem checkBlob_of_ready (h : BlobReady op s) : checkBlob op s = .ok () := by
  unfold checkBlob
  by_cases hblob : truthy op.blobRef = true
  · obtain ⟨blob, hget, hstate, hsize⟩ := h hblob
    rw [if_pos hblob, Option.mem_def.mp hget]
    simp [hstate, hsize]
  · rw [if_neg hblob]

theorem validatePayload_of_wellFormed (h : WellFormedContent P op path)
    (hblob : BlobReady op s) : ∃ tx, validatePayload P op s = (.ok (), tx) := by
  obtain ⟨hash, hhash, hvalid⟩ := h.contentHash
  have hne : path ≠ "" := ne_empty_of_normalizePath h.canonical
  have hids : (op.opId = "" || op.deviceId = "" || op.vaultId = "" || op.fileId = "" ||
      !isSafeInteger op.deviceSeq || decide (op.deviceSeq < 1)) = false := by
    have := h.deviceSeq
    simp [h.opId, h.deviceId, h.vaultId, h.fileId, h.safeSeq]
    omega
  have hpath : truthy op.newPath = true := by simp [h.newPath, hne]
  have hnorm : normalized P (op.newPath.getD "") = .ok path := by
    rw [h.newPath]
    exact normalized_ok_iff.mpr h.canonical
  unfold validatePayload
  rw [hids, if_neg (by simp), if_neg (by simp [hpath]), if_pos hpath, hnorm]
  dsimp only
  split
  · unfold validateContent
    rw [hhash, Option.getD_some, hvalid]
    cases htext : op.inlineText with
    | none =>
      have hencoded : (op.contentEncoding.isSome && !truthy op.blobRef &&
          (s.getContent hash).isNone) = false := by
        cases henc : op.contentEncoding.isSome with
        | false => rfl
        | true => simp [h.blobRef henc]
      simp [hencoded, checkBlob_of_ready hblob]
    | some text =>
      obtain ⟨hhash', henc, href⟩ := h.inlineText text htext
      rw [hhash, Option.some.injEq] at hhash'
      have hcheck : ∀ tx : Store, checkBlob op tx = .ok () := fun tx => by
        simp [checkBlob, href]
      simp [henc, hhash', hcheck]
  · exact ⟨s, rfl⟩

theorem checkDevice_of_next {userId : String} {device : StoredDevice}
    (h : NextOfDevice op userId device s) : checkDevice op (some userId) s = none := by
  unfold checkDevice
  rw [h.notSynthetic, h.known]
  simp [h.vaultId, h.notRevoked, h.canWrite, h.deviceSeq]

variable {now : Time} {uuid : Uuid} {userId : String} {device : StoredDevice}

/-- A new content op that passes the checks is applied if its applier succeeds. -/
theorem accepted_of_applyOp (now : Time) (hfresh : s.getOpById op.opId = none)
    (hdevice : NextOfDevice op userId device s) (hpayload : WellFormedContent P op path)
    (hblob : BlobReady op s)
    (happly : ∀ tx : Store, Frame s tx →
      ∃ applied, applyOp P now uuid op (opRow op s) tx = .ok applied) :
    ∃ applied, accepted P now uuid op (some userId) s = some applied := by
  obtain ⟨tx, hvalid⟩ := validatePayload_of_wellFormed hpayload hblob
  have hframe : Frame s tx := by
    rw [(validatePayload_ok hvalid).2]
    exact (frame_checkedContent op s).1
  obtain ⟨applied, hok⟩ := happly tx hframe
  refine ⟨applied, ?_⟩
  unfold accepted
  rw [hfresh, checkDevice_of_next hdevice, hvalid]
  simp only [Option.isSome_none, Bool.or_self, Bool.false_eq_true, if_false]
  rw [hframe.getFile, ← opRow, hok]
  rfl

/-- **A content op that dominates a live row is accepted** and overwrites it. -/
theorem accepted_of_dominates {file : StoredFile} (hfresh : s.getOpById op.opId = none)
    (hdevice : NextOfDevice op userId device s) (hpayload : WellFormedContent P op path)
    (hblob : BlobReady op s) (hkind : op.kind = .create ∨ op.kind = .update)
    (hrow : opRow op s = some file) (hlive : file.deleted = false)
    (hactive : isActive now file = false) (hfrozen : truthy file.conflictId = false)
    (hdom : VersionVector.dominates (declaredVV op) file.contentVV = true) :
    ∃ applied, accepted P now uuid op (some userId) s = some applied ∧
      applied.file = updatedFile now op file ∧ applied.conflictId = none := by
  have hdom' : VersionVector.dominates (op.newContentVV.getD VersionVector.emptyVV)
      file.contentVV = true := hdom
  obtain ⟨applied, ha⟩ := accepted_of_applyOp now hfresh hdevice hpayload hblob (by
      intro tx hframe
      unfold applyOp
      rcases hkind with hk | hk
      · simp [hrow, hactive, hfrozen, hk, applyCreate, hlive, applyUpdate, hdom']
      · simp [hrow, hactive, hfrozen, hk, requiredFile, applyUpdate, hdom'])
  refine ⟨applied, ha, ?_⟩
  -- of the seven effects only the overwriting one is possible
  have hnot : VersionVector.isConcurrent (declaredVV op) file.contentVV = false := by
    simp [VersionVector.isConcurrent, hdom]
  have hrename : op.kind ≠ .rename ∧ op.kind ≠ .delete ∧ op.kind ≠ .restore := by
    rcases hkind with hk | hk <;> simp [hk]
  cases (accepted_spec ha).effect with
  | created kind dead =>
    have := dead file hrow
    simp [hlive] at this
  | @updated row tx hrow' =>
    obtain rfl : file = row := by simpa [hrow] using hrow'
    exact ⟨rfl, rfl⟩
  | @conflicted row tx hrow' kind concurrent =>
    obtain rfl : file = row := by simpa [hrow] using hrow'
    simp [hnot] at concurrent
  | lostRename row kind => exact absurd kind hrename.1
  | renamed row kind => exact absurd kind hrename.1
  | deleted row kind => exact absurd kind hrename.2.1
  | restored row kind => exact absurd kind hrename.2.2

/-- A create of a new file is accepted and makes it under the path that `uniquePath` gives. -/
theorem accepted_of_unique {placed : String} (hfresh : s.getOpById op.opId = none)
    (hdevice : NextOfDevice op userId device s) (hpayload : WellFormedContent P op path)
    (hblob : BlobReady op s) (hkind : op.kind = .create) (hrow : opRow op s = none)
    (hunique : uniquePath P s op.vaultId path op.fileId = .ok placed) :
    ∃ applied, accepted P now uuid op (some userId) s = some applied ∧
      applied.file = newStoredFile P now op placed
        (op.pathClock.getD { lamport := 1, deviceId := op.deviceId }) ∧
      applied.conflictId = none := by
  have hcanon : normalized P (op.newPath.getD op.fileId) = .ok path := by
    rw [hpayload.newPath]
    exact normalized_ok_iff.mpr hpayload.canonical
  obtain ⟨applied, ha⟩ := accepted_of_applyOp now hfresh hdevice hpayload
    hblob (by
      intro tx hframe
      have hplaced : uniquePath P tx op.vaultId path op.fileId = .ok placed := by
        rw [uniquePath_congr hframe.files]
        exact hunique
      unfold applyOp
      simp [hrow, hkind, applyCreate, hcanon, hplaced])
  refine ⟨applied, ha, ?_⟩
  cases (accepted_spec ha).effect with
  | @created desired path' tx kind dead canonical unique =>
    rw [hpayload.newPath, Option.getD_some, hpayload.canonical, Except.ok.injEq] at canonical
    subst canonical
    rw [hunique, Except.ok.injEq] at unique
    subst unique
    exact ⟨rfl, rfl⟩
  | updated row | conflicted row | lostRename row | renamed row | deleted row | restored row =>
    simp [hrow] at row

/-- **A create of a new file at a free path is accepted** and makes it there. -/
theorem accepted_of_free (hfresh : s.getOpById op.opId = none)
    (hdevice : NextOfDevice op userId device s) (hpayload : WellFormedContent P op path)
    (hblob : BlobReady op s) (hkind : op.kind = .create) (hrow : opRow op s = none)
    (hfree : PathFree P s op.vaultId path op.fileId) :
    ∃ applied, accepted P now uuid op (some userId) s = some applied ∧
      applied.file = newStoredFile P now op path
        (op.pathClock.getD { lamport := 1, deviceId := op.deviceId }) ∧
      applied.conflictId = none :=
  accepted_of_unique hfresh hdevice hpayload hblob hkind hrow (uniquePath_of_pathFree hfree)

end

end ObsidianSync
