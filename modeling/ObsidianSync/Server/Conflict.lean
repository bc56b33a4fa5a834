import ObsidianSync.Server.OpSpec

/-!
# The conflict service

A conflict is claimed by a device, may be released, and is resolved by the
device that claimed it, which writes the resolved content to the file.

## Main definitions

* `claim`, `release`, `resolve` — `ConflictService`.
* `resolution` — what a resolution that goes through writes.

## Main results

* `resolve_of_resolution`, `resolve_of_no_resolution` — `resolve` by its outcome.
* `frame_claim`, `frame_release` — claiming and releasing touch conflicts only.
-/

namespace ObsidianSync

/-- `throw new SyncError(code, message)`. -/
def refuse {α : Type} (code : ErrorCode) (message : String) : Except SyncError α :=
  .error { code, message }

/-- The checks before a call on a conflict: its vault, and the role of the user. -/
def requireConflictAccess (s : Store) (conflict : ConflictRecord) (vaultId userId : String)
    (write : Bool) : Except SyncError Unit :=
  if conflict.vaultId ≠ vaultId then refuse .FORBIDDEN "Conflict does not belong to this vault"
  else
    let message := if write then "Write permission required" else "Read permission required"
    match s.getRole vaultId userId with
    | none => refuse .FORBIDDEN message
    | some role => if write && !role.canWrite then refuse .FORBIDDEN message else .ok ()

/-! ### Claim and release -/

/-- `ConflictService.claim`. -/
def claim (vaultId userId deviceId conflictId : String) (s : Store) :
    Except SyncError ConflictRecord × Store :=
  match s.getConflict conflictId with
  | none => (refuse .NOT_FOUND "Conflict not found", s)
  | some conflict =>
    match requireConflictAccess s conflict vaultId userId true with
    | .error e => (.error e, s)
    | .ok _ =>
      if conflict.status = .resolved then
        (refuse .CONFLICT_ALREADY_RESOLVED "Conflict already resolved", s)
      -- the device that holds the claim may claim again
      else if conflict.status = .claimed && truthy conflict.claimedBy &&
          conflict.claimedBy ≠ some deviceId then
        (refuse .FORBIDDEN "Conflict is claimed by another device", s)
      else
        let claimed := { conflict with status := .claimed, claimedBy := some deviceId }
        match s.compareAndSetConflict claimed conflict.status conflict.claimedBy with
        | (true, s) => (.ok claimed, s)
        -- another claim came in between: say which way it went
        | (false, s) =>
          match s.getConflict conflictId with
          | none => (refuse .NOT_FOUND "Conflict not found", s)
          | some latest =>
            if latest.status = .resolved then
              (refuse .CONFLICT_ALREADY_RESOLVED "Conflict already resolved", s)
            else if truthy latest.claimedBy && latest.claimedBy ≠ some deviceId then
              (refuse .FORBIDDEN "Conflict is claimed by another device", s)
            else (refuse .CONFLICT_NOT_CLAIMED "Conflict claim changed concurrently", s)

/-- `ConflictService.release`. -/
def release (vaultId userId deviceId conflictId : String) (s : Store) :
    Except SyncError ConflictRecord × Store :=
  match s.getConflict conflictId with
  | none => (refuse .NOT_FOUND "Conflict not found", s)
  | some conflict =>
    match requireConflictAccess s conflict vaultId userId true with
    | .error e => (.error e, s)
    | .ok _ =>
      if conflict.status = .resolved then
        (refuse .CONFLICT_ALREADY_RESOLVED "Conflict already resolved", s)
      else if conflict.claimedBy ≠ some deviceId then
        (refuse .CONFLICT_NOT_CLAIMED "Conflict not claimed by this device", s)
      else
        let released := { conflict with status := .opened, claimedBy := none }
        match s.compareAndSetConflict released conflict.status (some deviceId) with
        | (true, s) => (.ok released, s)
        | (false, s) =>
          match s.getConflict conflictId with
          | none => (refuse .NOT_FOUND "Conflict not found", s)
          | some latest =>
            if latest.status = .resolved then
              (refuse .CONFLICT_ALREADY_RESOLVED "Conflict already resolved", s)
            else (refuse .CONFLICT_NOT_CLAIMED "Conflict not claimed by this device", s)

/-! ### Resolve -/

/-- The argument of `resolve`. -/
structure ResolveInput where
  vaultId : String
  userId : String
  conflictId : String
  deviceId : String
  resolvedHash : Option String := none
  inlineText : Option String := none
  resolvedVV : VersionVector
  allowPendingResolvedHash : Bool := false
  deriving DecidableEq

/-- The hash, blob and size of the resolved content. -/
structure ResolvedContent where
  hash : String
  blobRef : Option String
  size : Option ℕ

/-- The checks on the resolved content.  Where it is not inline, it must be there:
as a verified blob or as kept content. -/
def checkResolvedContent (P : Platform) (input : ResolveInput) (conflict : ConflictRecord)
    (s : Store) : Except SyncError ResolvedContent :=
  if input.resolvedHash.any fun hash => !isValidContentHash hash then
    refuse .BAD_REQUEST "Invalid resolved hash"
  else if input.resolvedHash.isSome && input.inlineText.isSome then
    refuse .BAD_REQUEST "Provide either resolvedHash or inlineText, not both"
  else if !truthy (input.resolvedHash.or (input.inlineText.map (contentHashText P))) then
    refuse .BAD_REQUEST "Resolved content required"
  else
    let hash := (input.resolvedHash.or (input.inlineText.map (contentHashText P))).getD ""
    match input.inlineText with
    | some inlineText => .ok { hash, blobRef := none, size := some (encodeText inlineText).length }
    | none =>
      -- the vault need not hold a hash that it has announced itself
      if !s.hasContentForVault conflict.vaultId hash && !input.allowPendingResolvedHash then
        refuse .FORBIDDEN "Resolved content is not available for this vault"
      else
        let verified := (s.getBlob hash).filter fun blob => blob.state = .verified
        match verified with
        | some blob => .ok { hash, blobRef := some hash, size := some blob.size }
        | none =>
          match s.getContent hash with
          | none => refuse .BAD_REQUEST "Resolved content not found"
          | some content => .ok { hash, blobRef := none, size := some content.length }

/-- The vector of a resolved file. -/
def joinedVV (input : ResolveInput) (conflict : ConflictRecord) : VersionVector :=
  VersionVector.bump
    (VersionVector.join
      (VersionVector.join (conflict.oursVV.getD VersionVector.emptyVV)
        (conflict.theirsVV.getD VersionVector.emptyVV))
      input.resolvedVV)
    input.deviceId

/-- The record of a resolved conflict. -/
def resolvedConflict (input : ResolveInput) (conflict : ConflictRecord)
    (content : ResolvedContent) : ConflictRecord :=
  { conflict with
    status := .resolved
    resolvedBy := some input.deviceId
    resolvedHash := some content.hash
    resolvedVV := some (joinedVV input conflict) }

/-- The row a resolution writes. -/
def resolvedFile (now : Time) (input : ResolveInput) (conflict : ConflictRecord)
    (content : ResolvedContent) (file : StoredFile) : StoredFile :=
  { file with
    contentHash := some content.hash
    blobRef := content.blobRef
    size := content.size
    contentEncoding := if truthy content.blobRef then file.contentEncoding else none
    contentVV := joinedVV input conflict
    conflictId := none
    deleted := false
    deletedAt := none
    updatedAt := now }

/-- The references and the inline text a resolution writes before it claims the
record. -/
def resolutionRefs (input : ResolveInput) (conflict : ConflictRecord)
    (content : ResolvedContent) (file : StoredFile) (s : Store) : Store :=
  let s :=
    match input.inlineText with
    | some inlineText => s.putContent content.hash (encodeText inlineText)
    | none => s
  -- both sides lose their reference, whichever of them was chosen
  let s :=
    if truthy conflict.oursHash then
      s.removeBlobRef (conflict.oursHash.getD "") .conflictSide (conflict.conflictId ++ ":ours")
    else s
  let s :=
    if truthy conflict.theirsHash then
      s.removeBlobRef (conflict.theirsHash.getD "") .conflictSide
        (conflict.conflictId ++ ":theirs")
    else s
  let s :=
    if truthy file.blobRef && file.blobRef ≠ content.blobRef then
      s.removeBlobRef (file.blobRef.getD "") .fileLive file.fileId
    else s
  if truthy content.blobRef then
    s.addBlobRef { hash := content.blobRef.getD "", refType := .fileLive, refId := file.fileId }
  else s

/-- `ConflictService.resolve`. -/
def resolve (P : Platform) (now : Time) (input : ResolveInput) (s : Store) :
    Except SyncError ConflictRecord × Store :=
  match s.getConflict input.conflictId with
  | none => (refuse .NOT_FOUND "Conflict not found", s)
  | some conflict =>
    match requireConflictAccess s conflict input.vaultId input.userId true with
    | .error e => (.error e, s)
    | .ok _ =>
      -- resolving twice is answered as the first time
      if conflict.status = .resolved then (.ok conflict, s)
      else if conflict.claimedBy ≠ some input.deviceId then
        (refuse .CONFLICT_NOT_CLAIMED "Conflict must be claimed before resolving", s)
      else
        match s.getFile conflict.vaultId conflict.fileId with
        | none => (refuse .NOT_FOUND "File not found", s)
        | some file =>
          match checkResolvedContent P input conflict s with
          | .error e => (.error e, s)
          | .ok content =>
            let resolved := resolvedConflict input conflict content
            match (resolutionRefs input conflict content file s).compareAndSetConflict resolved
                conflict.status (some input.deviceId) with
            -- the row is written without an entry in the op log
            | (true, s) => (.ok resolved, s.saveFile (resolvedFile now input conflict content file))
            | (false, s) =>
              match s.getConflict input.conflictId with
              | none => (refuse .NOT_FOUND "Conflict not found", s)
              | some latest =>
                if latest.status = .resolved then (.ok latest, s)
                else (refuse .CONFLICT_NOT_CLAIMED "Conflict must be claimed before resolving", s)

/-! ### Outcomes -/

/-- A record that was just read is still as it was read. -/
theorem compareAndSetConflict_of_current {s : Store} (conflict : ConflictRecord)
    {current : ConflictRecord} (h : s.getConflict conflict.conflictId = some current) :
    s.compareAndSetConflict conflict current.status current.claimedBy
      = (true, { s with conflicts := s.conflicts.set conflict }) := by
  simp [Store.compareAndSetConflict, h]

theorem conflictId_of_getConflict {s : Store} {conflictId : String} {conflict : ConflictRecord}
    (h : s.getConflict conflictId = some conflict) : conflict.conflictId = conflictId :=
  Table.key_of_get? h

/-- Claiming writes the claimed record, or nothing. -/
theorem claim_cases (vaultId userId deviceId conflictId : String) (s : Store) :
    (claim vaultId userId deviceId conflictId s).2 = s ∨
    ∃ conflict claimed, s.getConflict conflictId = some conflict ∧ conflict.status ≠ .resolved ∧
      claimed = { conflict with status := .claimed, claimedBy := some deviceId } ∧
      (claim vaultId userId deviceId conflictId s).2
        = { s with conflicts := s.conflicts.set claimed } := by
  unfold claim
  cases hconflict : s.getConflict conflictId with
  | none => exact Or.inl rfl
  | some conflict =>
    dsimp only
    split
    · exact Or.inl rfl
    split
    · exact Or.inl rfl
    next hopen =>
    split
    · exact Or.inl rfl
    have hget : s.getConflict conflict.conflictId = some conflict := by
      rwa [conflictId_of_getConflict hconflict]
    rw [compareAndSetConflict_of_current
      { conflict with status := .claimed, claimedBy := some deviceId } hget]
    exact Or.inr ⟨conflict, _, rfl, hopen, rfl, rfl⟩

/-- Releasing writes the reopened record, or nothing. -/
theorem release_cases (vaultId userId deviceId conflictId : String) (s : Store) :
    (release vaultId userId deviceId conflictId s).2 = s ∨
    ∃ conflict released, s.getConflict conflictId = some conflict ∧ conflict.status ≠ .resolved ∧
      released = { conflict with status := .opened, claimedBy := none } ∧
      (release vaultId userId deviceId conflictId s).2
        = { s with conflicts := s.conflicts.set released } := by
  unfold release
  cases hconflict : s.getConflict conflictId with
  | none => exact Or.inl rfl
  | some conflict =>
    dsimp only
    split
    · exact Or.inl rfl
    split
    · exact Or.inl rfl
    next hopen =>
    split
    · exact Or.inl rfl
    next hclaimed =>
    have hget : s.getConflict conflict.conflictId = some conflict := by
      rwa [conflictId_of_getConflict hconflict]
    rw [← not_not.mp hclaimed, compareAndSetConflict_of_current
      { conflict with status := .opened, claimedBy := none } hget]
    exact Or.inr ⟨conflict, _, rfl, hopen, rfl, rfl⟩

/-- A resolution that goes through: the conflict, its file and the content it
writes. -/
structure Resolution where
  conflict : ConflictRecord
  file : StoredFile
  content : ResolvedContent

/-- What `resolve` writes, if the conflict is open, claimed by the device and has
a file, and the content is there. -/
def resolution (P : Platform) (input : ResolveInput) (s : Store) : Option Resolution :=
  match s.getConflict input.conflictId with
  | none => none
  | some conflict =>
    if conflict.status = .resolved ∨ conflict.claimedBy ≠ some input.deviceId then none
    else
      match requireConflictAccess s conflict input.vaultId input.userId true,
        s.getFile conflict.vaultId conflict.fileId,
        checkResolvedContent P input conflict s with
      | .ok _, some file, .ok content => some { conflict, file, content }
      | _, _, _ => none

/-- The store with the inline text of a resolution. -/
def resolutionText (input : ResolveInput) (content : ResolvedContent) (s : Store) : Store :=
  match input.inlineText with
  | some inlineText => s.putContent content.hash (encodeText inlineText)
  | none => s

theorem refsOnly_resolutionRefs (input : ResolveInput) (conflict : ConflictRecord)
    (content : ResolvedContent) (file : StoredFile) (s : Store) :
    RefsOnly (resolutionText input content s)
      (resolutionRefs input conflict content file s) := by
  -- the references are removed and added one after the other
  have h₁ := RefsOnly.ite (c := truthy conflict.oursHash)
    (.removeBlobRef (.refl (resolutionText input content s)) (conflict.oursHash.getD "")
      .conflictSide (conflict.conflictId ++ ":ours")) (.refl _)
  have h₂ := RefsOnly.ite (c := truthy conflict.theirsHash)
    (h₁.removeBlobRef (conflict.theirsHash.getD "") .conflictSide
      (conflict.conflictId ++ ":theirs")) h₁
  have h₃ := RefsOnly.ite (c := truthy file.blobRef && file.blobRef ≠ content.blobRef)
    (h₂.removeBlobRef (file.blobRef.getD "") .fileLive file.fileId) h₂
  exact .ite (h₃.addBlobRef
    { hash := content.blobRef.getD "", refType := .fileLive, refId := file.fileId }) h₃

theorem frame_resolutionRefs (input : ResolveInput) (conflict : ConflictRecord)
    (content : ResolvedContent) (file : StoredFile) (s : Store) :
    Frame s (resolutionRefs input conflict content file s)
      ∧ (resolutionRefs input conflict content file s).conflicts = s.conflicts := by
  have hrefs := refsOnly_resolutionRefs input conflict content file s
  have htext : Frame s (resolutionText input content s)
      ∧ (resolutionText input content s).conflicts = s.conflicts := by
    unfold resolutionText
    split
    · exact ⟨⟨rfl, rfl, rfl, rfl, rfl, rfl, rfl⟩, rfl⟩
    · exact ⟨.refl s, rfl⟩
  exact ⟨htext.1.trans hrefs.frame, hrefs.conflicts.trans htext.2⟩

/-- A resolution that goes through writes the file and the record. -/
theorem resolve_of_resolution {P : Platform} (now : Time) {input : ResolveInput} {s : Store}
    {r : Resolution} (h : resolution P input s = some r) :
    s.getConflict input.conflictId = some r.conflict ∧
    r.conflict.status ≠ .resolved ∧
    s.getFile r.conflict.vaultId r.conflict.fileId = some r.file ∧
    (resolve P now input s).2
      = { resolutionRefs input r.conflict r.content r.file s with
          files := s.files.set (resolvedFile now input r.conflict r.content r.file)
          conflicts := s.conflicts.set (resolvedConflict input r.conflict r.content) } := by
  unfold resolution at h
  cases hconflict : s.getConflict input.conflictId with
  | none => simp [hconflict] at h
  | some conflict =>
    simp only [hconflict] at h
    split at h
    · simp at h
    next hopen =>
    rw [not_or, not_not] at hopen
    obtain ⟨hstatus, hclaimed⟩ := hopen
    split at h
    case h_2 => simp at h
    next u file content haccess hfile hcontent =>
    obtain rfl : Resolution.mk conflict file content = r := by simpa using h
    refine ⟨rfl, hstatus, hfile, ?_⟩
    obtain ⟨hframe, hconf⟩ := frame_resolutionRefs input conflict content file s
    have hget : (resolutionRefs input conflict content file s).getConflict
        conflict.conflictId = some conflict := by
      rw [Store.getConflict, hconf, conflictId_of_getConflict hconflict]
      exact hconflict
    simp only [resolve, hconflict, haccess, hstatus, if_false, hclaimed, ne_eq, not_true,
      hfile, hcontent]
    rw [← hclaimed, compareAndSetConflict_of_current
      (resolvedConflict input conflict content) hget]
    simp only [Store.saveFile, hframe.files, hconf]

/-- A resolution that does not go through writes nothing. -/
theorem resolve_of_no_resolution {P : Platform} {now : Time} {input : ResolveInput} {s : Store}
    (h : resolution P input s = none) : (resolve P now input s).2 = s := by
  unfold resolution at h
  unfold resolve
  cases hconflict : s.getConflict input.conflictId with
  | none => rfl
  | some conflict =>
    simp only [hconflict] at h
    dsimp only
    split
    · rfl
    next haccess =>
    split
    · rfl
    next hstatus =>
    split
    · rfl
    next hclaimed =>
    rw [if_neg (by simpa [hstatus] using hclaimed)] at h
    split
    · rfl
    next file hfile =>
    split
    · rfl
    next content hcontent => simp [haccess, hfile, hcontent] at h

/-- The checks a resolution that goes through has passed. -/
theorem checked_of_resolution {P : Platform} {input : ResolveInput} {s : Store}
    {r : Resolution} (hr : resolution P input s = some r) :
    r.conflict.vaultId = input.vaultId ∧
      checkResolvedContent P input r.conflict s = .ok r.content := by
  unfold resolution at hr
  split at hr
  · simp at hr
  next conflict _ =>
  split at hr
  · simp at hr
  split at hr
  case h_2 => simp at hr
  next u file content haccess _ hcontent =>
  obtain rfl : Resolution.mk conflict file content = r := by simpa using hr
  refine ⟨?_, hcontent⟩
  by_contra hne
  simp [requireConflictAccess, hne, refuse] at haccess

/-- Where the content of a resolution comes from. -/
inductive ChosenContent (P : Platform) (input : ResolveInput) (conflict : ConflictRecord)
    (s : Store) : ResolvedContent → Prop
  /-- The text of the message. -/
  | text {inlineText : String} (inline : input.inlineText = some inlineText)
      (resolved : input.resolvedHash = none) :
      ChosenContent P input conflict s
        { hash := contentHashText P inlineText, blobRef := none,
          size := some (encodeText inlineText).length }
  /-- A verified blob. -/
  | blob {hash : String} {blob : BlobRecord} (inline : input.inlineText = none)
      (resolved : input.resolvedHash = some hash) (ne : hash ≠ "")
      (allowed : s.hasContentForVault conflict.vaultId hash = true ∨
        input.allowPendingResolvedHash = true)
      (get : s.getBlob hash = some blob) (verified : blob.state = .verified) :
      ChosenContent P input conflict s { hash, blobRef := some hash, size := some blob.size }
  /-- Kept content, where the blob is not verified. -/
  | kept {hash : String} {bytes : Bytes} (inline : input.inlineText = none)
      (resolved : input.resolvedHash = some hash) (ne : hash ≠ "")
      (allowed : s.hasContentForVault conflict.vaultId hash = true ∨
        input.allowPendingResolvedHash = true)
      (unverified : ((s.getBlob hash).filter fun blob => blob.state = .verified) = none)
      (get : s.getContent hash = some bytes) :
      ChosenContent P input conflict s { hash, blobRef := none, size := some bytes.length }

/-- The content that passes the checks is there. -/
theorem chosen_of_checkResolvedContent {P : Platform} {input : ResolveInput}
    {conflict : ConflictRecord} {s : Store} {content : ResolvedContent}
    (h : checkResolvedContent P input conflict s = .ok content) :
    ChosenContent P input conflict s content := by
  unfold checkResolvedContent at h
  split at h
  · simp [refuse] at h
  split at h
  · simp [refuse] at h
  next hone =>
  split at h
  · simp [refuse] at h
  next hsome =>
  dsimp only at h
  cases htext : input.inlineText with
  | some text =>
    have hnone : input.resolvedHash = none := by simpa [htext] using hone
    simp only [htext, hnone, Except.ok.injEq] at h
    rw [← h]
    exact .text htext hnone
  | none =>
    simp only [htext, Option.map_none, Option.or_none] at h hsome
    obtain ⟨hash, hresolved⟩ : ∃ hash, input.resolvedHash = some hash := by
      cases hr : input.resolvedHash with
      | none => simp [hr] at hsome
      | some hash => exact ⟨hash, rfl⟩
    have hne : hash ≠ "" := by simpa [hresolved] using hsome
    simp only [hresolved, Option.getD_some] at h
    split at h
    · simp [refuse] at h
    next hrefused =>
    have hallowed : s.hasContentForVault conflict.vaultId hash = true ∨
        input.allowPendingResolvedHash = true := by
      cases hheld : s.hasContentForVault conflict.vaultId hash <;> simp_all
    split at h
    · next blob hverified =>
      obtain ⟨hget, hstate⟩ := Option.filter_eq_some_iff.mp hverified
      rw [← Except.ok.inj h]
      exact .blob htext hresolved hne hallowed hget (by simpa using hstate)
    · next hunverified =>
      split at h
      · simp [refuse] at h
      · next bytes hget =>
        rw [← Except.ok.inj h]
        exact .kept htext hresolved hne hallowed hunverified hget

theorem ChosenContent.of_text {P : Platform} {input : ResolveInput} {s : Store}
    {conflict : ConflictRecord} {content : ResolvedContent}
    (h : ChosenContent P input conflict s content) {text : String}
    (hinline : input.inlineText = some text) :
    content.blobRef = none ∧ content.hash = contentHashText P text := by
  cases h with
  | text inline => exact ⟨rfl, by rw [Option.some.inj (inline.symm.trans hinline)]⟩
  | blob inline => exact absurd (hinline.symm.trans inline) (Option.some_ne_none _)
  | kept inline => exact absurd (hinline.symm.trans inline) (Option.some_ne_none _)

theorem ChosenContent.of_hash {P : Platform} {input : ResolveInput} {s : Store}
    {conflict : ConflictRecord} {content : ResolvedContent}
    (h : ChosenContent P input conflict s content) (hinline : input.inlineText = none) :
    input.resolvedHash = some content.hash := by
  cases h with
  | text inline => exact absurd (inline.symm.trans hinline) (Option.some_ne_none _)
  | blob inline resolved => exact resolved
  | kept inline resolved => exact resolved

theorem ChosenContent.of_resolvedHash {P : Platform} {input : ResolveInput} {s : Store}
    {conflict : ConflictRecord} {content : ResolvedContent}
    (h : ChosenContent P input conflict s content) {hash : String}
    (hresolved : input.resolvedHash = some hash) : content.hash = hash := by
  cases h with
  | text inline resolved =>
    exact absurd (hresolved.symm.trans resolved) (Option.some_ne_none _)
  | blob inline resolved => exact Option.some.inj (resolved.symm.trans hresolved)
  | kept inline resolved => exact Option.some.inj (resolved.symm.trans hresolved)

end ObsidianSync
