import ObsidianSync.Server.Acceptance
import ObsidianSync.Server.ConflictBase
import ObsidianSync.Socket.Answers
import ObsidianSync.Socket.Hashes

/-!
# What a vault holds, it keeps

A row forgets its hash when it gets another one, so a vault could lose a hash it
held.  It does not: the log and the resolved conflicts, which nothing rewrites,
name every hash that a row or a conflict names.

With the codes of the rejects this is what the access of later ops rests on.

## Main definitions

* `LastingHash` — the log or a resolved conflict of the vault names the hash.
* `HashesLast` — every hash that is held is named so.

## Main results

* `holdsContent_serverStep` — what is held stays held.
* `not_refused_process` — the processor answers neither `FORBIDDEN` nor `BLOB_MISSING` to a
  member that may write and an op whose blob is ready.
-/

namespace ObsidianSync

/-! ### Lasting hashes -/

/-- The hash is named by the log of the vault or by one of its resolved conflicts. -/
def LastingHash (s : Store) (vaultId hash : String) : Prop :=
  (∃ logged ∈ s.ops, logged.vaultId = vaultId ∧ logged.payload.Names hash) ∨
  ∃ conflict ∈ s.conflicts.rows, conflict.vaultId = vaultId ∧ conflict.status = .resolved ∧
    conflict.resolvedHash = some hash

/-- The rows and the open conflicts name no hashes of their own. -/
def HashesLast (s : Store) : Prop :=
  ∀ vaultId hash, s.holdsContent vaultId hash = true → LastingHash s vaultId hash

section

variable {P : Platform} {s t : Store} {e : ServerEvent} {vaultId hash : String}

theorem LastingHash.held (h : LastingHash s vaultId hash) :
    s.holdsContent vaultId hash = true := by
  rcases h with ⟨logged, hmem, rfl, hnames⟩ | ⟨conflict, hmem, rfl, -, hhash⟩
  · exact holdsContent_of_op hmem hnames
  · exact holdsContent_of_conflict hmem (by simp [ConflictRecord.hashes, hhash])

/-- Writing over a record that is not resolved leaves the resolved ones. -/
theorem mem_conflicts_set {current written conflict : ConflictRecord}
    (hcurrent : current ∈ s.conflicts.rows) (hopen : current.status ≠ .resolved)
    (hid : written.conflictId = current.conflictId) (hmem : conflict ∈ s.conflicts.rows)
    (hresolved : conflict.status = .resolved) : conflict ∈ (s.conflicts.set written).rows := by
  refine Table.mem_set_iff.mpr (Or.inr ⟨hmem, fun hsame => hopen ?_⟩)
  rw [Table.eq_of_key_eq hcurrent hmem (hid.symm.trans hsame.symm)]
  exact hresolved

/-- **A resolved conflict stays as it is**, where the ids of new ones are new. -/
theorem mem_conflicts_serverStep (hfresh : FreshConflictId s e) {conflict : ConflictRecord}
    (hmem : conflict ∈ s.conflicts.rows) (hresolved : conflict.status = .resolved) :
    conflict ∈ (serverStep P s e).conflicts.rows := by
  cases e with
  | process now uuid op userId =>
    cases ha : accepted P now uuid op userId s with
    | none => exact (frame_of_not_accepted ha).2 ▸ hmem
    | some applied =>
      rw [serverStep, process_of_accepted ha, commit_conflicts]
      cases (accepted_spec ha).effect with
      | conflicted found kind concurrent conflicts =>
        rw [conflicts]
        rcases conflictOf_cases uuid op _ s with ⟨-, hsame⟩ | ⟨-, hset⟩
        · rwa [hsame]
        · rw [hset]
          refine Table.mem_set_iff.mpr (Or.inr ⟨hmem, ?_⟩)
          exact Table.get?_eq_none_iff.mp hfresh conflict hmem
      | created kind dead canonical unique conflicts => rwa [conflicts]
      | updated found kind dominates conflicts => rwa [conflicts]
      | lostRename found kind clock_eq loses conflicts => rwa [conflicts]
      | renamed found kind clock_eq wins canonical unique conflicts => rwa [conflicts]
      | deleted found kind conflicts => rwa [conflicts]
      | restored found kind canonical unique conflicts => rwa [conflicts]
  | claim vaultId userId deviceId conflictId =>
    rcases claim_cases vaultId userId deviceId conflictId s with
      h | ⟨current, written, hget, hopen, rfl, h⟩
    · rwa [serverStep, h]
    · rw [serverStep, h]
      exact mem_conflicts_set (Table.mem_of_get? hget) hopen rfl hmem hresolved
  | release vaultId userId deviceId conflictId =>
    rcases release_cases vaultId userId deviceId conflictId s with
      h | ⟨current, written, hget, hopen, rfl, h⟩
    · rwa [serverStep, h]
    · rw [serverStep, h]
      exact mem_conflicts_set (Table.mem_of_get? hget) hopen rfl hmem hresolved
  | resolve now input =>
    cases hr : resolution P input s with
    | none => rwa [serverStep, resolve_of_no_resolution hr]
    | some r =>
      obtain ⟨-, hopen, -, h⟩ := resolve_of_resolution now hr
      rw [serverStep, h]
      exact mem_conflicts_set (resolves_of_resolution hr).conflict hopen rfl hmem hresolved
  | saveDevice device => exact hmem
  | setRole vaultId userId role => exact hmem
  | saveBlob blob => exact hmem
  | putContent hash bytes => exact hmem

theorem lastingHash_serverStep (hfresh : FreshConflictId s e) (h : LastingHash s vaultId hash) :
    LastingHash (serverStep P s e) vaultId hash := by
  rcases h with ⟨logged, hmem, hlogged⟩ | ⟨conflict, hmem, hvault, hresolved, hhash⟩
  · refine Or.inl ⟨logged, ?_, hlogged⟩
    rw [ops_serverStep]
    exact List.mem_append_left _ hmem
  · exact Or.inr ⟨conflict, mem_conflicts_serverStep hfresh hmem hresolved, hvault, hresolved,
      hhash⟩

/-- The hash a resolution writes is that of its record. -/
theorem lastingHash_resolve {now : Time} {input : ResolveInput} {r : Resolution}
    (hr : resolution P input s = some r) :
    LastingHash (serverStep P s (.resolve now input)) r.conflict.vaultId r.content.hash := by
  obtain ⟨-, -, -, h⟩ := resolve_of_resolution now hr
  refine Or.inr ⟨resolvedConflict input r.conflict r.content, ?_, rfl, rfl, rfl⟩
  rw [serverStep, h]
  exact Table.mem_set_iff.mpr (Or.inl rfl)

/-- **Every call leaves the hashes of a vault in its log and its resolved conflicts.** -/
theorem hashesLast_serverStep (hfresh : FreshConflictId s e) (h : HashesLast s) :
    HashesLast (serverStep P s e) := by
  intro vaultId hash hheld
  have hbefore : s.holdsContent vaultId hash = true →
      LastingHash (serverStep P s e) vaultId hash :=
    fun hheld => lastingHash_serverStep hfresh (h vaultId hash hheld)
  cases e with
  | process now uuid op userId =>
    rcases holdsContent_process hheld with hold | ⟨rfl, hsome, hnames⟩
    · exact hbefore hold
    · obtain ⟨applied, ha⟩ := Option.isSome_iff_exists.mp hsome
      refine Or.inl ⟨loggedOp now op applied (s.nextSeq op.vaultId), ?_, rfl, hnames⟩
      rw [ops_serverStep, loggedEntry, ha]
      exact List.mem_append_right _ List.mem_cons_self
  | claim vaultId' userId deviceId conflictId => exact hbefore (holdsContent_claim hheld)
  | release vaultId' userId deviceId conflictId => exact hbefore (holdsContent_release hheld)
  | resolve now input =>
    cases hr : resolution P input s with
    | none =>
      rw [serverStep, resolve_of_no_resolution hr] at hheld
      exact hbefore hheld
    | some r =>
      rcases holdsContent_resolve hheld with hold | ⟨rfl, hwritten⟩
      · exact hbefore hold
      · obtain ⟨hvault, hcontent⟩ := checked_of_resolution hr
        have hchosen := chosen_of_checkResolvedContent hcontent
        have hhash : hash = r.content.hash := by
          rcases hwritten with ⟨text, htext, rfl⟩ | ⟨hresolved, -⟩
          · exact (hchosen.of_text htext).2.symm
          · exact (hchosen.of_resolvedHash hresolved).symm
        rw [hhash, ← hvault]
        exact lastingHash_resolve hr
  | saveDevice device => exact hbefore hheld
  | setRole vaultId' userId role => exact hbefore hheld
  | saveBlob blob => exact hbefore hheld
  | putContent hash' bytes => exact hbefore hheld

/-- **What a vault holds, it keeps.** -/
theorem holdsContent_serverStep (hfresh : FreshConflictId s e) (h : HashesLast s)
    (hheld : s.holdsContent vaultId hash = true) :
    (serverStep P s e).holdsContent vaultId hash = true :=
  (lastingHash_serverStep hfresh (h vaultId hash hheld)).held

theorem blobs_serverStep (hother : ∀ blob, e ≠ .saveBlob blob) :
    (serverStep P s e).blobs = s.blobs := by
  cases e with
  | process now uuid op userId =>
    cases ha : accepted P now uuid op userId s with
    | none => exact (frame_of_not_accepted ha).1.blobs
    | some applied =>
      rw [serverStep, process_of_accepted ha, commit_blobs, (accepted_spec ha).frame.blobs]
  | claim vaultId userId deviceId conflictId =>
    rcases claim_cases vaultId userId deviceId conflictId s with h | ⟨_, _, -, -, -, h⟩ <;>
      rw [serverStep, h]
  | release vaultId userId deviceId conflictId =>
    rcases release_cases vaultId userId deviceId conflictId s with h | ⟨_, _, -, -, -, h⟩ <;>
      rw [serverStep, h]
  | resolve now input =>
    cases hr : resolution P input s with
    | none => rw [serverStep, resolve_of_no_resolution hr]
    | some r =>
      obtain ⟨-, -, -, h⟩ := resolve_of_resolution now hr
      rw [serverStep, h]
      exact (frame_resolutionRefs input r.conflict r.content r.file s).1.blobs
  | saveDevice device => rfl
  | setRole vaultId userId role => rfl
  | saveBlob blob => exact absurd rfl (hother blob)
  | putContent hash bytes => rfl

end

/-! ### Codes of rejects -/

/-- The failures of the processor that are not about access. -/
def Failure.Unrelated : Failure → Prop
  | .sync error => error.code ≠ .FORBIDDEN ∧ error.code ≠ .BLOB_MISSING
  | .path _ => True

section

variable {P : Platform} {now : Time} {uuid : Uuid} {op : FileOp} {s tx : Store} {e : Failure}

theorem unrelated_normalized {raw : String} (h : normalized P raw = .error e) : e.Unrelated := by
  obtain ⟨error, rfl, -⟩ := normalized_error h
  trivial

theorem unrelated_uniquePathFrom {vaultId desired fileId : String} {fuel n : ℕ}
    {candidate : String}
    (h : uniquePathFrom P tx vaultId desired fileId fuel n candidate = .error e) :
    e.Unrelated := by
  induction fuel generalizing n candidate with
  | zero =>
    rw [← Except.error.inj h]
    exact ⟨by decide, by decide⟩
  | succ fuel ih =>
    unfold uniquePathFrom at h
    split at h
    · simp at h
    · split at h
      · simp at h
      · exact ih h

theorem unrelated_applyUpdate {file : StoredFile}
    (h : applyUpdate now uuid op file tx = .error e) : e.Unrelated := by
  unfold applyUpdate at h
  dsimp only at h
  split at h
  · split at h
    · simp at h
    · rw [← Except.error.inj h]
      exact ⟨by decide, by decide⟩
  · simp at h

theorem unrelated_requiredFile {file : Option StoredFile} (h : requiredFile file = .error e) :
    e.Unrelated := by
  cases file with
  | none =>
    rw [← Except.error.inj h]
    exact ⟨by decide, by decide⟩
  | some file => simp [requiredFile] at h

theorem unrelated_requiredPathClock {clock : Option PathClock}
    (h : requiredPathClock clock = .error e) : e.Unrelated := by
  unfold requiredPathClock at h
  split at h
  · rw [← Except.error.inj h]
    exact ⟨by decide, by decide⟩
  · split at h
    · rw [← Except.error.inj h]
      exact ⟨by decide, by decide⟩
    · simp at h

theorem unrelated_applyCreate {existing : Option StoredFile}
    (h : applyCreate P now uuid op existing tx = .error e) : e.Unrelated := by
  unfold applyCreate at h
  dsimp only at h
  split at h
  on_goal 2 =>
    split at h
    · exact unrelated_applyUpdate h
  -- a new row, whether there is none or a deleted one
  all_goals
    split at h
    · next hnormalized =>
      rw [← Except.error.inj h]
      exact unrelated_normalized hnormalized
    · split at h
      · next hunique =>
        rw [← Except.error.inj h]
        exact unrelated_uniquePathFrom hunique
      · simp at h

theorem unrelated_applyRename {file : StoredFile}
    (h : applyRename P now op file tx = .error e) : e.Unrelated := by
  unfold applyRename at h
  split at h
  · next hclock =>
    rw [← Except.error.inj h]
    exact unrelated_requiredPathClock hclock
  · split at h
    · simp at h
    · split at h
      · next hnormalized =>
        rw [← Except.error.inj h]
        exact unrelated_normalized hnormalized
      · split at h
        · next hunique =>
          rw [← Except.error.inj h]
          exact unrelated_uniquePathFrom hunique
        · simp at h

theorem unrelated_applyRestore {file : StoredFile}
    (h : applyRestore P now op file tx = .error e) : e.Unrelated := by
  unfold applyRestore at h
  dsimp only at h
  split at h
  · next hnormalized =>
    rw [← Except.error.inj h]
    exact unrelated_normalized hnormalized
  · split at h
    · next hunique =>
      rw [← Except.error.inj h]
      exact unrelated_uniquePathFrom hunique
    · simp at h

theorem unrelated_applyOp {file : Option StoredFile}
    (h : applyOp P now uuid op file tx = .error e) : e.Unrelated := by
  unfold applyOp at h
  split at h
  · rw [← Except.error.inj h]
    exact ⟨by decide, by decide⟩
  split at h
  · rw [← Except.error.inj h]
    exact ⟨by decide, by decide⟩
  split at h
  · exact unrelated_applyCreate h
  all_goals
    split at h
    · next hrequired =>
      rw [← Except.error.inj h]
      exact unrelated_requiredFile hrequired
    · first
      | exact unrelated_applyUpdate h
      | exact unrelated_applyRename h
      | exact unrelated_applyRestore h
      | simp at h

/-- Where the blob is ready, no payload fails for its blob. -/
theorem unrelated_validatePayload (hready : BlobReady op s)
    (h : validatePayload P op s = (.error e, tx)) : e.Unrelated := by
  have hblob : ∀ tx : Store, tx.blobs = s.blobs → checkBlob op tx = .ok () := by
    intro tx hblobs
    refine checkBlob_of_ready fun htruthy => ?_
    rw [Store.getBlob, hblobs]
    exact hready htruthy
  have hfail : ∀ {code : ErrorCode} {message : String} {u : Store},
      code ≠ .FORBIDDEN → code ≠ .BLOB_MISSING →
      ((fail code message : Except Failure Unit), u) = (.error e, tx) → e.Unrelated := by
    intro code message u hforbidden hmissing heq
    rw [← Except.error.inj (Prod.mk.inj heq).1]
    exact ⟨hforbidden, hmissing⟩
  unfold validatePayload at h
  split at h
  · exact hfail (by decide) (by decide) h
  split at h
  · exact hfail (by decide) (by decide) h
  split at h
  · next hpath =>
    rw [← Except.error.inj (Prod.mk.inj h).1]
    split at hpath
    · exact unrelated_normalized hpath
    · simp at hpath
  · split at h
    · unfold validateContent at h
      split at h
      · exact hfail (by decide) (by decide) h
      split at h
      · exact hfail (by decide) (by decide) h
      split at h
      · exact hfail (by decide) (by decide) h
      split at h
      · simp [hblob s rfl] at h
      · split at h
        · exact hfail (by decide) (by decide) h
        · simp [hblob _ (show (s.putContent _ _).blobs = s.blobs from rfl)] at h
    · simp at h

/-- What the checks on the device of a member that may write answer. -/
theorem code_of_checkDevice (hlog : LogAcks s) {userId : String}
    (hwrites : (s.getRole op.vaultId userId).elim false Role.canWrite = true)
    {r : OpRejectResult} (h : checkDevice op (some userId) s = some (.reject r)) :
    r.code ≠ .FORBIDDEN ∧ r.code ≠ .BLOB_MISSING := by
  have hcode : ∀ {code : ErrorCode} {message : String} {details : Option ErrorDetails},
      code ≠ .FORBIDDEN → code ≠ .BLOB_MISSING →
      some (reject op.opId code message details) = some (.reject r) →
      r.code ≠ .FORBIDDEN ∧ r.code ≠ .BLOB_MISSING := by
    intro code message details hforbidden hmissing heq
    rw [← OpApplyResult.reject.inj (Option.some.inj heq)]
    exact ⟨hforbidden, hmissing⟩
  unfold checkDevice at h
  split at h
  · simp at h
  split at h
  · exact hcode (by decide) (by decide) h
  split at h
  · exact hcode (by decide) (by decide) h
  split at h
  · exact hcode (by decide) (by decide) h
  split at h
  · next hrole => simp [hwrites] at hrole
  dsimp only at h
  split at h
  · split at h
    · next prior hprior =>
      unfold Store.getOpByDeviceSeq at hprior
      obtain ⟨result, hack, -⟩ := hlog prior (by simpa using List.mem_of_find?_eq_some hprior)
      rw [hack] at h
      simp at h
    · exact hcode (by decide) (by decide) h
  · split at h
    · exact hcode (by decide) (by decide) h
    · simp at h

/-- **A member that may write is not refused an op whose blob is ready**, for its access or for
the blob. -/
theorem not_refused_process (hlog : LogAcks s) {userId : String}
    (hwrites : (s.getRole op.vaultId userId).elim false Role.canWrite = true)
    (hready : BlobReady op s) {r : OpRejectResult}
    (h : (process P now uuid op (some userId) s).1 = .ok (.reject r)) :
    r.code ≠ .FORBIDDEN ∧ r.code ≠ .BLOB_MISSING := by
  have hanswer : ∀ {e : Failure}, e.Unrelated → answerFailure op e = .ok (.reject r) →
      r.code ≠ .FORBIDDEN ∧ r.code ≠ .BLOB_MISSING := by
    intro e hunrelated he
    cases e with
    | sync error =>
      simp only [answerFailure, reject, Except.ok.injEq, OpApplyResult.reject.injEq] at he
      rw [← he]
      exact hunrelated
    | path error => simp [answerFailure] at he
  unfold process at h
  split at h
  · next existing hknown =>
    obtain ⟨result, hack, -⟩ := hlog existing (Store.mem_of_getOpById hknown).1
    simp [hack] at h
  split at h
  · next answer hdevice =>
    obtain rfl : answer = .reject r := by simpa using h
    exact code_of_checkDevice hlog hwrites hdevice
  split at h
  · next hvalidate => exact hanswer (unrelated_validatePayload hready hvalidate) h
  split at h
  · next happly => exact hanswer (unrelated_applyOp happly) h
  · simp at h

end

end ObsidianSync
