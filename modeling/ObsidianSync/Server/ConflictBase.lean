import ObsidianSync.Server.BlobRefs

/-!
# The base of a conflict

The base of a conflict is what the user's three-way merge starts from, so it
should be a version both sides descend from.  The log has the versions a file
held, with their vectors; the processor does not look there, it records the hash
of the op that opens the conflict.

## Main definitions

* `CommonAncestor` — a logged version of the file that both vectors dominate.
* `OpensOnAncestor` — the conflicts an event opens have such a base, or none.
* `BringsNoBase` — what an op that opens a conflict has to meet for that.

## Main results

* `baseHash_openedConflict` — the base is the side of the op, or none.
* `opensOnAncestor_iff_bringsNoBase` — the runs that open conflicts on ancestors only.
-/

namespace ObsidianSync

/-! ### Versions -/

/-- The content a content op names. -/
def namedContent (op : FileOp) : Option String :=
  if op.kind = .restore then op.contentHash else op.contentHash.or op.blobRef

/-- A logged op that was applied gave the file the content, under a vector that both others
dominate. -/
def CommonAncestor (s : Store) (vaultId fileId hash : String) (ours theirs : VersionVector) :
    Prop :=
  ∃ logged ∈ s.ops, logged.vaultId = vaultId ∧ logged.fileId = fileId ∧
    logged.kind.isContent = true ∧ logged.conflictId = none ∧
    namedContent logged.payload = some hash ∧
    ∃ vv ∈ logged.resultingClocks.contentVV,
      VersionVector.dominates ours vv = true ∧ VersionVector.dominates theirs vv = true

instance (s : Store) (vaultId fileId hash : String) (ours theirs : VersionVector) :
    Decidable (CommonAncestor s vaultId fileId hash ours theirs) := by
  unfold CommonAncestor
  infer_instance

/-- The base of the record, if it has one, is a common ancestor of its sides. -/
def AncestorBase (s : Store) (conflict : ConflictRecord) : Prop :=
  ∀ base ∈ conflict.baseHash, CommonAncestor s conflict.vaultId conflict.fileId base
    (conflict.oursVV.getD VersionVector.emptyVV) (conflict.theirsVV.getD VersionVector.emptyVV)

instance (s : Store) (conflict : ConflictRecord) : Decidable (AncestorBase s conflict) := by
  unfold AncestorBase
  infer_instance

/-- The records an event makes have a base of that kind. -/
def OpensOnAncestor (P : Platform) (s : Store) (e : ServerEvent) : Prop :=
  ∀ conflict ∈ (serverStep P s e).conflicts.rows, s.getConflict conflict.conflictId = none →
    AncestorBase s conflict

instance (P : Platform) (s : Store) (e : ServerEvent) : Decidable (OpensOnAncestor P s e) := by
  unfold OpensOnAncestor
  infer_instance

/-! ### Ops that open a conflict -/

/-- The op would overwrite the row with a vector concurrent to the one it has. -/
def MeetsConcurrent (op : FileOp) (row : StoredFile) : Prop :=
  (op.kind = .create ∧ row.deleted = false ∨ op.kind = .update) ∧
    VersionVector.isConcurrent (declaredVV op) row.contentVV = true

instance (op : FileOp) (row : StoredFile) : Decidable (MeetsConcurrent op row) := by
  unfold MeetsConcurrent
  infer_instance

/-- An unresolved conflict of the file has the kind and the sides already. -/
def OpenAlready (op : FileOp) (row : StoredFile) (s : Store) : Prop :=
  ∃ conflict ∈ s.conflicts.rows, conflict.fileId = op.fileId ∧
    conflict.kind = (if op.type = .attachment then .attachment else .content) ∧
    conflict.oursHash = row.contentHash ∧
    conflict.theirsHash = op.contentHash.or op.blobRef ∧ conflict.status ≠ .resolved

instance (op : FileOp) (row : StoredFile) (s : Store) : Decidable (OpenAlready op row s) := by
  unfold OpenAlready
  infer_instance

/-- An op that opens a conflict carries no content hash, or puts the file back to the content
of a common ancestor. -/
def BringsNoBase (P : Platform) (s : Store) : ServerEvent → Prop
  | .process now uuid op userId =>
    (accepted P now uuid op userId s).isSome = true → ∀ row ∈ opRow op s,
      MeetsConcurrent op row → ¬ OpenAlready op row s → ∀ hash ∈ op.contentHash,
        CommonAncestor s op.vaultId op.fileId hash row.contentVV (declaredVV op)
  | _ => True

instance (P : Platform) (s : Store) : (e : ServerEvent) → Decidable (BringsNoBase P s e)
  | .process now uuid op userId =>
    inferInstanceAs (Decidable ((accepted P now uuid op userId s).isSome = true →
      ∀ row ∈ opRow op s, MeetsConcurrent op row → ¬ OpenAlready op row s →
        ∀ hash ∈ op.contentHash,
          CommonAncestor s op.vaultId op.fileId hash row.contentVV (declaredVV op)))
  | .claim .. | .release .. | .resolve .. | .saveDevice .. | .setRole .. | .saveBlob .. |
    .putContent .. => isTrue trivial

/-- `randomUUID()` gives an id that no conflict has. -/
def FreshConflictId (s : Store) : ServerEvent → Prop
  | .process _ uuid _ _ => s.getConflict uuid.1 = none
  | _ => True

instance (s : Store) : (e : ServerEvent) → Decidable (FreshConflictId s e)
  | .process _ uuid _ _ => inferInstanceAs (Decidable (s.getConflict uuid.1 = none))
  | .claim .. | .release .. | .resolve .. | .saveDevice .. | .setRole .. | .saveBlob .. |
    .putContent .. => isTrue trivial

section

variable {P : Platform} {s t : Store} {now : Time} {uuid : Uuid} {op : FileOp}
  {userId : Option String} {row : StoredFile}

/-- The record of a concurrent op: the open one with the same sides, or a new one. -/
theorem conflictOf_cases (uuid : Uuid) (op : FileOp) (row : StoredFile) (s : Store) :
    OpenAlready op row s ∧ (conflictOf uuid op row s).2 = s ∨
    ¬ OpenAlready op row s ∧ (conflictOf uuid op row s).2
      = { s with conflicts := s.conflicts.set (openedConflict uuid op row) } := by
  unfold OpenAlready conflictOf openedConflict
  -- the kind of the record does not matter
  generalize (if op.type = .attachment then ConflictKind.attachment else .content) = kind
  unfold Store.createConflict
  dsimp only
  split
  · next existing hfound =>
    have hsame := List.find?_some hfound
    rw [decide_eq_true_eq] at hsame
    exact Or.inl ⟨⟨existing, List.mem_of_find?_eq_some hfound, hsame⟩, rfl⟩
  · next hnone =>
    refine Or.inr ⟨?_, rfl⟩
    rintro ⟨existing, hmem, hsame⟩
    rw [List.find?_eq_none] at hnone
    exact hnone existing hmem (decide_eq_true hsame)

/-- **The base is the side of the op**, or there is none. -/
theorem baseHash_openedConflict :
    (openedConflict uuid op row).baseHash = none ∨
      (openedConflict uuid op row).baseHash = (openedConflict uuid op row).theirsHash := by
  unfold openedConflict
  cases op.contentHash with
  | none => exact Or.inl rfl
  | some hash => exact Or.inr rfl

/-- An event that leaves the records, or rewrites one, makes none. -/
theorem opensOnAncestor_of_known {e : ServerEvent}
    (h : ∀ conflict ∈ (serverStep P s e).conflicts.rows,
      ∃ c ∈ s.conflicts.rows, c.conflictId = conflict.conflictId) : OpensOnAncestor P s e := by
  intro conflict hmem hnew
  obtain ⟨c, hc, hid⟩ := h conflict hmem
  exact absurd hid (Table.get?_eq_none_iff.mp hnew c hc)

/-- An op that is not concurrent to its row opens no conflict. -/
theorem known_of_not_concurrent {applied : Applied}
    (ha : accepted P now uuid op userId s = some applied)
    (hnot : ∀ row ∈ opRow op s, ¬ MeetsConcurrent op row) :
    (serverStep P s (.process now uuid op userId)).conflicts = s.conflicts := by
  rw [serverStep, process_of_accepted ha, commit_conflicts]
  cases (accepted_spec ha).effect with
  | conflicted found kind concurrent conflicts =>
    exact absurd ⟨kind, concurrent⟩ (hnot _ found)
  | created kind dead canonical unique conflicts => exact conflicts
  | updated found kind dominates conflicts => exact conflicts
  | lostRename found kind clock_eq loses conflicts => exact conflicts
  | renamed found kind clock_eq wins canonical unique conflicts => exact conflicts
  | deleted found kind conflicts => exact conflicts
  | restored found kind canonical unique conflicts => exact conflicts

/-- An op that is concurrent to its row has the record of its conflict. -/
theorem conflicts_of_concurrent {applied : Applied}
    (ha : accepted P now uuid op userId s = some applied) (hrow : opRow op s = some row)
    (hmeets : MeetsConcurrent op row) :
    (serverStep P s (.process now uuid op userId)).conflicts
      = (conflictOf uuid op row s).2.conflicts := by
  obtain ⟨hkind, hconcurrent⟩ := hmeets
  rw [serverStep, process_of_accepted ha, commit_conflicts]
  have hother : op.kind ≠ .rename ∧ op.kind ≠ .delete ∧ op.kind ≠ .restore := by
    rcases hkind with ⟨hk, -⟩ | hk <;> simp [hk]
  cases (accepted_spec ha).effect with
  | conflicted found kind concurrent conflicts =>
    rw [hrow, Option.some.injEq] at found
    rw [conflicts, found]
  | created kind dead canonical unique conflicts =>
    rcases hkind with ⟨-, hlive⟩ | hk
    · exact absurd (dead row hrow) (by rw [hlive]; decide)
    · exact absurd (kind.symm.trans hk) (by decide)
  | updated found kind dominates conflicts =>
    rw [hrow, Option.some.injEq] at found
    rw [← found] at dominates
    simp [VersionVector.isConcurrent, dominates] at hconcurrent
  | lostRename found kind => exact absurd kind hother.1
  | renamed found kind => exact absurd kind hother.1
  | deleted found kind => exact absurd kind hother.2.1
  | restored found kind => exact absurd kind hother.2.2

/-- **An op opens conflicts on ancestors only** exactly if it brings no other base. -/
theorem opensOnAncestor_process_iff (hfresh : s.getConflict uuid.1 = none) :
    OpensOnAncestor P s (.process now uuid op userId) ↔
      BringsNoBase P s (.process now uuid op userId) := by
  have hknown : (serverStep P s (.process now uuid op userId)).conflicts = s.conflicts →
      OpensOnAncestor P s (.process now uuid op userId) := by
    intro hsame
    refine opensOnAncestor_of_known fun conflict hmem => ⟨conflict, ?_, rfl⟩
    rw [hsame] at hmem
    exact hmem
  cases ha : accepted P now uuid op userId s with
  | none =>
    refine iff_of_true (hknown (frame_of_not_accepted ha).2) fun hsome => ?_
    rw [ha] at hsome
    exact absurd hsome (by decide)
  | some applied =>
    by_cases hmeets : ∃ row ∈ opRow op s, MeetsConcurrent op row
    · obtain ⟨row, hrow, hmeets⟩ := hmeets
      have hconflicts := conflicts_of_concurrent ha hrow hmeets
      have honly : ∀ row' ∈ opRow op s, row' = row := by
        intro row' hrow'
        exact Option.some.inj (hrow'.symm.trans hrow)
      rcases conflictOf_cases uuid op row s with ⟨hopen, hsame⟩ | ⟨hnew, hset⟩
      · refine iff_of_true (hknown (by rw [hconflicts, hsame])) fun _ row' hrow' _ hnot => ?_
        rw [honly row' hrow'] at hnot
        exact absurd hopen hnot
      · rw [hset] at hconflicts
        have hbase : AncestorBase s (openedConflict uuid op row) ↔ ∀ hash ∈ op.contentHash,
            CommonAncestor s op.vaultId op.fileId hash row.contentVV (declaredVV op) := Iff.rfl
        constructor
        · intro h _ row' hrow' _ _
          rw [honly row' hrow']
          refine hbase.mp (h _ ?_ hfresh)
          rw [hconflicts]
          exact Table.mem_set_iff.mpr (Or.inl rfl)
        · intro h conflict hmem hunknown
          rw [hconflicts] at hmem
          rcases Table.mem_set_iff.mp hmem with rfl | ⟨hold, -⟩
          · exact hbase.mpr (h (by rw [ha]; rfl) row hrow hmeets hnew)
          · exact absurd rfl (Table.get?_eq_none_iff.mp hunknown conflict hold)
    · have hnot : ∀ row ∈ opRow op s, ¬ MeetsConcurrent op row :=
        fun row hrow h => hmeets ⟨row, hrow, h⟩
      exact iff_of_true (hknown (known_of_not_concurrent ha hnot))
        fun _ row hrow h => absurd h (hnot row hrow)

/-- **An event opens conflicts on ancestors only** exactly if it brings no other base. -/
theorem opensOnAncestor_event_iff {e : ServerEvent} (hfresh : FreshConflictId s e) :
    OpensOnAncestor P s e ↔ BringsNoBase P s e := by
  have hrecord : (∀ conflict ∈ (serverStep P s e).conflicts.rows,
      ∃ c ∈ s.conflicts.rows, c.conflictId = conflict.conflictId) → BringsNoBase P s e →
      (OpensOnAncestor P s e ↔ BringsNoBase P s e) :=
    fun hknown hbase => iff_of_true (opensOnAncestor_of_known hknown) hbase
  have hset : ∀ {current written : ConflictRecord}, current ∈ s.conflicts.rows →
      (serverStep P s e).conflicts = s.conflicts.set written →
      written.conflictId = current.conflictId →
      ∀ conflict ∈ (serverStep P s e).conflicts.rows,
        ∃ c ∈ s.conflicts.rows, c.conflictId = conflict.conflictId := by
    intro current written hcurrent hconflicts hid conflict hmem
    rw [hconflicts] at hmem
    rcases Table.mem_set_iff.mp hmem with rfl | ⟨hmem, -⟩
    · exact ⟨current, hcurrent, hid.symm⟩
    · exact ⟨conflict, hmem, rfl⟩
  cases e with
  | process now uuid op userId => exact opensOnAncestor_process_iff hfresh
  | claim vaultId userId deviceId conflictId =>
    rcases claim_cases vaultId userId deviceId conflictId s with
      h | ⟨current, written, hget, -, rfl, h⟩
    · exact hrecord (by rw [serverStep, h]; exact fun c hc => ⟨c, hc, rfl⟩) trivial
    · exact hrecord (hset (Table.mem_of_get? hget) (congrArg Store.conflicts h) rfl) trivial
  | release vaultId userId deviceId conflictId =>
    rcases release_cases vaultId userId deviceId conflictId s with
      h | ⟨current, written, hget, -, rfl, h⟩
    · exact hrecord (by rw [serverStep, h]; exact fun c hc => ⟨c, hc, rfl⟩) trivial
    · exact hrecord (hset (Table.mem_of_get? hget) (congrArg Store.conflicts h) rfl) trivial
  | resolve now input =>
    cases hr : resolution P input s with
    | none =>
      refine hrecord ?_ trivial
      rw [serverStep, resolve_of_no_resolution hr]
      exact fun c hc => ⟨c, hc, rfl⟩
    | some r =>
      obtain ⟨-, -, -, h⟩ := resolve_of_resolution now hr
      exact hrecord (hset (resolves_of_resolution hr).conflict (congrArg Store.conflicts h) rfl)
        trivial
  | saveDevice device => exact hrecord (fun c hc => ⟨c, hc, rfl⟩) trivial
  | setRole vaultId userId role => exact hrecord (fun c hc => ⟨c, hc, rfl⟩) trivial
  | saveBlob blob => exact hrecord (fun c hc => ⟨c, hc, rfl⟩) trivial
  | putContent hash bytes => exact hrecord (fun c hc => ⟨c, hc, rfl⟩) trivial

/-- **The base of every conflict is a common ancestor**, or there is none, in a run exactly if
every op of it that opens a conflict brings no content hash, or that of a common ancestor. -/
theorem opensOnAncestor_iff_bringsNoBase {es : List ServerEvent}
    (hes : Run.EachStep (serverStep P) FreshConflictId s es) :
    Run.EachStep (serverStep P) (OpensOnAncestor P) s es ↔
      Run.EachStep (serverStep P) (BringsNoBase P) s es :=
  Run.eachStep_iff_of_invariant (I := fun _ => True) (fun _ _ _ _ _ => trivial)
    (fun _ _ _ hfresh => opensOnAncestor_event_iff hfresh) trivial hes

end

/-- A note of the first device and a concurrent update of the other one. -/
def concurrentNotes : List ServerEvent :=
  [.process 0 (sampleId 0)
      (sampleContentOp .create "o1" "d1" "f" 1 (some "a.md") (sampleVV "d1" 1) "one") (some "u"),
   .process 1 (sampleId 1)
      (sampleContentOp .update "o2" "d2" "f" 1 none (sampleVV "d2" 1) "two") (some "u")]

/-- The same with updates that name an uploaded blob only. -/
def concurrentBlobs : List ServerEvent :=
  [.process 0 (sampleId 0)
      { sampleDelete "o1" "d1" "f" 1 with
        kind := .create, newPath := some "a.md", newContentVV := some (sampleVV "d1" 1),
        blobRef := some "a" } (some "u"),
   .process 1 (sampleId 1)
      { sampleDelete "o2" "d2" "f" 1 with
        kind := .update, newContentVV := some (sampleVV "d2" 1), blobRef := some "b" } (some "u")]

theorem opensOnAncestor_concurrentBlobs :
    Run.EachStep (serverStep samplePlatform) (OpensOnAncestor samplePlatform) sampleStore
      concurrentBlobs :=
  (opensOnAncestor_iff_bringsNoBase (by decide +kernel)).mpr (by decide +kernel)

/-- The base of a conflict between texts is the text of the later op, which is no ancestor. -/
theorem not_opensOnAncestor_concurrentNotes :
    ¬ Run.EachStep (serverStep samplePlatform) (OpensOnAncestor samplePlatform) sampleStore
      concurrentNotes := by
  decide +kernel

end ObsidianSync
