import ObsidianSync.Server.Log

/-!
# Rebuilding the files of a vault from its log

The log of a vault says, op after op, what was applied and with which result.  Applying
its ops again, in order and to nothing but the rows they made so far, makes the rows of
the vault again, but for leases and timestamps; the only thing a row has from elsewhere
is the id of a conflict, and that is in the result.

## Main definitions

* `StoredFile.bare`, `bareRows` — the rows of a vault without leases and timestamps.
* `vaultLog` — the log of a vault: each op with its result.
* `rebuild` — the rows a log makes.
* `Rebuilt` — the rows of a vault are those its log makes.

## Main results

* `rebuiltFile_of_accepted` — an accepted op makes the same row again.
* `rebuilt_serverStep` — every event but a resolution keeps the vaults rebuilt.
-/

namespace ObsidianSync

/-- A row without its lease and its timestamps. -/
def StoredFile.bare (file : StoredFile) : StoredFile :=
  { file with activeUntil := none, deletedAt := none, updatedAt := 0 }

/-- The rows of a vault, without leases and timestamps. -/
def bareRows (s : Store) (vaultId : String) : List StoredFile :=
  (s.files.rows.filter fun file => file.vaultId = vaultId).map StoredFile.bare

/-- The log of a vault: the ops with their results. -/
def vaultLog (s : Store) (vaultId : String) : List (FileOp × OpApplyResult) :=
  (vaultOps s vaultId).map fun op => (op.payload, op.result)

/-- An id for the conflicts of a rebuild, which gets their own from the log. -/
def blankUuid : Uuid := ⟨"conflict", by decide⟩

/-- The row a logged op makes of the rows before it. -/
def rebuiltFile (P : Platform) (files : Table StoredFile.key) (op : FileOp)
    (result : OpApplyResult) : Option StoredFile :=
  match result, applyOp P 0 blankUuid op (files.get? (op.vaultId, op.fileId)) { files } with
  | .ack answer, .ok applied =>
    let file :=
      if applied.conflictId.isSome then { applied.file with conflictId := answer.conflictId }
      else applied.file
    some file.bare
  | _, _ => none

/-- The rows after one more entry of the log. -/
def rebuildStep (P : Platform) (files : Table StoredFile.key) (entry : FileOp × OpApplyResult) :
    Table StoredFile.key :=
  match rebuiltFile P files entry.1 entry.2 with
  | none => files
  | some file => files.set file

/-- The rows a log makes. -/
def rebuild (P : Platform) (log : List (FileOp × OpApplyResult)) : Table StoredFile.key :=
  log.foldl (rebuildStep P) Table.empty

/-- The rows of a vault are those its log makes. -/
def Rebuilt (P : Platform) (s : Store) (vaultId : String) : Prop :=
  bareRows s vaultId = (rebuild P (vaultLog s vaultId)).rows

/-! ### Rows without leases and timestamps -/

section

variable {P : Platform} {files : Table StoredFile.key} {s : Store} {vaultId : String}

@[simp] theorem key_bare (file : StoredFile) : file.bare.key = file.key := rfl

theorem get?_of_bareRows (h : files.rows = bareRows s vaultId) (fileId : String) :
    files.get? (vaultId, fileId) = (s.getFile vaultId fileId).map StoredFile.bare := by
  unfold Table.get? Store.getFile Table.get?
  rw [h, bareRows, List.find?_map, List.find?_filter]
  refine congrArg (fun p => (s.files.rows.find? p).map StoredFile.bare) (funext fun file => ?_)
  by_cases hvault : file.vaultId = vaultId <;> simp [StoredFile.key, StoredFile.bare, hvault]

theorem findLiveFileByPath_of_bareRows (h : files.rows = bareRows s vaultId) (path : String) :
    ({ files } : Store).findLiveFileByPath vaultId path
      = (s.findLiveFileByPath vaultId path).map StoredFile.bare := by
  unfold Store.findLiveFileByPath
  rw [h, bareRows, List.find?_map, List.find?_filter]
  refine congrArg (fun p => (s.files.rows.find? p).map StoredFile.bare) (funext fun file => ?_)
  by_cases hvault : file.vaultId = vaultId <;> simp [LiveFile, StoredFile.bare, hvault]

/-- A path is free among the rows of the vault exactly if it is among all rows. -/
theorem uniquePath_of_bareRows (h : files.rows = bareRows s vaultId) (desired fileId : String) :
    uniquePath P { files } vaultId desired fileId = uniquePath P s vaultId desired fileId := by
  have hfrom : ∀ fuel n candidate,
      uniquePathFrom P { files } vaultId desired fileId fuel n candidate
        = uniquePathFrom P s vaultId desired fileId fuel n candidate := by
    intro fuel
    induction fuel with
    | zero => exact fun _ _ => rfl
    | succ fuel ih =>
      intro n candidate
      unfold uniquePathFrom
      rw [findLiveFileByPath_of_bareRows h]
      cases s.findLiveFileByPath vaultId (P.toLowerCase candidate) with
      | none => rfl
      | some collision =>
        show (if collision.fileId = fileId then _ else _) = _
        rw [ih]
  exact hfrom _ _ _

/-! ### An op makes its row again -/

variable {now : Time} {uuid : Uuid} {op : FileOp} {userId : Option String} {applied : Applied}

/-- The guards of an accepted op are passed by the rows without leases. -/
theorem guards_bare (hrow : files.get? (op.vaultId, op.fileId) = (opRow op s).map StoredFile.bare)
    (hguards : Unguarded now op s) :
    (!syntheticCollab op && (files.get? (op.vaultId, op.fileId)).any (isActive 0) &&
        op.kind.isContent) = false ∧
      (truthy ((files.get? (op.vaultId, op.fileId)).bind StoredFile.conflictId) &&
        op.kind.isContent) = false := by
  rw [hrow]
  cases h : opRow op s with
  | none => simp
  | some row =>
    refine ⟨by simp [isActive, StoredFile.bare], ?_⟩
    cases hcontent : op.kind.isContent with
    | false => simp
    | true =>
      have hthawed := hguards.notFrozen hcontent row h
      simpa [StoredFile.bare] using hthawed

/-- A concurrent update keeps the row, but for the id of the conflict. -/
theorem applyUpdate_concurrent (row : StoredFile) (tx : Store)
    (h : VersionVector.isConcurrent (declaredVV op) row.contentVV = true) :
    ∃ a, applyUpdate 0 blankUuid op row tx = .ok a ∧ a.conflictId.isSome = true ∧
      ∀ id, ({ a.file with conflictId := id } : StoredFile).bare
        = ({ row with conflictId := id } : StoredFile).bare := by
  obtain ⟨hnot, -⟩ := VersionVector.isConcurrent_iff.mp h
  have hnot' : VersionVector.dominates (op.newContentVV.getD VersionVector.emptyVV)
      row.contentVV = false := hnot
  have hconc : VersionVector.isConcurrent (op.newContentVV.getD VersionVector.emptyVV)
      row.contentVV = true := h
  unfold applyUpdate
  simp only [hnot', hconc, Bool.not_false, if_true]
  exact ⟨_, rfl, rfl, fun _ => rfl⟩

/-- **An accepted op makes the same row again.** -/
theorem rebuiltFile_of_accepted (h : accepted P now uuid op userId s = some applied)
    (hrows : files.rows = bareRows s op.vaultId) (seq : ℕ) :
    rebuiltFile P files op (.ack (ackOf op seq applied)) = some applied.file.bare := by
  have hspec := accepted_spec h
  have hrow : files.get? (op.vaultId, op.fileId) = (opRow op s).map StoredFile.bare :=
    get?_of_bareRows hrows op.fileId
  obtain ⟨hactive, hfrozen⟩ := guards_bare hrow hspec.unguarded
  have hunique : ∀ {desired path}, uniquePath P s op.vaultId desired op.fileId = .ok path →
      uniquePath P { files } op.vaultId desired op.fileId = .ok path :=
    fun h => (uniquePath_of_bareRows hrows _ _).trans h
  -- what the guards and the paths look at is in the bare rows
  unfold rebuiltFile applyOp
  rw [hactive, hfrozen, hrow]
  cases hspec.effect with
  | @created desired path tx kind dead canonical unique =>
    have hcanon : normalized P (op.newPath.getD op.fileId) = .ok desired :=
      normalized_ok_iff.mpr canonical
    simp only [kind, applyCreate, hcanon, hunique unique]
    cases hget : opRow op s with
    | none => rfl
    | some row =>
      have hdead : row.bare.deleted = true := dead row hget
      simp only [Option.map_some, hdead, Bool.not_true, Bool.false_eq_true, if_false]
      rfl
  | @updated row tx hget kind dominates =>
    have hdom : VersionVector.dominates (op.newContentVV.getD VersionVector.emptyVV)
        row.bare.contentVV = true := dominates
    rcases kind with ⟨kind, hlive⟩ | kind
    · have hlive' : row.bare.deleted = false := hlive
      simp only [kind, hget, Option.map_some, applyCreate, applyUpdate, hdom, hlive']
      rfl
    · simp only [kind, hget, Option.map_some, requiredFile, applyUpdate, hdom]
      rfl
  | @conflicted row tx hget kind concurrent =>
    -- the log does not know the id that was drawn: the bare row leaves it out
    obtain ⟨a, ha, hsome, hfile⟩ := applyUpdate_concurrent row.bare { files }
      (show VersionVector.isConcurrent (declaredVV op) row.bare.contentVV = true from concurrent)
    rcases kind with ⟨kind, hlive⟩ | kind
    · have hlive' : row.bare.deleted = false := hlive
      have hcreate : applyCreate P 0 blankUuid op (some row.bare) { files } = .ok a := by
        simp only [applyCreate, hlive', Bool.not_false, if_true, ha]
      simp only [kind, hget, Option.map_some, hcreate, Bool.false_eq_true, if_false, hsome, if_true,
        hfile]
      rfl
    · simp only [kind, hget, Option.map_some, requiredFile, ha, Bool.false_eq_true, if_false,
        hsome, if_true, hfile]
      rfl
  | @lostRename row clock tx hget kind clock_eq loses =>
    have hloses : pathClockWins clock row.bare.pathClock = false := loses
    simp only [kind, hget, Option.map_some, requiredFile, applyRename, clock_eq, hloses]
    rfl
  | @renamed row clock desired path tx hget kind clock_eq wins canonical unique =>
    have hwins : pathClockWins clock row.bare.pathClock = true := wins
    have hcanon : normalized P (op.newPath.getD row.bare.path) = .ok desired :=
      normalized_ok_iff.mpr canonical
    simp only [kind, hget, Option.map_some, requiredFile, applyRename, clock_eq, hwins, hcanon,
      hunique unique]
    rfl
  | @deleted row tx hget kind =>
    simp only [kind, hget, Option.map_some, requiredFile]
    rfl
  | @restored row desired path tx hget kind canonical unique =>
    have hcanon : normalized P (op.newPath.getD row.bare.path) = .ok desired :=
      normalized_ok_iff.mpr canonical
    simp only [kind, hget, Option.map_some, requiredFile, applyRestore, hcanon, hunique unique]
    rfl

/-! ### Events -/

/-- The rows of a vault after a row was written. -/
theorem bareRows_set {t : Store} {file : StoredFile} (hfiles : t.files = s.files.set file) :
    bareRows t vaultId
      = if file.vaultId = vaultId then Table.setRows StoredFile.key file.bare (bareRows s vaultId)
        else bareRows s vaultId := by
  have hkey : ∀ a b : StoredFile, a.key = b.key →
      decide (a.vaultId = vaultId) = decide (b.vaultId = vaultId) := by
    intro a b hab
    rw [(Prod.mk.inj hab).1]
  have hrows : t.files.rows = Table.setRows StoredFile.key file s.files.rows :=
    congrArg Table.rows hfiles
  unfold bareRows
  rw [hrows, Table.filter_setRows hkey]
  by_cases hvault : file.vaultId = vaultId
  · rw [if_pos (decide_eq_true hvault), if_pos hvault, Table.map_setRows key_bare]
  · rw [if_neg (by simpa using hvault), if_neg hvault]

theorem bareRows_congr {t : Store} (hfiles : t.files = s.files) :
    bareRows t vaultId = bareRows s vaultId := by
  rw [bareRows, hfiles, bareRows]

theorem vaultLog_congr {t : Store} (hops : t.ops = s.ops) :
    vaultLog t vaultId = vaultLog s vaultId := by
  rw [vaultLog, vaultOps, hops, vaultLog, vaultOps]

/-- An event that is not a resolution. -/
def NoResolution (P : Platform) (s : Store) : ServerEvent → Prop
  | .resolve _ input => resolution P input s = none
  | _ => True

theorem Rebuilt.congr {t : Store} (h : Rebuilt P s vaultId) (hfiles : t.files = s.files)
    (hops : t.ops = s.ops) : Rebuilt P t vaultId := by
  rw [Rebuilt, bareRows_congr hfiles, vaultLog_congr hops]
  exact h

/-- An accepted op keeps the vaults rebuilt. -/
theorem rebuilt_of_accepted (ha : accepted P now uuid op userId s = some applied)
    (h : Rebuilt P s vaultId) :
    Rebuilt P (serverStep P s (.process now uuid op userId)) vaultId := by
  have hspec := accepted_spec ha
  obtain ⟨hvault, -⟩ := Prod.mk.inj (key_of_effect hspec.effect)
  have hfiles : (serverStep P s (.process now uuid op userId)).files
      = s.files.set applied.file := by
    rw [files_serverStep, writtenFile, ha]
    rfl
  have hlog : vaultLog (serverStep P s (.process now uuid op userId)) vaultId
      = vaultLog s vaultId ++ if op.vaultId = vaultId then
          [(op, .ack (ackOf op (s.nextSeq op.vaultId) applied))] else [] := by
    rw [vaultLog, vaultOps_serverStep, List.map_append, loggedEntry, ha]
    by_cases hv : op.vaultId = vaultId <;> simp [hv, loggedOp, vaultLog]
  rw [Rebuilt, bareRows_set hfiles, hlog, hvault]
  by_cases hv : op.vaultId = vaultId
  · subst hv
    have hfile := rebuiltFile_of_accepted ha h.symm (s.nextSeq op.vaultId)
    rw [if_pos rfl, if_pos rfl, rebuild, List.foldl_append, List.foldl_cons, List.foldl_nil,
      ← rebuild, rebuildStep, hfile, h]
    rfl
  · rw [if_neg hv, if_neg hv, List.append_nil]
    exact h

/-- **Every event but a resolution keeps the vaults rebuilt.** -/
theorem rebuilt_serverStep {e : ServerEvent} (he : NoResolution P s e)
    (h : Rebuilt P s vaultId) : Rebuilt P (serverStep P s e) vaultId := by
  cases e with
  | process now uuid op userId =>
    cases ha : accepted P now uuid op userId s with
    | none =>
      obtain ⟨hframe, -⟩ := frame_of_not_accepted ha
      exact h.congr hframe.files hframe.ops
    | some applied => exact rebuilt_of_accepted ha h
  | resolve now input =>
    rw [serverStep, resolve_of_no_resolution he]
    exact h
  | claim vaultId userId deviceId conflictId =>
    rcases claim_cases vaultId userId deviceId conflictId s with hs | ⟨_, _, -, -, -, hs⟩ <;>
      rw [serverStep, hs]
    · exact h
    · exact h.congr rfl rfl
  | release vaultId userId deviceId conflictId =>
    rcases release_cases vaultId userId deviceId conflictId s with hs | ⟨_, _, -, -, -, hs⟩ <;>
      rw [serverStep, hs]
    · exact h
    · exact h.congr rfl rfl
  | saveDevice | setRole | saveBlob | putContent => exact h.congr rfl rfl

/-- Writing a row back with another lease keeps the vault rebuilt. -/
theorem Rebuilt.of_bare {t : Store} {row file : StoredFile} (h : Rebuilt P s vaultId)
    (hmem : row ∈ s.files.rows) (hfiles : t.files = s.files.set file)
    (hbare : file.bare = row.bare) (hops : t.ops = s.ops) : Rebuilt P t vaultId := by
  have hkeys : ((bareRows s vaultId).map StoredFile.key).Nodup := by
    have hsame : (bareRows s vaultId).map StoredFile.key
        = (s.files.rows.filter fun file => file.vaultId = vaultId).map StoredFile.key := by
      rw [bareRows, List.map_map]
      rfl
    rw [hsame]
    exact s.files.nodup.sublist (List.filter_sublist.map _)
  have hrows : bareRows t vaultId = bareRows s vaultId := by
    rw [bareRows_set hfiles, hbare]
    split
    · next hvault =>
      refine Table.setRows_of_mem hkeys (List.mem_map.mpr ⟨row, ?_, rfl⟩)
      have hsame : row.vaultId = file.vaultId := by
        show row.bare.vaultId = file.bare.vaultId
        rw [hbare]
      simpa [hsame, hvault] using hmem
    · rfl
  rw [Rebuilt, hrows, vaultLog_congr hops]
  exact h

end

end ObsidianSync
