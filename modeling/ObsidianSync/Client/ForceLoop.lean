import ObsidianSync.Client.ForceSync
import ObsidianSync.Server.LivePaths

/-!
# The ops of a force push

What a push leaves is settled op by op.  An op that succeeds was accepted by the server, which
wrote its row, and the client writes the entry with the vector of the op.  The actions of a plan
are about different files under different paths, so none undoes what another left.

## Main definitions

* `serveForced` — the server, as what answers the ops.
* `Consistent` — what holds of the rows of the server.
* `Planned`, `SettledAction` — what an action starts with, and what it leaves.
* `Pushed` — the state after some actions.
* `Apart` — actions of different files, under different folded paths.

## Main results

* `accepted_of_serveForced` — an ack for a new op means that it was accepted.
* `Pushed.step` — an action that succeeds keeps what is settled, and is settled.
* `pushed_pushActions` — **a push that succeeds leaves each of its actions settled.**
-/

namespace ObsidianSync

open Engine

/-! ### The server -/

/-- What the server does with an op, as its device sees it.  Each op comes at a time of its own. -/
def serveForced (P : Platform) (now : FileOp → Time) (uuid : FileOp → Uuid)
    (userId : Option String) (op : FileOp) (s : Store) : ForcedAnswer × Store :=
  match process P (now op) (uuid op) op userId s with
  | (.ok (.ack result), s) =>
    (if result.opId = op.opId then .ack result.vaultSeq result.conflictId else .silent, s)
  | (.ok (.reject result), s) =>
    (if result.opId = some op.opId then .reject result.code result.message else .silent, s)
  | (.error _, s) => (.silent, s)

/-- What holds of the rows of the server: its unique index, and what every op it took left. -/
structure Consistent (P : Platform) (vaultId : String) (s : Store) : Prop where
  livePaths : LivePathsUnique s
  folded : ∀ row ∈ s.files.rows, LiveFile vaultId row →
    row.pathNormalized = caseFoldPath P row.path
  named : ∀ row ∈ s.files.rows, row.fileId ≠ ""
  /-- An ack is kept under the id of its op. -/
  acks : ∀ op ∈ s.ops, ∀ result, op.result = .ack result → result.opId = op.opId

section Served

variable {P : Platform} {now : FileOp → Time} {uuid : FileOp → Uuid} {userId : Option String}
  {op : FileOp} {s : Store}

/-- **An ack for a new op means that it was accepted.** -/
theorem accepted_of_serveForced {vaultSeq : ℕ} {conflictId : Option String}
    (hacks : ∀ op ∈ s.ops, ∀ result, op.result = .ack result → result.opId = op.opId)
    (hnew : s.getOpById op.opId = none)
    (h : (serveForced P now uuid userId op s).1 = .ack vaultSeq conflictId) :
    ∃ applied, Accepted P (now op) (uuid op) op userId s applied ∧
      (serveForced P now uuid userId op s).2.files = s.files.set applied.file ∧
      ∃ seq, (serveForced P now uuid userId op s).2.ops
        = s.ops ++ [loggedOp (now op) op applied seq] := by
  have hstore : (serveForced P now uuid userId op s).2
      = (process P (now op) (uuid op) op userId s).2 := by
    unfold serveForced
    split <;> simp_all
  cases haccepted : accepted P (now op) (uuid op) op userId s with
  | some applied =>
    have hspec := accepted_spec haccepted
    refine ⟨applied, hspec, ?_, applied.tx.nextSeq op.vaultId, ?_⟩
    · rw [hstore, process_of_accepted haccepted, commit_files, hspec.frame.files]
    · rw [hstore, process_of_accepted haccepted, commit_ops, hspec.frame.ops]
  | none =>
    -- the answer would be from the log
    exfalso
    obtain ⟨result, hresult, hid⟩ : ∃ result,
        (process P (now op) (uuid op) op userId s).1 = .ok (.ack result) ∧
          result.opId = op.opId := by
      unfold serveForced at h
      split at h
      · next result s' hprocess =>
        refine ⟨result, by rw [hprocess], ?_⟩
        by_contra hne
        rw [if_neg hne] at h
        cases h
      · split at h <;> cases h
      · cases h
    rcases logged_of_ack haccepted hresult with ⟨e, he, -⟩ | ⟨logged, hlogged, heq, -⟩
    · cases he
    · have hsame := hacks logged hlogged result heq
      exact Store.getOpById_eq_none_iff.mp hnew logged hlogged (hsame.symm.trans hid)

end Served

/-! ### An op that succeeds -/

/-- The entries an applied op leaves depend on the entries only. -/
theorem files_applyForcedToIndex_congr (P : Platform) (now : Time) (op : FileOp) {e e' : Engine}
    (h : e'.index.files = e.index.files) :
    (applyForcedToIndex P now op e').index.files = (applyForcedToIndex P now op e).index.files := by
  unfold applyForcedToIndex LocalIndex.markDeleted LocalIndex.byFileId
  rw [h]
  split
  · cases e.index.files.get? op.fileId with
    | none => exact h
    | some entry => rfl
  · dsimp only
    split
    · exact h
    · rw [LocalIndex.upsertFile, LocalIndex.upsertFile, h]

/-- **An op that succeeds was acked without a conflict, and is applied to the index.** -/
theorem forceOp_ok {S : Type} {P : Platform} {cfg : ClientConfig} {now : Time}
    {serve : FileOp → S → ForcedAnswer × S} {opId : Uuid} {draft : FileOpDraft}
    {loop : ForceLoop S} (h : (forceOp P cfg now serve opId draft loop).1.ok = true) :
    (∃ vaultSeq conflictId,
      (serve (loop.engine.outbox.opOfDraft opId draft) loop.server).1 = .ack vaultSeq conflictId) ∧
    (forceOp P cfg now serve opId draft loop).2.server
      = (serve (loop.engine.outbox.opOfDraft opId draft) loop.server).2 ∧
    (forceOp P cfg now serve opId draft loop).2.sent
      = loop.sent ++ [loop.engine.outbox.opOfDraft opId draft] ∧
    (forceOp P cfg now serve opId draft loop).2.engine.index.files
      = (applyForcedToIndex P now (loop.engine.outbox.opOfDraft opId draft)
          loop.engine).index.files := by
  cases hready : isWriteReady loop.engine with
  | false =>
    rw [(forceOp_not_ready P cfg now serve opId draft loop hready).1] at h
    cases h
  | true =>
    -- up to the answer the entries stay
    have hready' : isWriteReady (persistOutbox { loop.engine with
        outbox := (loop.engine.outbox.enqueue now opId draft).2 }) = true := hready
    have hpushed : (pushForced P now opId draft loop.engine).2.index.files
        = loop.engine.index.files := by
      simp only [pushForced, hready', Bool.not_true, Bool.false_eq_true, if_false]
      rfl
    have hop := pushForced_fst P now opId draft loop.engine
    generalize hresult : pushForced P now opId draft loop.engine = pushed at hpushed hop
    rw [forceOp_of_ready P cfg now serve opId draft loop hready hresult, hop] at h ⊢
    cases hanswer : (serve (loop.engine.outbox.opOfDraft opId draft) loop.server).1 with
    | reject code message =>
      rw [hanswer] at h
      cases h
    | silent =>
      rw [hanswer] at h
      cases h
    | ack vaultSeq conflictId =>
      rw [hanswer] at h
      have hacked := (index_handleAck now (loop.engine.outbox.opOfDraft opId draft).opId vaultSeq
        conflictId pushed.2).1
      refine ⟨⟨vaultSeq, conflictId, rfl⟩, rfl, rfl, ?_⟩
      simp only [takeAnswer] at h ⊢
      unfold endForced
      dsimp only
      rw [if_pos h]
      exact files_applyForcedToIndex_congr P now _ (hacked.trans hpushed)

/-! ### Drafts -/

theorem truthy_buildContentPayload {P : Platform} {cfg : ClientConfig} {vault : Vault}
    {path : String} {payload : ContentPayload}
    (h : buildContentPayload P cfg vault path = some payload) :
    truthy (some payload.contentHash) = true := by
  have hhash : ∃ bytes, payload.contentHash = contentHash P bytes := by
    unfold buildContentPayload at h
    split at h
    · split at h
      · cases h
      · exact ⟨_, congrArg ContentPayload.contentHash (Option.some.inj h).symm⟩
    split at h
    · split at h
      · cases h
      · exact ⟨_, congrArg ContentPayload.contentHash (Option.some.inj h).symm⟩
    · split at h
      · cases h
      · exact ⟨_, congrArg ContentPayload.contentHash (Option.some.inj h).symm⟩
  obtain ⟨bytes, hbytes⟩ := hhash
  rw [truthy_some, decide_eq_true_eq, hbytes]
  exact ne_empty_of_isValidContentHash (isValidContentHash_contentHash P bytes)

/-- The draft of a content action. -/
structure ForcedDraft (cfg : ClientConfig) (mode : ForcePushMode) (fileId path : String)
    (dominateVV : VersionVector) (draft : FileOpDraft) : Prop where
  opId : draft.opId = none
  vaultId : draft.vaultId = cfg.vaultId
  fileId : draft.fileId = fileId
  kind : draft.kind = if mode = .update then .update else .create
  newPath : draft.newPath = some path
  hash : truthy draft.contentHash = true
  dominates : VersionVector.dominates (draft.newContentVV.getD VersionVector.emptyVV) dominateVV
    = true

theorem forcedDraft_actionDraft {P : Platform} {cfg : ClientConfig} {mode : ForcePushMode}
    {fileId path : String} {type : FileType} {dominateVV : VersionVector} {e e' : Engine}
    {draft : FileOpDraft}
    (h : actionDraft P cfg (.content mode fileId path type dominateVV) e = some (draft, e')) :
    e' = e ∧ ForcedDraft cfg mode fileId path dominateVV draft := by
  simp only [actionDraft, Option.map_eq_some_iff, Prod.mk.injEq] at h
  obtain ⟨_, hdraft, rfl, rfl⟩ := h
  refine ⟨rfl, ?_⟩
  unfold makeForcedContentOp at hdraft
  dsimp only at hdraft
  split at hdraft
  · cases hdraft
  next payload hpayload =>
  obtain rfl := Option.some.inj hdraft
  refine ⟨rfl, rfl, rfl, by simp, rfl, truthy_buildContentPayload hpayload, ?_⟩
  exact VersionVector.dominates_trans (VersionVector.dominates_bump _ _)
    (VersionVector.dominates_join_right _ _)

/-! ### What a push leaves -/

/-- The folded path under which an action leaves a file. -/
def ForcePushAction.foldedPath (P : Platform) : ForcePushAction → Option String
  | .content _ _ path _ _ => some (caseFoldPath P path)
  | .delete .. => none

/-- What a push starts an action with: an update has its file, a create has its path free. -/
def Planned (P : Platform) (vaultId : String) (s : Store) : ForcePushAction → Prop
  | .content .update fileId path _ dominateVV =>
    normalizePath P path = .ok path ∧
      ∃ row, s.getFile vaultId fileId = some row ∧ row.deleted = false ∧
        row.pathNormalized = caseFoldPath P path ∧ row.contentVV = dominateVV
  | .content .create fileId path _ _ =>
    normalizePath P path = .ok path ∧
      (∀ row, s.getFile vaultId fileId = some row → row.deleted = true) ∧
      ∀ row ∈ s.files.rows, LiveFile vaultId row → row.pathNormalized ≠ caseFoldPath P path
  | .delete .. => True

/-- What an action leaves: its file live on both sides under one vector, or on neither. -/
def SettledAction (P : Platform) (vaultId : String) (loop : ForceLoop Store) :
    ForcePushAction → Prop
  | .content _ fileId path _ _ =>
    ∃ entry row, loop.engine.index.byFileId fileId = some entry ∧
      loop.server.getFile vaultId fileId = some row ∧ entry.deleted = false ∧
      entry.path = path ∧ row.deleted = false ∧ row.pathNormalized = caseFoldPath P path ∧
      entry.appliedContentVV = row.contentVV
  | .delete fileId _ _ =>
    (∀ entry, loop.engine.index.byFileId fileId = some entry → entry.deleted = true) ∧
      ∀ row, loop.server.getFile vaultId fileId = some row → row.deleted = true

/-- An action is settled as long as its file stays. -/
theorem SettledAction.congr {P : Platform} {vaultId : String} {loop loop' : ForceLoop Store}
    {action : ForcePushAction} (h : SettledAction P vaultId loop action)
    (hentry : loop'.engine.index.byFileId action.fileId
      = loop.engine.index.byFileId action.fileId)
    (hrow : loop'.server.getFile vaultId action.fileId
      = loop.server.getFile vaultId action.fileId) : SettledAction P vaultId loop' action := by
  cases action with
  | content mode fileId path type dominateVV =>
    simp only [ForcePushAction.fileId] at hentry hrow
    simp only [SettledAction] at h ⊢
    rw [hentry, hrow]
    exact h
  | delete fileId path type =>
    simp only [ForcePushAction.fileId] at hentry hrow
    simp only [SettledAction] at h ⊢
    rw [hentry, hrow]
    exact h

/-- The state after some actions, from the state before them. -/
structure Pushed (P : Platform) (vaultId : String) (s : Store) (index : LocalIndex)
    (done : List ForcePushAction) (loop : ForceLoop Store) : Prop where
  rows : ∀ fileId, (∀ action ∈ done, action.fileId ≠ fileId) →
    loop.server.getFile vaultId fileId = s.getFile vaultId fileId
  entries : ∀ fileId, (∀ action ∈ done, action.fileId ≠ fileId) →
    loop.engine.index.byFileId fileId = index.byFileId fileId
  settled : ∀ action ∈ done, SettledAction P vaultId loop action
  deletes : ∀ op ∈ loop.sent, op.kind = .delete →
    ∃ action ∈ done, action.foldedPath P = none ∧ action.fileId = op.fileId
  acks : ∀ op ∈ loop.server.ops, ∀ result, op.result = .ack result → result.opId = op.opId

section Step

variable {P : Platform} {cfg : ClientConfig} {vaultId : String} {s : Store} {index : LocalIndex}
  {done : List ForcePushAction} {loop : ForceLoop Store} {action : ForcePushAction}

/-- What an action was planned with holds when its turn comes. -/
theorem Pushed.planned (h : Pushed P vaultId s index done loop)
    (hplanned : Planned P vaultId s action) (hnew : ∀ b ∈ done, b.fileId ≠ action.fileId)
    (hfolds : ∀ b ∈ done, ∀ folded, b.foldedPath P = some folded →
      action.foldedPath P ≠ some folded) :
    Planned P vaultId loop.server action := by
  cases action with
  | delete fileId path type => trivial
  | content mode fileId path type dominateVV =>
    have hrow : loop.server.getFile vaultId fileId = s.getFile vaultId fileId := h.rows fileId hnew
    cases mode with
    | update =>
      obtain ⟨hcanonical, hfile⟩ := hplanned
      exact ⟨hcanonical, by rw [hrow]; exact hfile⟩
    | create =>
      obtain ⟨hcanonical, hdead, hfree⟩ := hplanned
      refine ⟨hcanonical, by rw [hrow]; exact hdead, ?_⟩
      intro row hmem hlive hpath
      have hget : loop.server.getFile vaultId row.fileId = some row := by
        rw [← hlive.1]
        exact Table.get?_key hmem
      by_cases hdone : ∀ b ∈ done, b.fileId ≠ row.fileId
      · -- a row that was there before
        rw [h.rows row.fileId hdone] at hget
        exact hfree row (Table.mem_of_get? hget) hlive hpath
      · -- one that an earlier action wrote
        simp only [not_forall, not_not] at hdone
        obtain ⟨b, hb, hid⟩ := hdone
        have hsettled := h.settled b hb
        cases b with
        | delete fileId' path' type' =>
          have hdeleted := hsettled.2 row (by rw [← hget]; exact congrArg _ hid)
          rw [hlive.2] at hdeleted
          cases hdeleted
        | content mode' fileId' path' type' dominateVV' =>
          obtain ⟨entry, row', -, hrow', -, -, -, hpath', -⟩ := hsettled
          have heq : row' = row := by
            have hid' : fileId' = row.fileId := hid
            rw [hid', hget] at hrow'
            exact (Option.some.inj hrow').symm
          rw [heq, hpath] at hpath'
          exact hfolds _ hb _ rfl (congrArg some hpath')

/-- The row that an accepted op of the action writes. -/
theorem written_of_accepted {now : Time} {uuid : Uuid} {op : FileOp}
    {applied : Applied} {mode : ForcePushMode} {fileId path : String} {type : FileType}
    {dominateVV : VersionVector}
    (hplanned : Planned P vaultId s (.content mode fileId path type dominateVV))
    (hvault : op.vaultId = vaultId) (hid : op.fileId = fileId)
    (hkind : op.kind = if mode = .update then .update else .create)
    (hpath : op.newPath = some path)
    (hdominates : VersionVector.dominates (declaredVV op) dominateVV = true)
    (h : Effect P now uuid op s applied) :
    applied.file.deleted = false ∧ applied.file.pathNormalized = caseFoldPath P path ∧
      applied.file.contentVV = declaredVV op := by
  have hrow : opRow op s = s.getFile vaultId fileId := by rw [opRow, hvault, hid]
  cases mode with
  | update =>
    rw [if_pos rfl] at hkind
    obtain ⟨-, row, hfound, hlive, hfolded, rfl⟩ := hplanned
    cases h with
    | updated row' kind dominates conflicts =>
      rw [hrow, hfound] at row'
      obtain rfl := Option.some.inj row'
      exact ⟨rfl, hfolded, rfl⟩
    | conflicted row' kind concurrent conflicts =>
      rw [hrow, hfound] at row'
      obtain rfl := Option.some.inj row'
      simp [VersionVector.isConcurrent, hdominates] at concurrent
    | created kind =>
      rw [hkind] at kind
      cases kind
    | lostRename row' kind | renamed row' kind | deleted row' kind | restored row' kind =>
      rw [hkind] at kind
      cases kind
  | create =>
    rw [if_neg (by decide)] at hkind
    obtain ⟨hcanonical, hdead, hfree⟩ := hplanned
    cases h with
    | created kind dead canonical unique conflicts =>
      -- the path is free, so the file gets it
      rw [hpath, Option.getD_some, hcanonical] at canonical
      obtain rfl := Except.ok.inj canonical
      have hpathFree : PathFree P s op.vaultId path op.fileId := by
        intro collision hcollision
        obtain ⟨hmem, hlive, hfolded⟩ := Store.of_findLiveFileByPath hcollision
        rw [hvault] at hlive
        exact absurd hfolded (hfree collision hmem hlive)
      rw [uniquePath_of_pathFree hpathFree] at unique
      obtain rfl := Except.ok.inj unique
      exact ⟨rfl, rfl, rfl⟩
    | @updated row tx row' kind | @conflicted row tx row' kind =>
      rw [hrow] at row'
      have hdeleted := hdead row row'
      rcases kind with ⟨-, hlive⟩ | hupdate
      · rw [hlive] at hdeleted
        cases hdeleted
      · rw [hkind] at hupdate
        cases hupdate
    | lostRename row' kind | renamed row' kind | deleted row' kind | restored row' kind =>
      rw [hkind] at kind
      cases kind

/-- What an op of an action leaves of its entry. -/
def EntryLeft (op : FileOp) (found : Option FileIndexEntry) : ForcePushAction → Prop
  | .content _ _ path _ _ =>
    ∃ entry, found = some entry ∧ entry.deleted = false ∧ entry.path = path ∧
      entry.appliedContentVV = declaredVV op
  | .delete .. => ∀ entry, found = some entry → entry.deleted = true

/-- What it leaves of its row. -/
def RowLeft (P : Platform) (op : FileOp) (row : StoredFile) : ForcePushAction → Prop
  | .content _ _ path _ _ =>
    row.deleted = false ∧ row.pathNormalized = caseFoldPath P path ∧ row.contentVV = declaredVV op
  | .delete .. => row.deleted = true

theorem settled_of_left {op : FileOp} {row : StoredFile}
    (hentry : EntryLeft op (loop.engine.index.byFileId action.fileId) action)
    (hget : loop.server.getFile vaultId action.fileId = some row) (hrow : RowLeft P op row action) :
    SettledAction P vaultId loop action := by
  cases action with
  | content mode fileId path type dominateVV =>
    obtain ⟨entry, hfound, hlive, hpath, hvv⟩ := hentry
    obtain ⟨hrowLive, hrowPath, hrowVV⟩ := hrow
    exact ⟨entry, row, hfound, hget, hlive, hpath, hrowLive, hrowPath, hvv.trans hrowVV.symm⟩
  | delete fileId path type =>
    refine ⟨hentry, ?_⟩
    intro row' hget'
    obtain rfl := Option.some.inj (hget.symm.trans hget')
    exact hrow

/-- The op of an action. -/
structure OpOf (P : Platform) (cfg : ClientConfig) (action : ForcePushAction) (op : FileOp) :
    Prop where
  vaultId : op.vaultId = cfg.vaultId
  fileId : op.fileId = action.fileId
  content : ∀ mode fileId path type dominateVV,
    action = .content mode fileId path type dominateVV →
      op.kind = (if mode = .update then .update else .create) ∧ op.newPath = some path ∧
        truthy op.contentHash = true ∧
        VersionVector.dominates (declaredVV op) dominateVV = true
  delete : action.foldedPath P = none ↔ op.kind = .delete

/-- The op that the draft of an action becomes. -/
theorem opOf_actionDraft (opId : Uuid) {draft : FileOpDraft} {e : Engine}
    (hdraft : actionDraft P cfg action loop.engine = some (draft, e)) :
    e.index = loop.engine.index ∧ (e.outbox.opOfDraft opId draft).opId = opId.1 ∧
      OpOf P cfg action (e.outbox.opOfDraft opId draft) := by
  cases action with
  | content mode fileId path type dominateVV =>
    obtain ⟨rfl, hforced⟩ := forcedDraft_actionDraft hdraft
    refine ⟨rfl, by simp [OutboxManager.opOfDraft, hforced.opId], hforced.vaultId, hforced.fileId,
      ?_, ?_⟩
    · rintro _ _ _ _ _ ⟨⟩
      exact ⟨hforced.kind, hforced.newPath, hforced.hash, hforced.dominates⟩
    · refine iff_of_false (by simp [ForcePushAction.foldedPath]) fun hdelete => ?_
      have hkind : draft.kind = .delete := hdelete
      rw [hforced.kind] at hkind
      split at hkind <;> cases hkind
  | delete fileId path type =>
    obtain ⟨rfl, rfl⟩ := Prod.mk.inj (Option.some.inj hdraft)
    exact ⟨rfl, rfl, rfl, rfl, by simp, iff_of_true rfl rfl⟩

/-- The index after an op: the entry of the action, and the others as they were. -/
theorem entryLeft_applyForcedToIndex (now : Time) {op : FileOp} (e : Engine)
    (hop : OpOf P cfg action op) (hplanned : Planned P vaultId s action) :
    EntryLeft op ((applyForcedToIndex P now op e).index.byFileId action.fileId) action ∧
      ∀ fileId, action.fileId ≠ fileId →
        (applyForcedToIndex P now op e).index.byFileId fileId = e.index.byFileId fileId := by
  rw [← hop.fileId]
  cases action with
  | content mode fileId path type dominateVV =>
    obtain ⟨-, hpath, hhash, -⟩ := hop.content _ _ _ _ _ rfl
    have hkind : op.kind ≠ .delete := fun h => by
      have hnone := hop.delete.mpr h
      cases hnone
    have hcanonical : normalizePath P path = .ok path := by
      cases mode <;> exact hplanned.1
    have hset : ∃ entry : FileIndexEntry,
        (applyForcedToIndex P now op e).index = e.index.upsertFile entry ∧
          entry.fileId = op.fileId ∧ entry.deleted = false ∧ entry.path = path ∧
          entry.appliedContentVV = declaredVV op := by
      unfold applyForcedToIndex
      simp only [hkind, if_false, hpath, Option.some_or, Option.getD_some,
        ne_empty_of_normalizePath hcanonical, decide_false, hhash, Bool.not_true, Bool.or_self,
        Bool.false_eq_true]
      exact ⟨_, rfl, rfl, rfl, rfl, rfl⟩
    obtain ⟨entry, hindex, hid, hlive, hentryPath, hvv⟩ := hset
    constructor
    · exact ⟨entry, by rw [hindex, LocalIndex.byFileId_upsertFile, if_pos hid], hlive, hentryPath,
        hvv⟩
    · intro fileId' hne
      rw [hindex, LocalIndex.byFileId_upsertFile, if_neg (by rw [hid]; exact hne)]
  | delete fileId path type =>
    have hindex : (applyForcedToIndex P now op e).index = e.index.markDeleted op.fileId := by
      rw [applyForcedToIndex, if_pos (hop.delete.mp rfl)]
    constructor
    · intro entry hentry
      rw [hindex, LocalIndex.byFileId_markDeleted, if_pos rfl, Option.map_eq_some_iff] at hentry
      obtain ⟨old, -, rfl⟩ := hentry
      rfl
    · intro fileId' hne
      rw [hindex, LocalIndex.byFileId_markDeleted, if_neg hne]

/-- The row that an accepted op of an action writes. -/
theorem rowLeft_of_accepted {now : Time} {uuid : Uuid} {op : FileOp} {applied : Applied}
    (hop : OpOf P cfg action op) (hplanned : Planned P cfg.vaultId s action)
    (h : Effect P now uuid op s applied) : RowLeft P op applied.file action := by
  cases action with
  | content mode fileId path type dominateVV =>
    obtain ⟨hkind, hpath, -, hdominates⟩ := hop.content _ _ _ _ _ rfl
    exact written_of_accepted hplanned hop.vaultId hop.fileId hkind hpath hdominates h
  | delete fileId path type =>
    have hkind := hop.delete.mp rfl
    cases h with
    | deleted row kind => rfl
    | created kind | lostRename row kind | renamed row kind | restored row kind =>
      rw [hkind] at kind
      cases kind
    | updated row kind | conflicted row kind =>
      rcases kind with ⟨kind, -⟩ | kind
      · rw [hkind] at kind
        cases kind
      · rw [hkind] at kind
        cases kind

/-- **What is settled stays, and the action is settled as well.** -/
theorem Pushed.step {now : Time} {serverNow : FileOp → Time} {uuid : FileOp → Uuid}
    {userId : Option String} {opId : Uuid} {draft : FileOpDraft} {e : Engine}
    (h : Pushed P cfg.vaultId s index done loop) (hplanned : Planned P cfg.vaultId s action)
    (hnew : ∀ b ∈ done, b.fileId ≠ action.fileId)
    (hfolds : ∀ b ∈ done, ∀ folded, b.foldedPath P = some folded →
      action.foldedPath P ≠ some folded)
    (hfresh : loop.server.getOpById opId.1 = none)
    (hdraft : actionDraft P cfg action loop.engine = some (draft, e))
    (hok : (forceOp P cfg now (serveForced P serverNow uuid userId) opId draft
      { loop with engine := e }).1.ok = true) :
    Pushed P cfg.vaultId s index (done ++ [action])
      ((forceOp P cfg now (serveForced P serverNow uuid userId) opId draft
        { loop with engine := e }).2.count action) ∧
      ∃ logged, (forceOp P cfg now (serveForced P serverNow uuid userId) opId draft
        { loop with engine := e }).2.server.ops = loop.server.ops ++ [logged] ∧
        logged.opId = opId.1 := by
  obtain ⟨⟨vaultSeq, conflictId, hack⟩, hserver, hsent, hfiles⟩ := forceOp_ok hok
  obtain ⟨hindex, hopId, hop⟩ := opOf_actionDraft opId hdraft
  dsimp only at hack hserver hsent hfiles
  generalize e.outbox.opOfDraft opId draft = op at hack hserver hsent hfiles hopId hop
  obtain ⟨applied, haccepted, hrows, seq, hops⟩ := accepted_of_serveForced h.acks
    (by rw [hopId]; exact hfresh) hack
  generalize (forceOp P cfg now (serveForced P serverNow uuid userId) opId draft
    { loop with engine := e }).2 = after at hserver hsent hfiles ⊢
  rw [← hserver] at hrows hops
  obtain ⟨hcountEngine, hcountServer, hcountSent⟩ := count_fields action after
  -- the server changes the row of the action, the index its entry, and nothing else
  have hrow : ∀ fileId, after.server.getFile cfg.vaultId fileId
      = if action.fileId = fileId then some applied.file
        else loop.server.getFile cfg.vaultId fileId := by
    intro fileId
    rw [Store.getFile, hrows, Table.get?_set, key_of_effect haccepted.effect, hop.vaultId,
      hop.fileId]
    simp only [Prod.mk.injEq, true_and]
    rfl
  obtain ⟨hentry, hothers⟩ := entryLeft_applyForcedToIndex now e hop hplanned
  have hbyFileId : ∀ fileId, after.engine.index.byFileId fileId
      = (applyForcedToIndex P now op e).index.byFileId fileId := by
    intro fileId
    rw [LocalIndex.byFileId, hfiles, LocalIndex.byFileId]
  refine ⟨⟨?_, ?_, ?_, ?_, ?_⟩, _, hops, hopId⟩
  · intro fileId hnot
    have hne := hnot action (by simp)
    rw [hcountServer, hrow, if_neg hne]
    exact h.rows fileId fun b hb => hnot b (List.mem_append_left _ hb)
  · intro fileId hnot
    have hne := hnot action (by simp)
    rw [hcountEngine, hbyFileId, hothers fileId hne, hindex]
    exact h.entries fileId fun b hb => hnot b (List.mem_append_left _ hb)
  · intro b hb
    rcases List.mem_append.mp hb with hb | hb
    · -- an earlier one has another file
      have hne : action.fileId ≠ b.fileId := fun heq => hnew b hb heq.symm
      refine (h.settled b hb).congr ?_ ?_
      · rw [hcountEngine, hbyFileId, hothers _ hne, hindex]
      · rw [hcountServer, hrow, if_neg hne]
    · obtain rfl := List.mem_singleton.mp hb
      -- the plan was made on the manifest; its row is still as planned
      have hturn := h.planned hplanned hnew hfolds
      have hleft := rowLeft_of_accepted hop hturn haccepted.effect
      refine settled_of_left ?_ ?_ hleft
      · rw [hcountEngine, hbyFileId]
        exact hentry
      · rw [hcountServer, hrow, if_pos rfl]
  · intro op' hop' hdelete
    rw [hcountSent, hsent] at hop'
    rcases List.mem_append.mp hop' with hop' | hop'
    · obtain ⟨b, hb, hb'⟩ := h.deletes op' hop' hdelete
      exact ⟨b, List.mem_append_left _ hb, hb'⟩
    · obtain rfl := List.mem_singleton.mp hop'
      exact ⟨action, by simp, hop.delete.mpr hdelete, hop.fileId.symm⟩
  · intro logged hlogged result hresult
    rw [hcountServer, hops] at hlogged
    rcases List.mem_append.mp hlogged with hlogged | hlogged
    · exact h.acks logged hlogged result hresult
    · obtain rfl := List.mem_singleton.mp hlogged
      obtain rfl := OpApplyResult.ack.inj hresult
      rfl

/-- The actions of a plan: each of another file, and the contents under other folded paths. -/
structure Apart (P : Platform) (actions : List ForcePushAction) : Prop where
  ids : actions.Pairwise fun a b => a.fileId ≠ b.fileId
  folds : actions.Pairwise fun a b => ∀ folded, a.foldedPath P = some folded →
    b.foldedPath P ≠ some folded

/-- **A push that succeeds leaves each of its actions settled.** -/
theorem pushed_pushActions {now : Time} {serverNow : FileOp → Time} {uuid : FileOp → Uuid}
    {userId : Option String} {adopted created updated deleted adopted' : ℕ}
    {actions : List (ForcePushAction × Uuid)} {loop' : ForceLoop Store}
    (h : Pushed P cfg.vaultId s index done loop)
    (hplanned : ∀ action ∈ actions, Planned P cfg.vaultId s action.1)
    (hapart : Apart P (done ++ actions.map Prod.fst))
    (hfresh : ∀ action ∈ actions, loop.server.getOpById action.2.1 = none)
    (hdistinct : actions.Pairwise fun a b => a.2.1 ≠ b.2.1)
    (hok : pushActions P cfg now (serveForced P serverNow uuid userId) adopted actions loop
      = (.ok created updated deleted adopted', loop')) :
    Pushed P cfg.vaultId s index (done ++ actions.map Prod.fst) loop' := by
  induction actions generalizing done loop with
  | nil =>
    obtain ⟨-, rfl⟩ := Prod.mk.inj hok
    simpa using h
  | cons action actions ih =>
    obtain ⟨action, opId⟩ := action
    rw [pushActions] at hok
    cases hdraft : actionDraft P cfg action loop.engine with
    | none =>
      rw [hdraft] at hok
      cases (Prod.mk.inj hok).1
    | some drafted =>
      obtain ⟨draft, e⟩ := drafted
      rw [hdraft] at hok
      dsimp only at hok
      split at hok
      · cases (Prod.mk.inj hok).1
      next hnot =>
      rw [Bool.not_eq_true', Bool.not_eq_false] at hnot
      obtain ⟨hpairwise, hfolds⟩ := hapart
      have hbefore := (List.pairwise_append.mp hpairwise).2.2
      have hbefore' := (List.pairwise_append.mp hfolds).2.2
      obtain ⟨hstep, logged, hops, hlogged⟩ := h.step (hplanned _ (List.mem_cons_self ..))
        (fun b hb => hbefore b hb action (List.mem_cons_self ..))
        (fun b hb => hbefore' b hb action (List.mem_cons_self ..))
        (hfresh _ (List.mem_cons_self ..)) hdraft hnot
      have hassoc : done ++ ((action, opId) :: actions).map Prod.fst
          = (done ++ [action]) ++ actions.map Prod.fst := by simp
      obtain ⟨hdistinct, hdistinct'⟩ := List.pairwise_cons.mp hdistinct
      rw [hassoc] at hpairwise hfolds ⊢
      refine ih hstep (fun a ha => hplanned a (List.mem_cons_of_mem _ ha)) ⟨hpairwise, hfolds⟩ ?_
        hdistinct' hok
      -- the ids of the other ops are still new
      intro a ha
      rw [(count_fields action _).2.1, Store.getOpById_eq_none_iff, hops]
      intro op hop
      rcases List.mem_append.mp hop with hop | hop
      · exact Store.getOpById_eq_none_iff.mp (hfresh a (List.mem_cons_of_mem _ ha)) op hop
      · obtain rfl := List.mem_singleton.mp hop
        rw [hlogged]
        exact hdistinct a ha

end Step

end ObsidianSync
